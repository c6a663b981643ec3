import StakeLedger.Json.Writer

/-!
# Requests and responses

What goes over the wire, without the wire.

Main definitions:

- {lit}`Http.Request`: a method, a path, a query and headers.
- {lit}`Http.Response`: a status, headers and a body.
-/

namespace StakeLedger.Http

/-- The names and values of headers, in order. -/
abbrev Headers := List (String × String)

/-- The value of the first header of a name, whatever its case. -/
def Headers.find? (headers : Headers) (name : String) : Option String :=
  (List.find? (fun header => header.1.toLower == name) headers).map Prod.snd

/-- A request: the path is decoded, the query is not.  A name is drawn for each request, in
case its headers give none. -/
structure Request where
  method : String := "GET"
  path : String
  query : String := ""
  headers : Headers := []
  drawn : String := "-"

/-- The value of the first header of a name. -/
def Request.header? (request : Request) (name : String) : Option String :=
  request.headers.find? name

/-- What a response carries: a document or plain text. -/
inductive Body where
  | document (v : Value)
  | text (s : String)

/-- The text of a body. -/
def Body.render : Body → String
  | .document v => Json.render v
  | .text s => s

/-- A status, headers with lower-case names, and a body. -/
structure Response where
  status : Nat
  headers : Headers
  body : Body

namespace Response

/-- The header that names the kind of a body. -/
def contentType (kind : String) : String × String :=
  ("content-type", kind)

/-- A document. -/
def document (status : Nat) (v : Value) (more : Headers := []) : Response where
  status := status
  headers := more ++ [contentType "application/json"]
  body := .document v

/-- Plain text. -/
def plain (status : Nat) (text : String) (more : Headers := []) : Response where
  status := status
  headers := more ++ [contentType "text/plain; charset=utf-8"]
  body := .text text

/-- The response with more headers. -/
def withHeaders (r : Response) (more : Headers) : Response :=
  { r with headers := r.headers ++ more }

end Response

end StakeLedger.Http
