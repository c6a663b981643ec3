import StakeLedger.Http.Endpoint
import StakeLedger.Http.Cors
import StakeLedger.Desk

/-!
# The site

The site answers requests with what the desk answers to queries.  A fault of a
query becomes a document that names its code; one that no layer expects becomes
a bare text without any header for origins.

Main definitions:

- {lit}`Http.Site`: a desk and the origins that may use it.
- {lit}`Http.Reply`: a response and the journal lines on the way.
- {lit}`Http.Site.respond`: answer a request.
-/

namespace StakeLedger.Http

open Journal

/-- A desk and the origins that may use it. -/
structure Site where
  desk : Desk
  origins : Origins := .ofList []

/-- A response, the journal lines on the way, and the fault that no layer
expected if there was one. -/
structure Reply where
  response : Response
  entries : List Entry := []
  unexpected : Option InternalFault := none

/-! ## Documents -/

/-- A document with an answer. -/
def data (v : Value) : Value :=
  .dict [("data", v)]

/-- A document with an error. -/
def problem (code message : String) : Value :=
  .dict [("error", .dict [("code", .text code), ("message", .text message)])]

/-- A document of the server about a request that reached no endpoint. -/
def detail (message : String) : Value :=
  .dict [("detail", .text message)]

/-- The document of an answer. -/
def documentOf : Answer → Value
  | .page p =>
      let items := ("data", Value.list (p.items.map Delegation.toValue))
      if p.hasMore then .dict [items, ("pagination_key", .text p.nextKey)] else .dict [items]
  | .count n => data (.int n)
  | .verdict b => data (.bool b)
  | .delegation d => data d.toValue

/-! ## Replies -/

/-- The reply to a fault that no layer expects. -/
def Reply.ofInternal (fault : InternalFault) (entries : List Entry) : Reply where
  response := .plain 500 "Internal Server Error"
  entries := entries
  unexpected := some fault

/-- The reply at a path to a query with an outcome. -/
def Reply.ofOutcome (path : String) (o : Outcome) : Reply :=
  match o.result with
  | .ok answer => { response := .document 200 (documentOf answer), entries := o.entries }
  | .error (.internal fault) => .ofInternal fault o.entries
  | .error fault =>
      match fault.status? with
      | none => { response := .plain 500 "Internal Server Error", entries := o.entries }
      | some (code, status) =>
          let more :=
            if 500 ≤ status then [⟨.error, s!"{path}: {code}: {fault.message}"⟩] else []
          { response := .document status (problem code fault.message)
            entries := o.entries ++ more }

/-- The reply about the state of the server. -/
def Reply.ofHealth (alive : Bool) (entries : List Entry) : Reply where
  response :=
    if alive then .document 200 (data (.text "Server is up and running"))
    else .document 503 (problem "SERVICE_UNAVAILABLE" "Storage is unreachable")
  entries := entries

/-- The kind of the body with metrics. -/
def metricsKind : String :=
  "text/plain; version=1.0.0; charset=utf-8"

/-- The reply with metrics. -/
def Reply.ofMetrics (m : Metrics) : Reply where
  response := {
    status := 200
    headers := [Response.contentType metricsKind]
    body := .text (String.join (m.exposition.map fun line => line ++ "\n")) }

/-! ## Slashes at the end -/

/-- The characters of an address that are never escaped. -/
def isPlain (c : Char) : Bool :=
  c.isAlphanum || "_.-~:/%#?=@[]!$&'()*+,;".toList.contains c

/-- An address with its other characters escaped. -/
def escape (text : String) : String :=
  String.ofList (text.toList.flatMap fun c =>
    if isPlain c then [c]
    else (Utf8.encodeChar c).flatMap fun b =>
      '%' :: (Hex.padded 2 b.toNat).map Char.toUpper)

/-- The path without the slashes at its end, or with one if there is none. -/
def otherPath (path : String) : String :=
  if path.endsWith "/" then String.ofList (path.toList.reverse.dropWhile (· = '/')).reverse
  else path ++ "/"

/-- The address of a path on the host that a request names. -/
def address (request : Request) (path : String) : String :=
  let host := (request.header? "host").getD ""
  let query := if request.query = "" then "" else "?" ++ request.query
  escape s!"http://{host}{path}{query}"

/-- The reply to a request for a path without endpoint: an endpoint at the other
path is pointed out. -/
def Reply.ofUnknown (request : Request) : Reply :=
  let path := otherPath request.path
  if request.path ≠ "/" ∧ (Endpoint.ofPath? path).isSome then
    { response := {
        status := 307
        headers := [("location", address request path)]
        body := .text "" } }
  else { response := .document 404 (detail "Not Found") }

/-! ## The site -/

namespace Site

/-- The name of a request in journal lines: the one that its headers give, unless it is
empty, or else the one that was drawn. -/
def requestName (request : Request) : String :=
  match request.header? "x-request-id" with
  | some name => if name = "" then request.drawn else name
  | none => request.drawn

/-- The reply of an endpoint, and the desk that has accounted for it. -/
def serve (d : Desk) (clock : Int) (request : Request) : Endpoint → Reply × Desk
  | .health =>
      let (alive, entries) := d.health
      (.ofHealth alive entries, d)
  | .metrics => (.ofMetrics d.metrics, d)
  | .operation op =>
      let (o, d) := d.ask clock (requestName request) (queryOf op (.parse request.query))
      (.ofOutcome request.path o, d)

/-- The reply to a request regardless of origins. -/
def route (d : Desk) (clock : Int) (request : Request) : Reply × Desk :=
  match Endpoint.ofPath? request.path with
  | none => (.ofUnknown request, d)
  | some endpoint =>
      if request.method = "GET" then serve d clock request endpoint
      else
        ({ response := .document 405 (detail "Method Not Allowed") [("allow", "GET")] }, d)

/-- Answer a request. -/
def respond (site : Site) (clock : Int) (request : Request) : Reply × Site :=
  match site.origins.preflight? request with
  | some response => ({ response }, site)
  | none =>
      let (reply, desk) := route site.desk clock request
      let reply :=
        if reply.unexpected.isSome then reply
        else { reply with
          response := reply.response.withHeaders (site.origins.headersFor request) }
      (reply, { site with desk })

end Site

end StakeLedger.Http
