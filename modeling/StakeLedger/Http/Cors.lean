import StakeLedger.Http.Message

/-!
# Origins

Browsers ask which origins may read a response.  An origin that is not admitted
is never named in a header.  Where all origins are admitted none is named, whether a
request carries cookies or not, since no credentials are allowed; where the answer depends
on the origin, caches are told so.

Main definitions:

- {lit}`Http.Origins`: the admitted origins.
- {lit}`Http.Origins.simple`: the headers of a response to an origin.
- {lit}`Http.Origins.preflight?`: the response to a request that asks before another one.

Main results:

- Theorem {lit}`Http.Origins.simple_of_not_admits`: no header for an origin that is not
  admitted.
-/

namespace StakeLedger.Http

/-- The admitted origins. -/
structure Origins where
  names : List String

namespace Origins

/-- The name that admits every origin. -/
def any : String := "*"

/-- Origins from settings: an empty list admits all. -/
def ofList (names : List String) : Origins :=
  ⟨if names.isEmpty then [any] else names⟩

/-- Whether every origin is admitted. -/
def isOpen (o : Origins) : Bool :=
  o.names.contains any

/-- Whether an origin is admitted. -/
def admits (o : Origins) (origin : String) : Bool :=
  o.isOpen || o.names.contains origin

/-- The header that names an admitted origin. -/
def allow (origin : String) : String × String :=
  ("access-control-allow-origin", origin)

/-- The header that tells caches that a response depends on the origin. -/
def vary : String × String :=
  ("vary", "Origin")

/-- The headers of a response to an origin. -/
def simple (o : Origins) (origin : String) : Headers :=
  if o.isOpen then [allow any]
  else if o.admits origin then [allow origin, vary]
  else []

/-- No header for an origin that is not admitted. -/
theorem simple_of_not_admits (o : Origins) (origin : String) (h : o.admits origin = false) :
    o.simple origin = [] := by
  have hopen : o.isOpen = false := by
    simp only [admits, Bool.or_eq_false_iff] at h
    exact h.1
  simp [simple, hopen, h]

/-- The methods that other origins may use. -/
def methods : List String :=
  ["GET", "OPTIONS"]

/-- For how many seconds a browser may keep an answer. -/
def maxAge : Nat := 600

/-- What is wrong with a request that asks before another one. -/
def objections (o : Origins) (origin method : String) : List String :=
  (if o.admits origin then [] else ["origin"]) ++
    (if methods.contains method then [] else ["method"])

/-- The headers of an answer to a request that asks before another one.  Headers
that it asks for are all granted. -/
def preflightHeaders (o : Origins) (origin : String) (asked : Option String) : Headers :=
  (if o.isOpen then [allow any] else [vary]) ++
    [("access-control-allow-methods", ", ".intercalate methods),
      ("access-control-max-age", toString maxAge)] ++
    (if !o.isOpen && o.admits origin then [allow origin] else []) ++
    (match asked with
      | some names => [("access-control-allow-headers", names)]
      | none => [])

/-- The answer to a request that asks before another one, if it is such a
request. -/
def preflight? (o : Origins) (request : Request) : Option Response :=
  match request.header? "origin", request.header? "access-control-request-method" with
  | some origin, some method =>
      if request.method = "OPTIONS" then
        let headers := o.preflightHeaders origin
          (request.header? "access-control-request-headers")
        match o.objections origin method with
        | [] => some (.plain 200 "OK" headers)
        | found => some (.plain 400 ("Disallowed CORS " ++ ", ".intercalate found) headers)
      else none
  | _, _ => none

/-- The headers that a request from another origin adds to a response. -/
def headersFor (o : Origins) (request : Request) : Headers :=
  match request.header? "origin" with
  | some origin => o.simple origin
  | none => []

end Origins

end StakeLedger.Http
