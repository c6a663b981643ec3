import StakeLedger.Proofs.Command.Serve
import StakeLedger.Proofs.Http.Origins

/-!
# Whom a server admits

A server admits the origins that its settings list, to whatever they ask for.  It admits all origins
if the settings list the name for that, but also if they list nothing: an empty list is taken for no
list.

Main definitions:

- {lit}`Http.Reply.Heeds`: replies that admit the origin of a request by a list.

Main results:

- Theorem {lit}`Command.admission_exact`: whom a site with the origins of a list admits.
- Theorem {lit}`Command.heeds_replies`: such a site goes by its list at each request of many.
- Theorem {lit}`Command.heeds_run`: what a run serves goes by the list in its file of settings.
- Theorem {lit}`Command.not_admission_empty`: settings that list nothing open a server.
-/

namespace StakeLedger

open Http (Origins Reply Site)

/-- Whether a reply heeds a list of origins: it admits the origin of its request if and only if the
list has that or the name for all origins, or is empty, and no layer was surprised by a fault. -/
def Http.Reply.Heeds (names : List String) (request : Http.Request) (reply : Reply) : Prop :=
  ∀ origin, request.header? "origin" = some origin →
    (reply.response.headers.Admit origin ↔
      (names = [] ∨ Origins.any ∈ names ∨ origin ∈ names) ∧ reply.unexpected = none)

namespace Command

/-! ## Sites -/

/-- A site heeds its list of origins. -/
theorem heeds_respond {site : Site} {names : List String} (hsite : site.origins = .ofList names)
    (clock : Int) (request : Http.Request) :
    (site.respond clock request).1.Heeds names request := by
  intro origin horigin
  rw [site.admit_respond_iff clock horigin, hsite, Origins.admits_ofList_iff]

/-- A site with the origins of a list admits the origin of a request if the list has that, if it has
the name for all origins, or if it is empty.  It does not admit it otherwise, whatever its ledger is
and whatever it is asked: no endpoint, no fault and no answer to a browser that asks before its
page does adds to the list.  The reply to a fault that no layer expects admits nobody at all. -/
theorem admission_exact (names : List String) (desk : Desk) (clock : Int) {request : Http.Request}
    {origin : String} (horigin : request.header? "origin" = some origin) :
    (Site.respond { desk, origins := .ofList names } clock request).1.response.headers.Admit
        origin ↔
      (names = [] ∨ Origins.any ∈ names ∨ origin ∈ names) ∧
        (Site.respond { desk, origins := .ofList names } clock request).1.unexpected = none := by
  have hheeds : (Site.respond { desk, origins := .ofList names } clock request).1.Heeds names
      request := heeds_respond rfl clock request
  exact hheeds origin horigin

/-- The origin of a page elsewhere. -/
def elsewhere : String := "https://elsewhere.example"

/-- What a browser asks before a page elsewhere asks whether the server is up. -/
def foreignPreflight : Http.Request where
  method := "OPTIONS"
  path := "/healthcheck"
  headers := [("Origin", elsewhere), ("Access-Control-Request-Method", "GET")]

/-- With one origin listed a page elsewhere is not admitted. -/
theorem admission_exact_listed : foreignPreflight.header? "origin" = some elsewhere ∧
    ¬(Site.respond { desk := {}, origins := .ofList ["https://example.org"] } 0
      foreignPreflight).1.response.headers.Admit elsewhere := by
  have horigin : foreignPreflight.header? "origin" = some elsewhere := by
    decide +kernel
  refine ⟨horigin, ?_⟩
  rw [admission_exact ["https://example.org"] {} 0 horigin]
  intro h
  have hforeign : ¬(["https://example.org"] = [] ∨ Origins.any ∈ ["https://example.org"] ∨
      elsewhere ∈ ["https://example.org"]) := by
    decide
  exact hforeign h.1

/-- A site that answers one request after the other heeds its list each time. -/
theorem heeds_replies {site : Site} {names : List String} (hsite : site.origins = .ofList names)
    (clock : Int) (requests : List Http.Request) :
    List.Forall₂ (Reply.Heeds names) requests (replies clock site requests) := by
  -- Only the desk changes from one request to the next one.
  induction requests generalizing site with
  | nil => exact .nil
  | cons request rest ih =>
      apply List.Forall₂.cons
      · exact heeds_respond hsite clock request
      · exact ih ((site.origins_respond clock request).trans hsite)

/-! ## Runs -/

/-- What a run serves heeds the origins in the settings of a file. -/
theorem heeds_run {σ : Type} {source : Draws σ} {given : Invocation σ} {d : Directory}
    {served : Served} (h : (given.run source d).served = some served) :
    ∃ directory o text s, Request.parse given.words = .ok ⟨directory, .serve o⟩ ∧
      d.read (o.path directory) = .ok text ∧ Settings.ofFile text = .ok s ∧
      List.Forall₂ (Reply.Heeds s.origins) given.requests served.replies := by
  rcases exists_serve_of_run_served h with ⟨directory, o, hparse, hserve⟩
  rcases exists_listen_of_serve_served rfl hserve with ⟨text, s, hread, hfile, hlisten⟩
  rcases exists_desk_of_listen_served rfl hlisten with ⟨-, desk, hreplies⟩
  refine ⟨directory, o, text, s, hparse, hread, hfile, ?_⟩
  rw [hreplies]
  exact heeds_replies rfl given.clock given.requests

/-- A file of settings that lists no origin. -/
def emptyListFile : String :=
  "server:\n  allowed-origins: []\n"

/-- What reaches a server from a page elsewhere: its browser asks before the page does. -/
def foreignRequests : List Http.Request :=
  [foreignPreflight, { path := "/healthcheck", headers := [("Origin", elsewhere)] }]

/-- A run with these settings that is asked all that. -/
def emptyListRun : Run :=
  Invocation.run Congruential.draws ⟨["run"], 0, fun _ => .ofSeeds 1 1, foreignRequests, {}⟩
    (.ofTexts [(".stakingapi/config.yml", emptyListFile)])

/-- Settings that list no origin, and so not the name for all of them, admit any. -/
theorem not_admission_empty : ∃ s served, Settings.ofFile emptyListFile = .ok s ∧
    Origins.any ∉ s.origins ∧ elsewhere ∉ s.origins ∧
      (∀ request ∈ foreignRequests, request.header? "origin" = some elsewhere) ∧
        emptyListRun.served = some served ∧ served.replies.length = 2 ∧
          ∀ reply ∈ served.replies, reply.response.headers.Admit elsewhere := by
  have hfile : Settings.ofFile emptyListFile = .ok { origins := [] } := by
    decide +kernel
  have horigin : ∀ request ∈ foreignRequests, request.header? "origin" = some elsewhere := by
    decide +kernel
  have hreplies : emptyListRun.served.map (fun served =>
      (served.replies.length, served.replies.all fun reply =>
        reply.response.headers.contains (Origins.allow Origins.any))) = some (2, true) := by
    decide +kernel
  rcases Option.map_eq_some_iff.mp hreplies with ⟨served, hserved, hpair⟩
  rw [Prod.mk.injEq, List.all_eq_true] at hpair
  refine ⟨_, served, hfile, List.not_mem_nil, List.not_mem_nil, horigin, hserved, hpair.1, ?_⟩
  intro reply hreply
  have hmem := List.contains_iff_mem.mp (hpair.2 reply hreply)
  exact ⟨Origins.allow Origins.any, hmem, Origins.toLower_allow _, .inr rfl⟩

end Command

end StakeLedger
