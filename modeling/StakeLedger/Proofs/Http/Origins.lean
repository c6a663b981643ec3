import StakeLedger.Http.Site

/-!
# Whom responses admit

A response lets an origin read it by a header that names the origin, or all origins.  Only what a
site adds for the origin of a request is such a header, whether the request asks before another one
or not, whatever it asks for and whatever becomes of it.  So a response admits an origin if and only
if the site does, but for the one to a fault that no layer expects, which admits none.

Main definitions:

- {lit}`Http.Headers.Admit`: headers that let an origin read a response.
- {lit}`Http.Headers.Silent`: headers that say nothing about origins.

Main results:

- Theorem {lit}`Http.Origins.admits_ofList_iff`: which origins a list of settings admits.
- Theorem {lit}`Http.Site.silent_route`: endpoints say nothing about origins.
- Theorem {lit}`Http.Site.admit_respond_iff`: which responses admit the origin of a request.
-/

namespace StakeLedger.Http

/-! ## Headers -/

namespace Headers

/-- The name of the header that admits origins, in lower case. -/
def allowName : String := "access-control-allow-origin"

/-- Whether headers let an origin read a response: they name it, or all. -/
def Admit (headers : Headers) (origin : String) : Prop :=
  ∃ header ∈ headers, header.1.toLower = allowName ∧
    (header.2 = origin ∨ header.2 = Origins.any)

/-- Whether headers say nothing about origins. -/
def Silent (headers : Headers) : Prop :=
  ∀ header ∈ headers, header.1.toLower ≠ allowName

variable {first second : Headers} {origin : String}

/-- Headers that say nothing admit no origin. -/
theorem Silent.not_admit (h : Silent first) : ¬Admit first origin := by
  intro hadmit
  rcases hadmit with ⟨header, hmem, hname, -⟩
  exact h header hmem hname

/-- Headers after others say nothing if both do. -/
theorem Silent.append (hfirst : Silent first) (hsecond : Silent second) :
    Silent (first ++ second) := by
  intro header hmem
  rcases List.mem_append.mp hmem with hmem | hmem
  · exact hfirst header hmem
  · exact hsecond header hmem

/-- Headers after others admit what either do. -/
theorem admit_append_iff :
    Admit (first ++ second) origin ↔ Admit first origin ∨ Admit second origin := by
  simp only [Admit, List.mem_append, or_and_right, exists_or]

/-- Headers that say nothing do not change whom those before them admit. -/
theorem Silent.admit_append_iff (h : Silent second) :
    Admit (first ++ second) origin ↔ Admit first origin := by
  rw [Headers.admit_append_iff]
  exact or_iff_left h.not_admit

/-- Nor do they change whom those behind them admit. -/
theorem Silent.append_admit_iff (h : Silent first) :
    Admit (first ++ second) origin ↔ Admit second origin := by
  rw [Headers.admit_append_iff]
  exact or_iff_right h.not_admit

/-- Without headers nothing is said. -/
theorem silent_nil : Silent [] :=
  nofun

/-- The names of the other headers of responses. -/
def otherNames : List String :=
  ["access-control-allow-headers", "access-control-allow-methods", "access-control-max-age",
    "allow", "content-type", "location", "vary"]

/-- None of them is the name of the header that admits origins. -/
theorem toLower_ne_allowName : ∀ name ∈ otherNames, name.toLower ≠ allowName := by
  decide +kernel

/-- A header of another name says nothing. -/
theorem silent_singleton {name : String} (h : name ∈ otherNames) (value : String) :
    Silent [(name, value)] := by
  intro header hmem
  rw [List.mem_singleton.mp hmem]
  exact toLower_ne_allowName name h

end Headers

/-! ## Origins -/

namespace Origins

/-- The origins that are admitted: all if the list has the name for that, and else those in it. -/
theorem admits_iff (o : Origins) (origin : String) :
    o.admits origin = true ↔ any ∈ o.names ∨ origin ∈ o.names := by
  simp [admits, isOpen]

/-- Settings admit the origins they list, or all if they list the name for that, and also if they
list nothing. -/
theorem admits_ofList_iff (names : List String) (origin : String) :
    (ofList names).admits origin = true ↔ names = [] ∨ any ∈ names ∨ origin ∈ names := by
  rw [admits_iff, ofList]
  by_cases hempty : names = []
  · simp [hempty]
  · simp [hempty]

/-- The header that admits an origin has the name for that. -/
theorem toLower_allow (origin : String) : (allow origin).1.toLower = Headers.allowName := by
  change "access-control-allow-origin".toLower = "access-control-allow-origin"
  decide +kernel

/-- The header that admits all origins admits each. -/
theorem admit_allow_any (origin : String) : Headers.Admit [allow any] origin :=
  ⟨allow any, List.mem_singleton_self _, toLower_allow any, .inr rfl⟩

/-- The header that names an origin admits it. -/
theorem admit_allow (origin : String) : Headers.Admit [allow origin] origin :=
  ⟨allow origin, List.mem_singleton_self _, toLower_allow origin, .inl rfl⟩

/-- What caches are told is not about whom a response admits. -/
theorem silent_vary : Headers.Silent [vary] :=
  Headers.silent_singleton (by simp [Headers.otherNames]) _

/-- The headers for an origin admit it if and only if it is admitted. -/
theorem admit_simple_iff (o : Origins) (origin : String) :
    (o.simple origin).Admit origin ↔ o.admits origin = true := by
  constructor
  · intro hadmit
    cases hadmits : o.admits origin with
    | true => rfl
    | false =>
        rw [simple_of_not_admits o origin hadmits] at hadmit
        exact absurd hadmit Headers.silent_nil.not_admit
  · intro hadmits
    unfold simple
    split
    · exact admit_allow_any origin
    · have hnamed : Headers.Admit ([allow origin] ++ [vary]) origin :=
        silent_vary.admit_append_iff.mpr (admit_allow origin)
      exact hnamed

/-- What else is said to a request that asks before another one is not about origins. -/
theorem admit_preflightHeaders_iff (o : Origins) (origin : String) (asked : Option String) :
    (o.preflightHeaders origin asked).Admit origin ↔ o.admits origin = true := by
  have hmethods : Headers.Silent [("access-control-allow-methods", ", ".intercalate methods)] :=
    Headers.silent_singleton (by simp [Headers.otherNames]) _
  have hage : Headers.Silent [("access-control-max-age", toString maxAge)] :=
    Headers.silent_singleton (by simp [Headers.otherNames]) _
  have hfixed : Headers.Silent [("access-control-allow-methods", ", ".intercalate methods),
      ("access-control-max-age", toString maxAge)] := hmethods.append hage
  have hnames (names : String) : Headers.Silent [("access-control-allow-headers", names)] :=
    Headers.silent_singleton (by simp [Headers.otherNames]) _
  have hfirst : Headers.Admit
      ((if o.isOpen then [allow any] else [vary]) ++
        [("access-control-allow-methods", ", ".intercalate methods),
          ("access-control-max-age", toString maxAge)] ++
        (if !o.isOpen && o.admits origin then [allow origin] else [])) origin ↔
      o.admits origin = true := by
    by_cases hopen : o.isOpen = true
    · have hadmits : o.admits origin = true := by rw [admits, hopen, Bool.true_or]
      simp only [hopen, hadmits, if_true, Bool.not_true, Bool.false_and, Bool.false_eq_true,
        if_false, List.append_nil, hfixed.admit_append_iff, admit_allow_any]
    · simp only [Bool.not_eq_true] at hopen
      simp only [hopen, Bool.false_eq_true, if_false, Bool.not_false, Bool.true_and,
        (silent_vary.append hfixed).append_admit_iff]
      cases o.admits origin with
      | true => simpa using admit_allow origin
      | false => simpa using Headers.silent_nil.not_admit
  cases asked with
  | none => rw [preflightHeaders, Headers.silent_nil.admit_append_iff, hfirst]
  | some names => rw [preflightHeaders, (hnames names).admit_append_iff, hfirst]

/-- The answer to a request that asks before another one admits its origin if and only if that is
admitted. -/
theorem admit_preflight_iff {o : Origins} {request : Request} {origin : String}
    {response : Response} (horigin : request.header? "origin" = some origin)
    (h : o.preflight? request = some response) :
    response.headers.Admit origin ↔ o.admits origin = true := by
  have hkind : Headers.Silent [Response.contentType "text/plain; charset=utf-8"] :=
    Headers.silent_singleton (by simp [Headers.otherNames]) _
  unfold preflight? at h
  rw [horigin] at h
  split at h
  · next method heq hmethod =>
    cases heq
    split at h
    · dsimp only at h
      split at h
      · cases h
        rw [Response.plain, hkind.admit_append_iff, admit_preflightHeaders_iff]
      · cases h
        rw [Response.plain, hkind.admit_append_iff, admit_preflightHeaders_iff]
    · cases h
  · cases h

end Origins

/-! ## Responses of endpoints -/

/-- A document says nothing about origins beyond what it is given. -/
theorem silent_document {more : Headers} (h : more.Silent) (status : Nat) (v : Value) :
    (Response.document status v more).headers.Silent :=
  h.append (Headers.silent_singleton (by simp [Headers.otherNames]) _)

/-- Plain text says nothing about origins. -/
theorem silent_plain (status : Nat) (text : String) :
    (Response.plain status text).headers.Silent :=
  Headers.silent_nil.append (Headers.silent_singleton (by simp [Headers.otherNames]) _)

/-- The reply to a query says nothing about origins, whatever came of it. -/
theorem silent_ofOutcome (path : String) (o : Outcome) :
    (Reply.ofOutcome path o).response.headers.Silent := by
  unfold Reply.ofOutcome
  split
  · exact silent_document Headers.silent_nil _ _
  · exact silent_plain _ _
  · split
    · exact silent_plain _ _
    · exact silent_document Headers.silent_nil _ _

/-- The reply about the state of a server says nothing about origins. -/
theorem silent_ofHealth (alive : Bool) (entries : List Journal.Entry) :
    (Reply.ofHealth alive entries).response.headers.Silent := by
  cases alive with
  | true => exact silent_document Headers.silent_nil _ _
  | false => exact silent_document Headers.silent_nil _ _

/-- The reply with metrics says nothing about origins. -/
theorem silent_ofMetrics (m : Metrics) : (Reply.ofMetrics m).response.headers.Silent :=
  Headers.silent_singleton (by simp [Headers.otherNames]) _

/-- The reply without an endpoint says nothing about origins, also if it points one out. -/
theorem silent_ofUnknown (request : Request) :
    (Reply.ofUnknown request).response.headers.Silent := by
  unfold Reply.ofUnknown
  dsimp only
  split
  · exact Headers.silent_singleton (by simp [Headers.otherNames]) _
  · exact silent_document Headers.silent_nil _ _

namespace Site

/-- Endpoints say nothing about origins. -/
theorem silent_route (desk : Desk) (clock : Int) (request : Request) :
    (route desk clock request).1.response.headers.Silent := by
  unfold route
  split
  · exact silent_ofUnknown request
  · next endpoint _ =>
    split
    · cases endpoint with
      | health => exact silent_ofHealth _ _
      | metrics => exact silent_ofMetrics _
      | operation op => exact silent_ofOutcome _ _
    · have hallow : Headers.Silent [("allow", "GET")] :=
        Headers.silent_singleton (by simp [Headers.otherNames]) _
      exact silent_document hallow _ _

/-- Answering leaves the admitted origins as they are. -/
theorem origins_respond (site : Site) (clock : Int) (request : Request) :
    (site.respond clock request).2.origins = site.origins := by
  unfold respond
  split
  · rfl
  · rfl

/-- A response admits the origin of its request if and only if the site admits it, but for the
response to a fault that no layer expects, which admits none. -/
theorem admit_respond_iff (site : Site) (clock : Int) {request : Request} {origin : String}
    (horigin : request.header? "origin" = some origin) :
    (site.respond clock request).1.response.headers.Admit origin ↔
      site.origins.admits origin = true ∧ (site.respond clock request).1.unexpected = none := by
  have hsilent := silent_route site.desk clock request
  unfold respond
  split
  · next response hpreflight =>
    rw [Origins.admit_preflight_iff horigin hpreflight]
    exact (and_iff_left rfl).symm
  · dsimp only
    cases hunexpected : (route site.desk clock request).1.unexpected with
    | some fault =>
        rw [Option.isSome_some, if_pos rfl]
        constructor
        · intro hadmit
          exact absurd hadmit hsilent.not_admit
        · intro h
          rw [hunexpected] at h
          exact nomatch h.2
    | none =>
        rw [Option.isSome_none, if_neg Bool.false_ne_true]
        dsimp only [Response.withHeaders]
        rw [hsilent.append_admit_iff, Origins.headersFor, horigin, Origins.admit_simple_iff]
        exact (and_iff_left rfl).symm

end Site

end StakeLedger.Http
