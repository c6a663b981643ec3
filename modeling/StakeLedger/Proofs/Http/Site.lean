import StakeLedger.Proofs.Desk.Walk
import StakeLedger.Proofs.Http.Document
import StakeLedger.Proofs.Http.Parameters

/-!
# The site mirrors its desk

Whoever asks a site over HTTP is told what its desk answers.  The key of a page is made
of characters that stand for themselves, so that a client may paste it into its next
request, and a walk over HTTP reads the pages of the walk at the desk.

Main definitions:

- {lit}`Http.Site.walk`: follow the pages of a listing over HTTP.
- {lit}`Http.Site.Mirrors`: what is promised of a site.

Main results:

- Theorem {lit}`Http.Site.respond_of_asks`: a request is answered with the outcome of the
  query that its parameters ask for.
- Theorem {lit}`Http.Site.walk_eq`: a walk over HTTP reads the pages of the walk at the desk.
- Theorem {lit}`Http.Site.mirrors`: the promises are kept.
-/

namespace StakeLedger

/-! ## Walks at the desk -/

/-- The page in an outcome, if there is one. -/
def Outcome.page? (o : Outcome) : Option Page :=
  match o.result with
  | .ok (.page page) => some page
  | _ => none

/-- An outcome with a page is that of a query that was answered with it. -/
theorem Outcome.page?_eq_some_iff {o : Outcome} {page : Page} :
    o.page? = some page ↔ o.result = .ok (.page page) := by
  unfold Outcome.page?
  split
  · rename_i found hresult
    rw [hresult, Option.some.injEq, Except.ok.injEq, Answer.page.injEq]
  · rename_i hnone
    constructor
    · exact nofun
    · exact fun h => absurd h (hnone page)

/-- A walk goes on behind a page with a key, ends with one that has none, and ends
without one if there is none. -/
theorem Desk.walk_succ (desk : Desk) (clock : Int) (name staker key : String) (more : Nat) :
    ((desk.walk clock name staker (more + 1) key).1.pages,
        (desk.walk clock name staker (more + 1) key).2) =
      let asked := desk.ask clock name (.listDelegations staker key)
      match asked.1.page? with
      | none => ([], asked.2)
      | some page =>
          if page.hasMore then
            let rest := asked.2.walk clock name staker more page.nextKey
            (page :: rest.1.pages, rest.2)
          else ([page], asked.2) := by
  cases hresult : (desk.ask clock name (.listDelegations staker key)).1.result with
  | error fault => simp [Desk.walk, hresult, Outcome.page?]
  | ok a =>
      cases a with
      | page p =>
          cases hmore : p.hasMore with
          | true => simp [Desk.walk, hresult, Outcome.page?, hmore]
          | false => simp [Desk.walk, hresult, Outcome.page?, hmore]
      | count n => simp [Desk.walk, hresult, Outcome.page?]
      | verdict b => simp [Desk.walk, hresult, Outcome.page?]
      | delegation d => simp [Desk.walk, hresult, Outcome.page?]

namespace Http

/-! ## Pasted keys -/

/-- The characters of a key stand for themselves in a query. -/
theorem isBare_of_mem_key {c : Cursor} {ch : Char} (h : ch ∈ c.key.toList) :
    isBare ch = true := by
  obtain ⟨ds, pads, hkey, -, hdigits⟩ := c.padded_key.digits
  rw [hkey, List.mem_append] at h
  rcases h with h | h
  · have hdigit := hdigits ch h
    simp only [Base64.isDigit, Bool.or_eq_true, beq_iff_eq] at hdigit
    rcases hdigit with (halphanum | rfl) | rfl
    · rw [isBare, halphanum, Bool.true_or]
    · decide
    · decide
  · rw [(List.mem_replicate.mp h).2]
    decide

/-- The key of a page that a desk answers with stands for itself in a query. -/
theorem isBare_of_mem_nextKey {desk : Desk} {clock : Int} {name : String} {q : Query}
    {page : Page} (h : (desk.ask clock name q).1.result = .ok (.page page)) {ch : Char}
    (hch : ch ∈ page.nextKey.toList) : isBare ch = true := by
  obtain ⟨c, -, hkey⟩ := @Query.exists_key_of_run (desk.setting clock) q page h
  rw [hkey] at hch
  exact isBare_of_mem_key hch

/-! ## Requests -/

/-- The endpoint of an operation is at its path. -/
theorem ofPath?_path (op : Operation) :
    Endpoint.ofPath? (Endpoint.operation op).path = some (.operation op) := by
  cases op <;> decide

/-- A request to read is not one of a browser about another one. -/
theorem preflight?_of_get {request : Request} (hmethod : request.method = "GET")
    (origins : Origins) : origins.preflight? request = none := by
  unfold Origins.preflight?
  split
  · rw [if_neg]
    rw [hmethod]
    decide
  · rfl

namespace Site

/-- A request to read at the path of an operation is answered with the outcome of the
query that its parameters ask for, and headers for origins, and the desk has accounted
for the query. -/
theorem respond_of_asks (site : Site) (clock : Int) {request : Request} {q : Query}
    {ps : Parameters} (hmethod : request.method = "GET")
    (hpath : request.path = (Endpoint.operation q.operation).path)
    (hquery : ps.Spelled request.query) (hasks : ps.Asks q) :
    (∃ headers, (site.respond clock request).1.response = Response.withHeaders
        (Reply.ofOutcome request.path (site.desk.ask clock (requestName request) q).1).response
        headers) ∧
      (site.respond clock request).2 =
        { site with desk := (site.desk.ask clock (requestName request) q).2 } := by
  have hroute : route site.desk clock request =
      (.ofOutcome request.path (site.desk.ask clock (requestName request) q).1,
        (site.desk.ask clock (requestName request) q).2) := by
    rw [route, hpath, ofPath?_path]
    simp only [if_pos hmethod, serve, Parameters.parse_of_spelled hquery,
      Parameters.queryOf_eq_iff_asks.mpr hasks, ← hpath]
  rw [respond, preflight?_of_get hmethod, hroute]
  dsimp only
  split
  · exact ⟨⟨[], by simp [Response.withHeaders]⟩, rfl⟩
  · exact ⟨⟨_, rfl⟩, rfl⟩

end Site

/-! ## Walks over HTTP -/

/-- The page that a client reads in a response, if it is told one. -/
def Response.page? (r : Response) : Option Page :=
  if r.status = 200 then
    match (Json.parse? r.body.render).bind answerOf? with
    | some (.page page) => some page
    | _ => none
  else none

/-- A client reads the page of an outcome in the reply to it, and nothing else. -/
theorem page?_ofOutcome (path : String) (o : Outcome) (headers : Headers) :
    ((Reply.ofOutcome path o).response.withHeaders headers).page? = o.page? := by
  have hconveys := (conveys_ofOutcome path o).withHeaders headers
  cases hresult : o.result with
  | ok a =>
      obtain ⟨hshows, hanswer⟩ := hconveys.answer a hresult
      rw [Response.page?, if_pos hshows.status, hshows.text, Option.bind_some, hanswer,
        Outcome.page?, hresult]
      cases a with
      | page p => rfl
      | count n => rfl
      | verdict b => rfl
      | delegation d => rfl
  | error fault =>
      have hnone : o.page? = none := by rw [Outcome.page?, hresult]
      rw [hnone, Response.page?]
      cases fault with
      | client fault => rw [if_neg (by simp [(hconveys.client fault hresult).status])]
      | notFound => rw [if_neg (by simp [(hconveys.notFound hresult).status])]
      | storage op cause => rw [if_neg (by simp [(hconveys.storage op cause hresult).status])]
      | internal fault =>
          rw [Reply.ofOutcome, hresult]
          rfl

/-- A request for a page of a listing, and the name that is drawn for it.  The key of the
staker is spelled, and the key of the page stands in the query as it was read. -/
def pageRequest (headers : Headers) (drawn staker key : String) : Request where
  path := (Endpoint.operation .listDelegations).path
  query := "staker_btc_pk=" ++ staker ++ "&" ++ ("pagination_key=" ++ key)
  headers := headers
  drawn := drawn

namespace Site

/-- The pages that a client reads when it follows the key of each page to the next one,
at most a number of them, and the site that has accounted for the requests.  A name is drawn
for each request. -/
def walk (clock : Int) (headers : Headers) (drawn : Nat → String) (staker : String) :
    Nat → String → Site → List Page × Site
  | 0, _, site => ([], site)
  | more + 1, key, site =>
      let (reply, site) := site.respond clock (pageRequest headers (drawn more) staker key)
      match reply.response.page? with
      | none => ([], site)
      | some page =>
          if page.hasMore then
            let (rest, site) := walk clock headers drawn staker more page.nextKey site
            (page :: rest, site)
          else ([page], site)

/-- A key that stands for itself is pasted behind its name. -/
theorem spelled_key {key : String} (hkey : ∀ c ∈ key.toList, isBare c = true) :
    Parameters.Spelled [("pagination_key", key)] ("pagination_key=" ++ key) := by
  have htext : "pagination_key=" ++ key =
      String.ofList ("pagination_key".toList ++ '=' :: key.toList) := by
    rw [String.ext_iff]
    simp
  rw [htext]
  exact .single (spells_self (List.all_eq_true.mp rfl)) (by decide) (spells_self hkey)

/-- The parameters of a request for a page are the two keys. -/
theorem spelled_pageRequest {headers : Headers} {drawn staker spelling key : String}
    (hstaker : Spells staker.toList spelling.toList) (hkey : ∀ c ∈ key.toList, isBare c = true) :
    Parameters.Spelled [("staker_btc_pk", staker), ("pagination_key", key)]
      (pageRequest headers drawn spelling key).query := by
  have htext : "staker_btc_pk=" ++ spelling =
      String.ofList ("staker_btc_pk".toList ++ '=' :: spelling.toList) := by
    rw [String.ext_iff]
    simp
  rw [pageRequest, htext]
  exact .append (.single (spells_self (List.all_eq_true.mp rfl)) (by decide) hstaker)
    (spelled_key hkey)

/-- A request for a page is answered with the outcome of the listing, under whatever name it
is asked for. -/
theorem respond_pageRequest {staker spelling key : String}
    (hstaker : Spells staker.toList spelling.toList) (hkey : ∀ c ∈ key.toList, isBare c = true)
    (site : Site) (clock : Int) (headers : Headers) (drawn name : String) :
    (∃ path o added, (site.respond clock (pageRequest headers drawn spelling key)).1.response =
        (Reply.ofOutcome path o).response.withHeaders added ∧
      o.result = (site.desk.ask clock name (.listDelegations staker key)).1.result) ∧
      (site.respond clock (pageRequest headers drawn spelling key)).2 =
        { site with desk := (site.desk.ask clock name (.listDelegations staker key)).2 } := by
  have hasks : Parameters.Asks [("staker_btc_pk", staker), ("pagination_key", key)]
      (.listDelegations staker key) :=
    Parameters.gives_pair (by decide) staker key
  obtain ⟨⟨added, hresponse⟩, hsite⟩ := @respond_of_asks site clock
    (pageRequest headers drawn spelling key) _ _ rfl rfl (spelled_pageRequest hstaker hkey) hasks
  -- The name of a request is in its journal lines only.
  exact ⟨⟨_, _, added, hresponse, rfl⟩, hsite⟩

/-- A walk over HTTP reads the pages of the walk at the desk, under whatever names. -/
theorem walk_eq {staker spelling : String} (hstaker : Spells staker.toList spelling.toList)
    (clock : Int) (headers : Headers) (drawn : Nat → String) (name : String) (most : Nat)
    {key : String} (hkey : ∀ c ∈ key.toList, isBare c = true) (site : Site) :
    site.walk clock headers drawn spelling most key =
      ((site.desk.walk clock name staker most key).1.pages,
        { site with desk := (site.desk.walk clock name staker most key).2 }) := by
  -- The two walks keep the same desk, and a client goes on only with keys that it was told.
  induction most generalizing key site with
  | zero => rfl
  | succ more ih =>
      obtain ⟨⟨path, o, added, hresponse, hresult⟩, hsite⟩ :=
        respond_pageRequest hstaker hkey site clock headers (drawn more) name
      have hdesk := site.desk.walk_succ clock name staker key more
      generalize hasked : site.desk.ask clock name (.listDelegations staker key) = asked
        at hresult hsite hdesk
      have hsame : o.page? = asked.1.page? := by
        rw [Outcome.page?, hresult, Outcome.page?]
      rw [Prod.mk.injEq] at hdesk
      rw [walk, hdesk.1, hdesk.2]
      dsimp only
      rw [hresponse, page?_ofOutcome, hsite, hsame]
      cases hpage : asked.1.page? with
      | none => rfl
      | some page =>
          rw [← hasked, Outcome.page?_eq_some_iff] at hpage
          cases hmore : page.hasMore with
          | false => simp only [hmore, Bool.false_eq_true, if_false]
          | true =>
              have hrest := ih (fun _ => isBare_of_mem_nextKey hpage)
                { site with desk := asked.2 }
              simp only [hmore, if_true, hrest]

/-! ## Promises -/

/-- What is promised of a site at a time of the clock.  A request to read at the path of
an operation is told what the desk answers to the query that its parameters ask for.  The
key of a page may be pasted behind any query, and is read as it is.  A walk over HTTP from
a key that may be pasted reads the pages of the walk at the desk, whatever names its requests
give or are drawn for them. -/
structure Mirrors (site : Site) (clock : Int) : Prop where
  conveys : ∀ (request : Request) (q : Query) (ps : Parameters), request.method = "GET" →
    request.path = (Endpoint.operation q.operation).path → ps.Spelled request.query →
    ps.Asks q →
    (site.respond clock request).1.response.Conveys
        (site.desk.ask clock (requestName request) q).1.result ∧
      (site.respond clock request).2.desk = (site.desk.ask clock (requestName request) q).2
  pasted : ∀ (name : String) (q : Query) (page : Page),
    (site.desk.ask clock name q).1.result = .ok (.page page) →
    ∀ query : String, Parameters.parse (query ++ "&" ++ ("pagination_key=" ++ page.nextKey)) =
      Parameters.parse query ++ [("pagination_key", page.nextKey)]
  walked : ∀ (headers : Headers) (drawn : Nat → String) (name staker spelling key : String)
    (most : Nat), Spells staker.toList spelling.toList → (∀ c ∈ key.toList, isBare c = true) →
    (site.walk clock headers drawn spelling most key).1 =
      (site.desk.walk clock name staker most key).1.pages

/-- However the parameters of a request are spelled, they ask for one query of each
operation, and every query can be asked; and all sites keep their promises, whatever
their ledger and their page size. -/
theorem mirrors :
    (∀ (op : Operation) (ps : Parameters), ∃! q : Query, q.operation = op ∧ ps.Asks q) ∧
    (∀ q : Query, ∃ (ps : Parameters) (query : String), ps.Spelled query ∧ ps.Asks q) ∧
    ∀ (site : Site) (clock : Int), site.Mirrors clock := by
  refine ⟨Parameters.existsUnique_asks, fun q => ?_, fun site clock => ⟨?_, ?_, ?_⟩⟩
  · obtain ⟨ps, hasks⟩ := Parameters.exists_asks q
    obtain ⟨query, hquery⟩ := ps.exists_spelled
    exact ⟨ps, query, hquery, hasks⟩
  · intro request q ps hmethod hpath hquery hasks
    obtain ⟨⟨headers, hresponse⟩, hsite⟩ :=
      respond_of_asks site clock hmethod hpath hquery hasks
    rw [hresponse, hsite]
    exact ⟨(conveys_ofOutcome _ _).withHeaders headers, rfl⟩
  · intro name q page hpage query
    rw [Parameters.parse_append, Parameters.parse_of_spelled
      (spelled_key fun _ => isBare_of_mem_nextKey hpage)]
  · intro headers drawn name staker spelling key most hstaker hkey
    rw [walk_eq hstaker clock headers drawn name most hkey site]

end Site

end Http

end StakeLedger
