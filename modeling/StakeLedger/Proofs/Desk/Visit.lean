import StakeLedger.Proofs.Desk.Walk

/-!
# Visits to a listing while others write

A client that walks through a listing may find that the ledger was written between
two of its requests.  What it was given so far lies before the cursor that it goes
on from, and what it is still owed lies behind that cursor, whatever is saved: a
delegation that nobody replaces is given to it once, and no place in the listing
is given to it twice.

Main definitions:

- {lit}`Desk.Event`: what happens in the course of a visit.
- {lit}`Desk.Visit`, {lit}`Desk.Visit.run`: a visit, and what events make of it.
- {lit}`Desk.Visit.CanShow`: a delegation that a page can show.
- {lit}`Desk.Visit.Orderly`: the invariant of all visits.
- {lit}`Desk.Visit.Owes`: the invariant of a delegation that nobody replaces.
- {lit}`Desk.Visit.Delivers`: what is promised of a visit.

Main results:

- Theorem {lit}`Desk.Visit.turn_request`: what a request does.
- Theorem {lit}`Desk.Visit.Orderly.step`: every event keeps a visit orderly.
- Theorem {lit}`Desk.Visit.Owes.step`: what is owed stays owed until it is given.
- Theorem {lit}`Desk.Visit.pages_run_requests`: a visit while nobody writes is a walk.
- Theorem {lit}`Desk.Visit.run_delivers`: every visit delivers what is promised.
-/

namespace StakeLedger.Desk

/-! ## Visits -/

/-- What happens in the course of a visit: the client asks for its next page, or
somebody saves a delegation or maps an address. -/
inductive Event where
  | request (clock : Int) (id : String)
  | save (d : Delegation)
  | map (staker address : String)
deriving DecidableEq, Repr

/-- Whether an event replaces a delegation: a save under its hash, of numbers that fit
in their columns. -/
def Event.Replaces (d : Delegation) : Event → Prop
  | .save e => e.fits = true ∧ e.txHash = d.txHash
  | _ => False

/-- How a visit goes on: with the page of a key, or not at all because it is done or
because it was refused. -/
inductive Visit.Next where
  | page (key : String)
  | done
  | refused (fault : QueryFault)
deriving DecidableEq, Repr

/-- A visit to a listing of a desk: the pages that were given so far and how it goes
on. -/
structure Visit where
  desk : Desk
  pages : List Page := []
  next : Visit.Next := .page ""

namespace Visit

/-- The delegations that were given so far. -/
def items (v : Visit) : List Delegation :=
  v.pages.flatMap Page.items

/-- A visit after the answer to its request. -/
def answered (v : Visit) : Except QueryFault Answer → Visit
  | .ok (.page p) =>
      { v with
        pages := v.pages ++ [p]
        next := if p.hasMore then .page p.nextKey else .done }
  | .ok _ => { v with next := .done }
  | .error fault => { v with next := .refused fault }

/-- A visit after a write to the ledger. -/
def written (v : Visit) (a : Ledger.Access) : Visit :=
  { v with desk := { v.desk with ledger := v.desk.ledger.after a } }

/-- A visit to the listing of a staker after an event. -/
def step (staker : String) (v : Visit) : Event → Visit
  | .request clock id =>
      match v.next with
      | .page key =>
          let (o, desk) := v.desk.ask clock id (.listDelegations staker key)
          { v with desk }.answered o.result
      | _ => v
  | .save d => v.written (.save d)
  | .map staker address => v.written (.map staker address)

/-- A visit to the listing of a staker after some events. -/
def run (staker : String) (v : Visit) (events : List Event) : Visit :=
  events.foldl (step staker) v

variable {v : Visit} {ds : List Delegation} {staker key text : String} {limit : Int}

/-- A delegation that a page can show, and from which it can lead on. -/
def CanShow (d : Delegation) : Prop :=
  0 ≤ d.staking.startHeight ∧ d.IsLegible

/-! ## What a request does -/

/-- What a request does to a visit when a listing lies behind its cursor. -/
inductive Turn (listing : List Delegation) (v w : Visit) : Prop where
  /-- The rest of the listing is given. -/
  | last (hitems : w.items = v.items ++ listing) (hnext : w.next = .done)
  /-- A part is given, and the visit goes on behind it. -/
  | more {first rest : List Delegation} {d : Delegation} {h : Height}
      (hlisting : listing = first ++ d :: rest) (hheight : d.staking.startHeight = h.val)
      (hitems : w.items = v.items ++ (first ++ [d]))
      (hnext : w.next = .page (Cursor.key ⟨some h, some d.txHash⟩))
  /-- A delegation has no cursor, or it cannot be read. -/
  | refused {d : Delegation} {fault : QueryFault} (hd : d ∈ listing)
      (hshow : ¬CanShow d) (hitems : w.items = v.items)
      (hnext : w.next = .refused fault)

/-- A visit that does not go on does not heed requests. -/
theorem step_request_of_ne (hnext : ∀ text, v.next ≠ .page text) (clock : Int) (id : String) :
    v.step staker (.request clock id) = v := by
  cases hv : v.next with
  | page text => exact absurd hv (hnext text)
  | done => simp [step, hv]
  | refused fault => simp [step, hv]

/-- Requests leave the ledger of a visit as it is. -/
theorem step_request_desk (v : Visit) (staker : String) (clock : Int) (id : String) :
    (v.step staker (.request clock id)).desk.ledger = v.desk.ledger ∧
      (v.step staker (.request clock id)).desk.pageSize = v.desk.pageSize := by
  cases hv : v.next with
  | page text =>
      simp only [step, hv]
      generalize (v.desk.ask clock id (.listDelegations staker text)).1.result = answer
      unfold answered
      split <;> exact ⟨rfl, rfl⟩
  | done => simp [step, hv]
  | refused fault => simp [step, hv]

/-- A request that the ledger cannot answer, because of a delegation that no page can show, makes
a visit refused. -/
theorem turn_of_fault {c : Cursor} {listing : List Delegation} {fault : Ledger.Fault}
    (hkey : PublicKey.normalize staker = .ok key) (hnext : v.next = .page text)
    (hcursor : Cursor.ofKey? text = some c)
    (hpage : v.desk.ledger.page key c v.desk.pageSize = .error fault) {d : Delegation}
    (hd : d ∈ listing) (hshow : ¬CanShow d) (clock : Int) (id : String) :
    Turn listing v (v.step staker (.request clock id)) := by
  have hresult := ask_of_fault hkey hcursor hpage clock id
  have hgoes : (v.step staker (.request clock id)).next =
      .refused (.ofLedger .listDelegations fault) := by
    simp only [step, hnext, hresult, answered]
  refine .refused hd hshow ?_ hgoes
  simp [step, hnext, hresult, answered, items]

/-- A request of a visit that goes on behind a cursor is answered with the page of
the listing there. -/
theorem turn_request {c : Cursor} (h : v.desk.ledger.Holds ds)
    (hopen : v.desk.ledger.isOpen = true) (hlow : 1 ≤ v.desk.pageSize)
    (hhigh : v.desk.pageSize ≤ 2 ^ 63 - 2) (hkey : PublicKey.normalize staker = .ok key)
    (hnext : v.next = .page text) (hcursor : Cursor.ofKey? text = some c) (clock : Int)
    (id : String) :
    Turn (Ledger.behind ds key c) v (v.step staker (.request clock id)) := by
  have hpaged := h.page_paged hopen key c hlow hhigh
  generalize Ledger.behind ds key c = listing at hpaged
  generalize hanswer : v.desk.ledger.page key c v.desk.pageSize = answer at hpaged
  cases hpaged with
  | last _ _ =>
      have hresult := ask_of_page hkey hcursor hanswer clock id
      refine .last ?_ ?_
      · simp [step, hnext, hresult, answered, items]
      · simp [step, hnext, hresult, answered, Page.hasMore]
  | @more first rest d height _ _ _ hheight =>
      have hresult := ask_of_page hkey hcursor hanswer clock id
      have htext : Cursor.key ⟨some height, some d.txHash⟩ ≠ "" := by
        rw [Ne, Cursor.key_eq_empty_iff]
        simp [Cursor.isStart]
      refine .more rfl hheight ?_ ?_
      · simp [step, hnext, hresult, answered, items]
      · simp [step, hnext, hresult, answered, Page.hasMore, htext]
  | @refused first rest d _ _ _ hheight =>
      have hd : d ∈ first ++ d :: rest := by simp
      exact turn_of_fault hkey hnext hcursor hanswer hd (fun hshow => not_lt.mpr hshow.1 hheight)
        clock id
  | illegible hd hlong =>
      exact turn_of_fault hkey hnext hcursor hanswer (List.mem_of_mem_take hd)
        (fun hshow => hlong hshow.2) clock id

section Turn

variable {listing : List Delegation} {w : Visit}

/-- What was given stays given. -/
theorem Turn.mem_of_mem (h : Turn listing v w) {e : Delegation} (he : e ∈ v.items) :
    e ∈ w.items := by
  cases h with
  | last hitems _ =>
      rw [hitems]
      exact List.mem_append_left listing he
  | more _ _ hitems _ =>
      rw [hitems]
      exact List.mem_append_left _ he
  | refused _ _ hitems _ =>
      rw [hitems]
      exact he

/-- What is given after a request was given before, or is in the listing. -/
theorem Turn.mem_items (h : Turn listing v w) {e : Delegation} (he : e ∈ w.items) :
    e ∈ v.items ∨ e ∈ listing := by
  cases h with
  | last hitems _ => exact List.mem_append.mp (hitems ▸ he)
  | more hlisting _ hitems _ =>
      rcases List.mem_append.mp (hitems ▸ he) with hold | hnew
      · exact Or.inl hold
      · rw [hlisting, List.append_cons]
        exact Or.inr (List.mem_append_left _ hnew)
  | refused _ _ hitems _ => exact Or.inl (hitems ▸ he)

/-- What a request gives keeps the order, if the listing lies behind what was given. -/
theorem Turn.ordered (h : Turn listing v w)
    (hbefore : (v.items ++ listing).Pairwise Delegation.Precedes) :
    w.items.Pairwise Delegation.Precedes := by
  cases h with
  | last hitems _ => exact hitems ▸ hbefore
  | more hlisting _ hitems _ =>
      rw [hlisting, List.append_cons, ← List.append_assoc] at hbefore
      rw [hitems]
      exact (List.pairwise_append.mp hbefore).1
  | refused _ _ hitems _ =>
      rw [hitems]
      exact (List.pairwise_append.mp hbefore).1

/-- A visit that goes on after a request does so from a cursor behind all that was
given. -/
theorem Turn.cursor (h : Turn listing v w)
    (hbefore : (v.items ++ listing).Pairwise Delegation.Precedes) (hnext : w.next = .page text) :
    ∃ c, Cursor.ofKey? text = some c ∧ c.Whole ∧
      ∀ a ∈ w.items, ∀ d, c.admits (Ledger.Row.ofDelegation d) = true → a.Precedes d := by
  cases h with
  | last _ hdone => exact nomatch hdone.symm.trans hnext
  | @more first rest d height hlisting hheight hitems hmore =>
      obtain rfl := Next.page.inj (hmore.symm.trans hnext)
      refine ⟨_, Cursor.ofKey?_key height d.txHash, .place height d.txHash, fun a ha e he => ?_⟩
      have hde : d.Precedes e := (Cursor.admits_after_iff hheight e).mp he
      rw [hlisting, ← List.append_assoc, List.pairwise_append] at hbefore
      rw [hitems, ← List.append_assoc, List.mem_append, List.mem_singleton] at ha
      rcases ha with hgiven | rfl
      · exact (hbefore.2.2 a hgiven d List.mem_cons_self).trans hde
      · exact hde
  | refused _ _ _ hrefused => exact nomatch hrefused.symm.trans hnext

/-- What lay behind the cursor of a request was given, or lies behind the cursor that
the visit goes on from; or the visit was refused. -/
theorem Turn.given {c : Cursor} (h : Turn (Ledger.behind ds key c) v w)
    (hdistinct : (ds.map Delegation.txHash).Nodup) (hwhole : c.Whole) {d : Delegation}
    (hd : d ∈ Ledger.behind ds key c) :
    d ∈ w.items ∨ (∃ fault, w.next = .refused fault) ∨
      ∃ text c, w.next = .page text ∧ Cursor.ofKey? text = some c ∧
        c.admits (Ledger.Row.ofDelegation d) = true := by
  cases h with
  | last hitems _ =>
      rw [hitems]
      exact Or.inl (List.mem_append_right _ hd)
  | @more first rest last height hlisting hheight hitems hmore =>
      have hrest := Ledger.behind_after hdistinct hwhole hheight hlisting
      rw [hlisting, List.append_cons, List.mem_append] at hd
      rcases hd with hgiven | hbehind
      · rw [hitems]
        exact Or.inl (List.mem_append_right _ hgiven)
      · rw [← hrest] at hbehind
        refine Or.inr (Or.inr ⟨_, _, hmore, Cursor.ofKey?_key height last.txHash, ?_⟩)
        exact (Ledger.mem_behind.mp hbehind).2.2
  | refused _ _ _ hrefused => exact Or.inr (Or.inl ⟨_, hrefused⟩)

end Turn

/-! ## What holds of all visits -/

/-- A visit over an open ledger that was given delegations in the order of listings
and goes on from a cursor behind which only later ones lie. -/
structure Orderly (limit : Int) (v : Visit) : Prop where
  pageSize : v.desk.pageSize = limit
  isOpen : v.desk.ledger.isOpen = true
  holds : ∃ ds, v.desk.ledger.Holds ds
  ordered : v.items.Pairwise Delegation.Precedes
  cursor : ∀ text, v.next = .page text → ∃ c, Cursor.ofKey? text = some c ∧ c.Whole ∧
    ∀ a ∈ v.items, ∀ d, c.admits (Ledger.Row.ofDelegation d) = true → a.Precedes d

/-- A visit that begins at an open ledger is orderly. -/
theorem orderly_start {desk : Desk} (h : desk.ledger.Holds ds)
    (hopen : desk.ledger.isOpen = true) : Orderly desk.pageSize { desk := desk } where
  pageSize := rfl
  isOpen := hopen
  holds := ⟨ds, h⟩
  ordered := List.Pairwise.nil
  cursor := by
    intro text hnext
    obtain rfl : "" = text := Next.page.inj hnext
    exact ⟨.start, by simp [Cursor.ofKey?], .start, by simp [items]⟩

/-- A write keeps a visit orderly if it leaves an open ledger of delegations. -/
theorem Orderly.written (hv : Orderly limit v) {a : Ledger.Access}
    (hopen : (v.desk.ledger.after a).isOpen = true) (hds : (v.desk.ledger.after a).Holds ds) :
    Orderly limit (v.written a) where
  pageSize := hv.pageSize
  isOpen := hopen
  holds := ⟨ds, hds⟩
  ordered := hv.ordered
  cursor := hv.cursor

/-! ## What a visit owes -/

/-- A visit that owes a delegation of its staker, or has given it already: while the
delegation is stored it was given, or it lies behind the cursor that the visit goes
on from.  No other delegation was given under its hash. -/
structure Owes (d : Delegation) (v : Visit) : Prop where
  stored : v.desk.ledger.Stores d
  only : ∀ e ∈ v.items, e.txHash = d.txHash → e = d
  given : d ∈ v.items ∨ (∃ fault, v.next = .refused fault) ∨
    ∃ text c, v.next = .page text ∧ Cursor.ofKey? text = some c ∧
      c.admits (Ledger.Row.ofDelegation d) = true

variable {d : Delegation}

/-- A visit that begins owes all that is stored. -/
theorem owes_start {desk : Desk} (hd : desk.ledger.Stores d) : Owes d { desk := desk } where
  stored := hd
  only := by simp [items]
  given := Or.inr (Or.inr ⟨"", .start, rfl, by simp [Cursor.ofKey?], Cursor.admits_start _⟩)

/-- What a visit that is done owed was given exactly once. -/
theorem Owes.filter_items (h : Owes d v) (hv : Orderly limit v) (hdone : v.next = .done) :
    v.items.filter (fun e => e.txHash = d.txHash) = [d] := by
  have hgiven : d ∈ v.items := by
    rcases h.given with hd | ⟨_, hrefused⟩ | ⟨_, _, hpage, _⟩
    · exact hd
    · exact nomatch hdone.symm.trans hrefused
    · exact nomatch hdone.symm.trans hpage
  refine (hv.ordered.filter _).eq_of_mem_iff (List.pairwise_singleton _ d) fun e => ?_
  rw [List.mem_filter, List.mem_singleton, decide_eq_true_eq]
  constructor
  · rintro ⟨he, hhash⟩
    exact h.only e he hhash
  · rintro rfl
    exact ⟨hgiven, rfl⟩

/-- After a write a visit owes what is still stored. -/
theorem Owes.written (h : Owes d v) {a : Ledger.Access}
    (hstored : (v.desk.ledger.after a).Stores d) : Owes d (v.written a) where
  stored := hstored
  only := h.only
  given := h.given

/-! ## Visits that are not refused -/

/-- A visit that was not refused, over a ledger of delegations that pages can show. -/
structure Welcome (v : Visit) : Prop where
  shows : ∀ d, v.desk.ledger.Stores d → CanShow d
  notRefused : ∀ fault, v.next ≠ .refused fault

/-! ## What events do -/

section Steps

variable (hlow : 1 ≤ limit) (hhigh : limit ≤ 2 ^ 63 - 2)
  (hkey : PublicKey.normalize staker = .ok key)

include hlow hhigh hkey

/-- A request of an orderly visit that goes on is answered with a listing all of which
comes after what was given. -/
theorem Orderly.turn (hv : Orderly limit v) (hnext : v.next = .page text) (clock : Int)
    (id : String) :
    ∃ ds c, v.desk.ledger.Holds ds ∧ Cursor.ofKey? text = some c ∧ c.Whole ∧
      (v.items ++ Ledger.behind ds key c).Pairwise Delegation.Precedes ∧
      Turn (Ledger.behind ds key c) v (v.step staker (.request clock id)) := by
  obtain ⟨hsize, hopen, ⟨ds, hds⟩, hordered, hcursor⟩ := hv
  obtain ⟨c, hc, hwhole, hafter⟩ := hcursor text hnext
  subst hsize
  refine ⟨ds, c, hds, hc, hwhole, ?_, turn_request hds hopen hlow hhigh hkey hnext hc clock id⟩
  rw [List.pairwise_append]
  refine ⟨hordered, Delegation.pairwise_listed hds.distinct _, fun a ha b hb => ?_⟩
  exact hafter a ha b (Ledger.mem_behind.mp hb).2.2

/-- A request keeps a visit orderly. -/
theorem Orderly.request (hv : Orderly limit v) (clock : Int) (id : String) :
    Orderly limit (v.step staker (.request clock id)) := by
  by_cases hpage : ∃ text, v.next = .page text
  · obtain ⟨text, hnext⟩ := hpage
    obtain ⟨ds, c, hds, -, -, hbefore, hturn⟩ := hv.turn hlow hhigh hkey hnext clock id
    obtain ⟨hledger, hsize⟩ := step_request_desk v staker clock id
    generalize v.step staker (.request clock id) = w at hturn hledger hsize
    exact ⟨hsize.trans hv.pageSize, hledger ▸ hv.isOpen, ⟨ds, hledger ▸ hds⟩,
      hturn.ordered hbefore, fun _ => hturn.cursor hbefore⟩
  · rw [step_request_of_ne (fun text hnext => hpage ⟨text, hnext⟩)]
    exact hv

/-- Every event keeps a visit orderly. -/
theorem Orderly.step (hv : Orderly limit v) (e : Event) : Orderly limit (v.step staker e) := by
  obtain ⟨ds, hds⟩ := hv.holds
  cases e with
  | request clock id => exact hv.request hlow hhigh hkey clock id
  | save d =>
      obtain ⟨hopen, hnext⟩ := hds.after_save hv.isOpen d
      exact hv.written hopen hnext
  | map owner address =>
      obtain ⟨hopen, hnext⟩ := hds.after_map hv.isOpen owner address
      exact hv.written hopen hnext

/-- After a request a visit owes what it owed, or has given it. -/
theorem Owes.request (h : Owes d v) (hv : Orderly limit v) (hstaker : d.staker = key)
    (clock : Int) (id : String) : Owes d (v.step staker (.request clock id)) := by
  by_cases hpage : ∃ text, v.next = .page text
  · obtain ⟨text, hnext⟩ := hpage
    obtain ⟨ds, c, hds, hc, hwhole, -, hturn⟩ := hv.turn hlow hhigh hkey hnext clock id
    obtain ⟨hledger, -⟩ := step_request_desk v staker clock id
    generalize v.step staker (.request clock id) = w at hturn hledger
    have hd : d ∈ ds := hds.stores_iff.mp h.stored
    refine ⟨hledger ▸ h.stored, ?_, ?_⟩
    · intro e he hhash
      rcases hturn.mem_items he with hold | hnew
      · exact h.only e hold hhash
      · -- With different hashes, nothing else in the listing has the hash of the delegation.
        exact List.inj_on_of_nodup_map hds.distinct (Ledger.mem_behind.mp hnew).1 hd hhash
    · rcases h.given with hgiven | ⟨_, hrefused⟩ | ⟨other, c', hother, hc', hadmits⟩
      · exact Or.inl (hturn.mem_of_mem hgiven)
      · exact nomatch hnext.symm.trans hrefused
      · obtain rfl := Next.page.inj (hnext.symm.trans hother)
        obtain rfl := Option.some.inj (hc.symm.trans hc')
        exact hturn.given hds.distinct hwhole (Ledger.mem_behind.mpr ⟨hd, hstaker, hadmits⟩)
  · rw [step_request_of_ne (fun text hnext => hpage ⟨text, hnext⟩)]
    exact h

/-- An event that does not replace a delegation leaves it owed or given. -/
theorem Owes.step (h : Owes d v) (hv : Orderly limit v) (hstaker : d.staker = key) {e : Event}
    (he : ¬Event.Replaces d e) : Owes d (v.step staker e) := by
  obtain ⟨ds, hds⟩ := hv.holds
  have hd : d ∈ ds := hds.stores_iff.mp h.stored
  cases e with
  | request clock id => exact h.request hlow hhigh hkey hv hstaker clock id
  | save saved =>
      obtain ⟨-, hnext⟩ := hds.after_save hv.isOpen saved
      refine h.written (hnext.stores_iff.mpr ?_)
      cases hfits : saved.fits with
      | false => simpa using hd
      | true =>
          rw [if_pos rfl, Delegation.mem_replace]
          exact Or.inr ⟨hd, fun hhash => he ⟨hfits, hhash.symm⟩⟩
  | map owner address =>
      obtain ⟨-, hnext⟩ := hds.after_map hv.isOpen owner address
      exact h.written (hnext.stores_iff.mpr hd)

/-- Unless a delegation is saved that no page can show, a visit is not refused. -/
theorem Welcome.step (h : Welcome v) (hv : Orderly limit v) {e : Event}
    (he : ∀ d, e = .save d → CanShow d) : Welcome (v.step staker e) := by
  cases e with
  | request clock id =>
      obtain ⟨hledger, -⟩ := step_request_desk v staker clock id
      refine ⟨hledger ▸ h.shows, fun fault hfault => ?_⟩
      by_cases hpage : ∃ text, v.next = .page text
      · obtain ⟨text, hnext⟩ := hpage
        obtain ⟨ds, c, hds, -, -, -, hturn⟩ := hv.turn hlow hhigh hkey hnext clock id
        cases hturn with
        | last _ hdone => exact nomatch hdone.symm.trans hfault
        | more _ _ _ hmore => exact nomatch hmore.symm.trans hfault
        | @refused d _ hd hshow _ _ =>
            have hstored := hds.stores_iff.mpr (Ledger.mem_behind.mp hd).1
            exact absurd (h.shows d hstored) hshow
      · rw [step_request_of_ne (fun text hnext => hpage ⟨text, hnext⟩)] at hfault
        exact h.notRefused fault hfault
  | save d =>
      obtain ⟨ds, hds⟩ := hv.holds
      obtain ⟨-, hnext⟩ := hds.after_save hv.isOpen d
      refine ⟨fun e hstored => ?_, h.notRefused⟩
      have hmem := hnext.stores_iff.mp hstored
      split at hmem
      · rcases Delegation.mem_replace.mp hmem with rfl | ⟨hold, -⟩
        · exact he e rfl
        · exact h.shows e (hds.stores_iff.mpr hold)
      · exact h.shows e (hds.stores_iff.mpr hmem)
  | map owner address =>
      obtain ⟨ds, hds⟩ := hv.holds
      obtain ⟨-, hnext⟩ := hds.after_map hv.isOpen owner address
      refine ⟨fun e hstored => ?_, h.notRefused⟩
      exact h.shows e (hds.stores_iff.mpr (hnext.stores_iff.mp hstored))

/-! ## Whole visits -/

variable {events : List Event}

/-- Events keep a visit orderly. -/
theorem Orderly.run (hv : Orderly limit v) (events : List Event) :
    Orderly limit (v.run staker events) := by
  induction events generalizing v with
  | nil => exact hv
  | cons e rest ih => exact ih (hv.step hlow hhigh hkey e)

/-- Events that do not replace a delegation leave it owed or given. -/
theorem Owes.run (h : Owes d v) (hv : Orderly limit v) (hstaker : d.staker = key)
    (hevents : ∀ e ∈ events, ¬Event.Replaces d e) :
    Owes d (v.run staker events) := by
  induction events generalizing v with
  | nil => exact h
  | cons e rest ih =>
      have he := hevents e List.mem_cons_self
      refine ih (h.step hlow hhigh hkey hv hstaker he) (hv.step hlow hhigh hkey e) ?_
      exact fun later hlater => hevents later (List.mem_cons_of_mem e hlater)

/-- Unless delegations are saved that no page can show, events do not make a visit refused. -/
theorem Welcome.run (h : Welcome v) (hv : Orderly limit v)
    (hevents : ∀ d, Event.save d ∈ events → CanShow d) :
    Welcome (v.run staker events) := by
  induction events generalizing v with
  | nil => exact h
  | cons e rest ih =>
      have he : ∀ d, e = .save d → CanShow d := fun d hd =>
        hevents d (hd ▸ List.mem_cons_self)
      refine ih (h.step hlow hhigh hkey hv he) (hv.step hlow hhigh hkey e) ?_
      exact fun d hd => hevents d (List.mem_cons_of_mem e hd)

end Steps

/-- A visit that is done is given nothing more. -/
theorem pages_run_of_done (hdone : v.next = .done) (staker : String) (events : List Event) :
    (v.run staker events).pages = v.pages := by
  induction events generalizing v with
  | nil => rfl
  | cons e rest ih =>
      cases e with
      | request clock id =>
          have hstay : v.step staker (.request clock id) = v :=
            step_request_of_ne (by simp [hdone]) clock id
          change ((v.step staker (.request clock id)).run staker rest).pages = _
          rw [hstay, ih hdone]
      | save d => exact ih (v := v.written (.save d)) hdone
      | map owner address => exact ih (v := v.written (.map owner address)) hdone

/-- A visit that does not go on stays as it is while nobody writes. -/
theorem run_requests_of_ne (hnext : ∀ text, v.next ≠ .page text) (staker : String) (clock : Int)
    (id : String) (n : Nat) : v.run staker (List.replicate n (.request clock id)) = v := by
  induction n with
  | zero => rfl
  | succ n ih =>
      change (v.step staker (.request clock id)).run staker (List.replicate n _) = v
      rw [step_request_of_ne hnext, ih]

/-- While nobody writes, a visit is given the pages of a walk. -/
theorem pages_run_requests (hnext : v.next = .page text) (staker : String) (clock : Int)
    (id : String) (n : Nat) :
    (v.run staker (List.replicate n (.request clock id))).pages =
      v.pages ++ (v.desk.walk clock id staker n text).1.pages := by
  induction n generalizing v text with
  | zero => simp [run, walk]
  | succ n ih =>
      change ((v.step staker (.request clock id)).run staker (List.replicate n _)).pages = _
      cases hresult : (v.desk.ask clock id (.listDelegations staker text)).1.result with
      | error fault =>
          have hstop : (v.step staker (.request clock id)).next = .refused fault := by
            simp [step, hnext, hresult, answered]
          rw [run_requests_of_ne (by simp [hstop])]
          simp [step, hnext, hresult, answered, walk]
      | ok answer =>
          cases answer with
          | page page =>
              cases hmore : page.hasMore with
              | true =>
                  have hgoes : (v.step staker (.request clock id)).next = .page page.nextKey := by
                    simp [step, hnext, hresult, answered, hmore]
                  rw [ih hgoes, (walk_of_more n hresult hmore).1]
                  simp [step, hnext, hresult, answered]
              | false =>
                  have hstop : (v.step staker (.request clock id)).next = .done := by
                    simp [step, hnext, hresult, answered, hmore]
                  rw [run_requests_of_ne (by simp [hstop]), (walk_of_last n hresult hmore).1]
                  simp [step, hnext, hresult, answered]
          | _ =>
              have hstop : (v.step staker (.request clock id)).next = .done := by
                simp [step, hnext, hresult, answered]
              rw [run_requests_of_ne (by simp [hstop])]
              simp [step, hnext, hresult, answered, walk]

/-- What is promised of a visit to the listing of a staker that begins at a desk. -/
structure Delivers (staker key : String) (desk : Desk) (events : List Event) : Prop where
  /-- What is given goes strictly down, so no place in the listing is given twice. -/
  ordered : (run staker { desk := desk } events).items.Pairwise Delegation.Precedes
  /-- Once the visit is done, each delegation of the staker that was stored when it
  began and was not replaced before it was done was given exactly once, as it was. -/
  complete : ∀ during later, events = during ++ later →
    (run staker { desk := desk } during).next = .done →
    ∀ d, desk.ledger.Stores d → d.staker = key → (∀ e ∈ during, ¬Event.Replaces d e) →
    (run staker { desk := desk } events).items.filter (fun e => e.txHash = d.txHash) = [d]
  /-- Without negative heights and delegations that cannot be read the visit is never refused. -/
  notRefused : (∀ d, desk.ledger.Stores d → CanShow d) →
    (∀ d, Event.save d ∈ events → CanShow d) →
    ∀ fault, (run staker { desk := desk } events).next ≠ .refused fault

/-- A visit that begins at an open ledger, whatever its history is, delivers what is
promised, whatever is written in the course of it. -/
theorem run_delivers {desk : Desk} {history : List Ledger.Access}
    (hledger : desk.ledger = Ledger.empty.run history) (hopen : desk.ledger.isOpen = true)
    (hlow : 1 ≤ desk.pageSize) (hhigh : desk.pageSize ≤ 2 ^ 63 - 2)
    (hkey : PublicKey.normalize staker = .ok key) (events : List Event) :
    Delivers staker key desk events := by
  obtain ⟨-, ⟨ds, hds, -⟩, -⟩ := hledger ▸ Ledger.tracks_run history
  have hstart := orderly_start hds hopen
  refine ⟨(hstart.run hlow hhigh hkey events).ordered, ?_, ?_⟩
  · rintro during later rfl hdone d hd hstaker hkept
    have howes := (owes_start hd).run hlow hhigh hkey hstart hstaker hkept
    have hpages := pages_run_of_done hdone staker later
    have hitems : (run staker { desk := desk } (during ++ later)).items =
        (run staker { desk := desk } during).items := by
      rw [run, List.foldl_append]
      exact congrArg (fun pages => pages.flatMap Page.items) hpages
    rw [hitems]
    exact howes.filter_items (hstart.run hlow hhigh hkey during) hdone
  · intro hstored hsaves
    have hwelcome : Welcome { desk := desk } := ⟨hstored, fun _ => nofun⟩
    exact (hwelcome.run hlow hhigh hkey hstart hsaves).notRefused

/-- A visit whose cursor is at a delegation that is then replaced. -/
theorem run_delivers_replaced :
    ∃ desk : Desk, desk.pageSize = 1 ∧
      desk.ledger = Ledger.empty.run [.save (single "a" 7), .save (single "b" 7)] ∧
      Delivers (String.ofList (List.replicate 66 '1')) (String.ofList (List.replicate 66 '1')) desk
        [.request 0 "", .save (single "b" 9), .map "" "", .request 0 ""] := by
  have hkey : PublicKey.normalize (String.ofList (List.replicate 66 '1')) =
      .ok (String.ofList (List.replicate 66 '1')) := by decide
  refine ⟨⟨Ledger.empty.run [.save (single "a" 7), .save (single "b" 7)], .mainnet, 1, {}⟩, rfl,
    rfl, ?_⟩
  exact run_delivers rfl rfl (by decide) (by decide) hkey _

end Visit

end StakeLedger.Desk
