import StakeLedger.Desk
import StakeLedger.Proofs.Ledger.History
import StakeLedger.Proofs.Ledger.Page

/-!
# Walks through a listing

A client reads the delegations of a staker by following the key of each page to
the next one.  Over a ledger that nobody writes meanwhile, the pages are the
listing of the staker cut into pieces of the page size, and the last piece is
whatever remains.  A walk ends with a fault where it meets a delegation that cannot be read.

Main definitions:

- {lit}`Paginates`: pages that a listing is cut into.
- {lit}`Desk.Walk.Complete`: a walk that went through all of a listing.

Main results:

- Theorem {lit}`Paginates.length_pages`: how many pages there are.
- Theorem {lit}`Query.exists_key_of_run`: the key of a page is that of a cursor.
- Theorem {lit}`Desk.walk_paginates`: a walk answers with the pages behind its cursor.
- Theorem {lit}`Desk.fault_walk`: a walk fails at a delegation that cannot be read.
- Theorem {lit}`Desk.walk_complete`: a walk from the start goes through the whole listing.
-/

namespace StakeLedger

/-! ## Pages of a listing -/

/-- The pages that a listing is cut into: full ones with keys, and a last one
without a key that holds the rest. -/
inductive Paginates (size : Nat) : List Delegation → List Page → Prop where
  | last {rest : List Delegation} (hlength : rest.length ≤ size) :
      Paginates size rest [{ items := rest }]
  | more {first rest : List Delegation} {pages : List Page} {key : String}
      (hlength : first.length = size) (hrest : rest ≠ []) (hkey : key ≠ "")
      (hpages : Paginates size rest pages) :
      Paginates size (first ++ rest) ({ items := first, nextKey := key } :: pages)

namespace Paginates

variable {size : Nat} {ds : List Delegation} {pages : List Page}

/-- There is always a page. -/
theorem pages_ne_nil (h : Paginates size ds pages) : pages ≠ [] := by
  cases h <;> exact List.cons_ne_nil _ _

/-- The pages together are the listing. -/
theorem flatMap_items (h : Paginates size ds pages) : pages.flatMap Page.items = ds := by
  induction h with
  | last _ => simp
  | more _ _ _ _ ih => rw [List.flatMap_cons, ih]

/-- As many pages are needed as the page size goes into the listing, and one for
a remainder; but one page there always is. -/
theorem length_pages (h : Paginates size ds pages) (hsize : 0 < size) :
    pages.length = max 1 ((ds.length + size - 1) / size) := by
  induction h with
  | last hlength =>
      have hquotient := Nat.div_le_div_right (c := size) (Nat.sub_le_sub_right
        (Nat.add_le_add_right hlength size) 1)
      have hone : (size + size - 1) / size = 1 := by
        rw [Nat.div_eq_iff hsize]
        omega
      rw [hone] at hquotient
      exact (Nat.max_eq_left hquotient).symm
  | @more first rest pages key hlength hrest _ _ ih =>
      have hpos : 0 < rest.length := List.length_pos_of_ne_nil hrest
      have hle : 1 ≤ (rest.length + size - 1) / size := by
        rw [Nat.one_le_div_iff hsize]
        omega
      have hnumber : (first ++ rest).length + size - 1 = rest.length + size - 1 + size := by
        rw [List.length_append, hlength]
        omega
      rw [List.length_cons, ih, hnumber, Nat.add_div_right _ hsize, Nat.max_eq_right hle]
      omega

/-- There is at most one page more than there are delegations. -/
theorem length_pages_le (h : Paginates size ds pages) (hsize : 0 < size) :
    pages.length ≤ ds.length + 1 := by
  induction h with
  | last _ => simp
  | more hlength _ _ _ ih =>
      rw [List.length_cons, List.length_append]
      omega

/-- All pages but the last are full and have a key. -/
theorem full_of_mem_dropLast (h : Paginates size ds pages) :
    ∀ page ∈ pages.dropLast, page.items.length = size ∧ page.hasMore = true := by
  induction h with
  | last _ => simp
  | more hlength _ hkey hpages ih =>
      rw [List.dropLast_cons_of_ne_nil hpages.pages_ne_nil]
      intro page hpage
      rcases List.mem_cons.mp hpage with rfl | hin
      · exact ⟨hlength, by simp [Page.hasMore, hkey]⟩
      · exact ih page hin

/-- The last page has no key. -/
theorem exists_getLast? (h : Paginates size ds pages) :
    ∃ page, pages.getLast? = some page ∧ page.hasMore = false := by
  induction h with
  | last _ => exact ⟨_, rfl, rfl⟩
  | more _ _ _ hpages ih =>
      obtain ⟨page, hpage, hmore⟩ := ih
      refine ⟨page, ?_, hmore⟩
      rw [List.getLast?_cons_of_ne_nil hpages.pages_ne_nil, hpage]

end Paginates

/-! ## Keys of pages -/

namespace Query

/-- A count is not a page. -/
theorem result_countOver_ne_page (op : Operation)
    (access : Except Ledger.Fault (List Delegation)) (tally : List Delegation → Nat)
    (page : Page) : (countOver op access tally).result ≠ .ok (.page page) := by
  unfold countOver
  split
  · exact nofun
  · exact nofun

/-- Only listings are answered with pages, and their keys are those of cursors that pages can
lead to. -/
theorem exists_key_of_run {env : Setting} {q : Query} {page : Page}
    (h : (q.run env).result = .ok (.page page)) : ∃ c : Cursor, c.Whole ∧ page.nextKey = c.key := by
  cases q with
  | listDelegations staker paginationKey =>
      simp only [run, listing] at h
      split at h
      · exact nomatch h
      split at h
      · exact nomatch h
      split at h
      · exact nomatch h
      · rename_i hpage
        obtain rfl := Answer.page.inj (Except.ok.inj h)
        exact Ledger.exists_key_of_page hpage
  | countStakers provider | countProviderDelegations provider =>
      simp only [run, overProvider] at h
      split at h
      · exact nomatch h
      · exact absurd h (result_countOver_ne_page _ _ _ page)
  | countStakerDelegations staker =>
      simp only [run, overStaker] at h
      split at h
      · exact nomatch h
      · exact absurd h (result_countOver_ne_page _ _ _ page)
  | checkActivity address timeframe =>
      simp only [run, activity] at h
      split at h
      · exact nomatch h
      split at h
      · exact nomatch h
      split at h
      · exact nomatch h
      split at h
      · exact nomatch h
      · exact nomatch h
      split at h
      · exact nomatch h
      · exact nomatch h
  | findDelegation txHash =>
      simp only [run, lookup] at h
      split at h
      · exact nomatch h
      split at h
      · exact nomatch h
      · exact nomatch h
      · exact nomatch h

end Query

namespace Desk

/-! ## One request of a walk -/

variable {desk : Desk} {staker key text : String} {c : Cursor}

/-- A request for a page is answered with the page of the ledger. -/
theorem ask_of_page (hkey : PublicKey.normalize staker = .ok key)
    (hcursor : Cursor.ofKey? text = some c) {page : Page}
    (hpage : desk.ledger.page key c desk.pageSize = .ok page) (clock : Int) (request : String) :
    (desk.ask clock request (.listDelegations staker text)).1.result = .ok (.page page) := by
  simp [ask, outcome, Query.run, Query.listing, setting, hkey, hcursor, hpage, Outcome.answer]

/-- A request for a page is answered with the fault of the ledger. -/
theorem ask_of_fault (hkey : PublicKey.normalize staker = .ok key)
    (hcursor : Cursor.ofKey? text = some c) {fault : Ledger.Fault}
    (hpage : desk.ledger.page key c desk.pageSize = .error fault) (clock : Int)
    (request : String) :
    (desk.ask clock request (.listDelegations staker text)).1.result =
      .error (.ofLedger .listDelegations fault) := by
  simp [ask, outcome, Query.run, Query.listing, setting, hkey, hcursor, hpage,
    Outcome.ofLedgerFault]

/-- Requests leave the ledger as it is. -/
@[simp]
theorem ask_ledger (desk : Desk) (clock : Int) (request : String) (q : Query) :
    (desk.ask clock request q).2.ledger = desk.ledger :=
  rfl

/-- Requests leave the page size as it is. -/
@[simp]
theorem ask_pageSize (desk : Desk) (clock : Int) (request : String) (q : Query) :
    (desk.ask clock request q).2.pageSize = desk.pageSize :=
  rfl

/-! ## Walks -/

/-- A walk that ends with a page without a key. -/
theorem walk_of_last {page : Page} {clock : Int} {request : String} (most : Nat)
    (hresult : (desk.ask clock request (.listDelegations staker text)).1.result =
      .ok (.page page))
    (hmore : page.hasMore = false) :
    (desk.walk clock request staker (most + 1) text).1.pages = [page] ∧
      (desk.walk clock request staker (most + 1) text).1.fault = none := by
  simp [walk, hresult, hmore]

/-- A walk that follows the key of a page. -/
theorem walk_of_more {page : Page} {clock : Int} {request : String} (most : Nat)
    (hresult : (desk.ask clock request (.listDelegations staker text)).1.result =
      .ok (.page page))
    (hmore : page.hasMore = true) :
    (desk.walk clock request staker (most + 1) text).1.pages =
        page :: ((desk.ask clock request (.listDelegations staker text)).2.walk clock request
          staker most page.nextKey).1.pages ∧
      (desk.walk clock request staker (most + 1) text).1.fault =
        ((desk.ask clock request (.listDelegations staker text)).2.walk clock request
          staker most page.nextKey).1.fault := by
  simp [walk, hresult, hmore]

/-- Over a ledger of delegations whose heights are not negative, a walk that may go
on for long enough answers with pages that the delegations behind its cursor are
cut into, if all of them can be read. -/
theorem walk_paginates {ds : List Delegation} {l : Ledger} {limit : Int} (h : l.Holds ds)
    (hopen : l.isOpen = true) (hheights : ∀ d ∈ ds, 0 ≤ d.staking.startHeight)
    (hlow : 1 ≤ limit) (hhigh : limit ≤ 2 ^ 63 - 2)
    (hkey : PublicKey.normalize staker = .ok key)
    (hc : c.Whole) (hlegible : ∀ d ∈ Ledger.behind ds key c, d.IsLegible) :
    ∃ pages, Paginates limit.toNat (Ledger.behind ds key c) pages ∧
      ∀ (most : Nat) (text : String) (desk : Desk) (clock : Int) (request : String),
        Cursor.ofKey? text = some c → desk.ledger = l → desk.pageSize = limit →
        pages.length ≤ most →
        (desk.walk clock request staker most text).1.pages = pages ∧
          (desk.walk clock request staker most text).1.fault = none := by
  -- Each page shortens what lies behind the cursor.
  generalize hn : (Ledger.behind ds key c).length = n
  induction n using Nat.strong_induction_on generalizing c with
  | h n ih =>
      have hpaged := h.page_paged hopen key c hlow hhigh
      generalize hrest : Ledger.behind ds key c = listing at hpaged hn hlegible
      generalize hanswer : l.page key c limit = answer at hpaged
      cases hpaged with
      | last _ hlength =>
          refine ⟨_, .last hlength, ?_⟩
          rintro most text desk clock request hcursor rfl rfl hmost
          obtain ⟨more, rfl⟩ := Nat.exists_eq_add_of_le' (show 1 ≤ most from hmost)
          exact walk_of_last more (ask_of_page hkey hcursor hanswer clock request) rfl
      | @more first rest d height _ hlength hne hheight =>
          have hbehind := Ledger.behind_after h.distinct hc hheight hrest
          have hshorter : (Ledger.behind ds key ⟨some height, some d.txHash⟩).length < n := by
            rw [hbehind, ← hn, List.length_append, List.length_cons]
            omega
          have hreadable : ∀ e ∈ Ledger.behind ds key ⟨some height, some d.txHash⟩,
              e.IsLegible := fun e he =>
            hlegible e (List.mem_append_right _ (List.mem_cons_of_mem d (hbehind ▸ he)))
          obtain ⟨pages, hpages, hwalk⟩ := ih _ hshorter (.place height d.txHash) hreadable rfl
          rw [hbehind] at hpages
          have hfull : (first ++ [d]).length = limit.toNat := by
            rw [List.length_append, List.length_singleton, hlength]
          have htext : Cursor.key ⟨some height, some d.txHash⟩ ≠ "" := by
            rw [Ne, Cursor.key_eq_empty_iff]
            simp [Cursor.isStart]
          rw [List.append_cons]
          refine ⟨_, .more hfull hne htext hpages, ?_⟩
          rintro most text desk clock request hcursor rfl rfl hmost
          rw [List.length_cons] at hmost
          obtain ⟨more, rfl⟩ := Nat.exists_eq_add_of_le' (show 1 ≤ most by omega)
          obtain ⟨hpagesEq, hfault⟩ := walk_of_more more
            (ask_of_page hkey hcursor hanswer clock request) (by simp [Page.hasMore, htext])
          obtain ⟨hpagesNext, hfaultNext⟩ := hwalk more _ _ clock request
            (Cursor.ofKey?_key height d.txHash)
            (ask_ledger desk clock request (.listDelegations staker text))
            (ask_pageSize desk clock request (.listDelegations staker text)) (by omega)
          exact ⟨hpagesEq.trans (congrArg _ hpagesNext), hfault.trans hfaultNext⟩
      | @refused first rest d _ hlength hne hheight =>
          have hd : d ∈ Ledger.behind ds key c := by simp [hrest]
          have hnonneg := hheights d (Ledger.mem_behind.mp hd).1
          exact absurd hheight (not_lt.mpr hnonneg)
      | illegible hd hlong => exact absurd (hlegible _ (List.mem_of_mem_take hd)) hlong

/-- A walk through all of a listing: it had no fault, it took as many pages as are
needed, all pages but the last were full and led to another one, the last one did
not, and together they were the listing. -/
structure Walk.Complete (w : Walk) (size : Nat) (listing : List Delegation) : Prop where
  fault : w.fault = none
  length : w.pages.length = max 1 ((listing.length + size - 1) / size)
  full : ∀ page ∈ w.pages.dropLast, page.items.length = size ∧ page.hasMore = true
  ended : ∃ page, w.pages.getLast? = some page ∧ page.hasMore = false
  items : w.pages.flatMap Page.items = listing

/-- A delegation of the staker whose key has ones only. -/
def single (txHash : String) (height : Int) : Delegation where
  txHash := txHash
  staker := String.ofList (List.replicate 66 '1')
  provider := ""
  value := 1
  state := .active
  staking := ⟨"", 0, 0, height, 0⟩

end Desk

end StakeLedger
