import Mathlib.Algebra.Group.Int.Defs
import StakeLedger.Proofs.Cursor
import StakeLedger.Proofs.Ledger.Listing

/-!
# Pages of a ledger

A page holds the first delegations of a staker that lie behind a cursor.  If
there are more of them, the key of the page is that of the cursor at its last
delegation, behind which the others lie.  The key of a page is that of a cursor in any case.
There is no page if one of its delegations, or the one behind them, cannot be read.

Main definitions:

- {lit}`Cursor.Whole`: a cursor that a page can lead to.
- {lit}`Ledger.behind`: the listing of a staker behind a cursor.
- {lit}`Ledger.Paged`: what a page of so many delegations can be.

Main results:

- Theorem {lit}`Cursor.admits_after_iff`: what lies behind the cursor at a delegation.
- Theorem {lit}`Ledger.Holds.page_paged`: the page that a ledger answers with.
- Theorem {lit}`Ledger.behind_after`: behind the last delegation of a page lies the rest.
- Theorem {lit}`Ledger.exists_key_of_page`: the key of a page is that of a cursor.
-/

namespace StakeLedger

namespace Cursor

/-- A cursor that is the start or has both parts. -/
inductive Whole : Cursor → Prop where
  | start : Whole start
  | place (h : Height) (x : String) : Whole ⟨some h, some x⟩

/-- No delegation lies before the start. -/
theorem admits_start (row : Ledger.Row) : start.admits row = true :=
  rfl

/-- What lies behind a cursor with both parts. -/
theorem admits_iff (h : Height) (x : String) (d : Delegation) :
    admits ⟨some h, some x⟩ (Ledger.Row.ofDelegation d) = true ↔
      d.place < toLex ((h.val : Int), x) := by
  rw [Delegation.place, Prod.Lex.toLex_lt_toLex]
  change (decide (d.staking.startHeight < h.val) ||
    (d.staking.startHeight == h.val && decide (d.txHash < x))) = true ↔ _
  simp only [Bool.or_eq_true, Bool.and_eq_true, decide_eq_true_eq, beq_iff_eq]

/-- What lies behind the cursor at a delegation comes after it in listings. -/
theorem admits_after_iff {h : Height} {last : Delegation}
    (hh : last.staking.startHeight = h.val) (d : Delegation) :
    admits ⟨some h, some last.txHash⟩ (Ledger.Row.ofDelegation d) = true ↔ last.Precedes d := by
  rw [admits_iff, Delegation.precedes_iff, ← hh]
  rfl

/-- What comes after a delegation behind a cursor lies behind it too. -/
theorem admits_of_precedes {c : Cursor} (hc : c.Whole) {a b : Delegation}
    (ha : c.admits (Ledger.Row.ofDelegation a) = true) (hab : a.Precedes b) :
    c.admits (Ledger.Row.ofDelegation b) = true := by
  cases hc with
  | start => exact admits_start _
  | place h x =>
      rw [admits_iff] at ha ⊢
      exact ((Delegation.precedes_iff a b).mp hab).trans ha

/-- The cursor of a delegation is one that a page can lead to. -/
theorem whole_of_after {d : Delegation} {c : Cursor} (h : after d = .ok c) : c.Whole := by
  rcases eq_of_after h with ⟨height, rfl⟩
  exact .place height d.txHash

/-- The keys of cursors that pages can lead to read back. -/
theorem Whole.ofKey?_key {c : Cursor} (h : c.Whole) : ofKey? c.key = some c := by
  cases h with
  | start => rw [(key_eq_empty_iff _).mpr rfl, ofKey?_empty]
  | place h x => exact Cursor.ofKey?_key h x

end Cursor

namespace Ledger

/-! ## What a page can be -/

/-- The answers to a request for a page of so many of some delegations.  One more is read
than the page may hold. -/
inductive Paged (size : Nat) : List Delegation → Except Fault Page → Prop where
  /-- All of them fit on the page. -/
  | last {rest : List Delegation} (hlegible : ∀ e ∈ rest.take (size + 1), e.IsLegible)
      (hlength : rest.length ≤ size) : Paged size rest (.ok { items := rest })
  /-- The page is full, and its key is that of its last delegation. -/
  | more {first rest : List Delegation} {d : Delegation} {h : Height}
      (hlegible : ∀ e ∈ (first ++ d :: rest).take (size + 1), e.IsLegible)
      (hlength : first.length + 1 = size) (hrest : rest ≠ [])
      (hheight : d.staking.startHeight = h.val) :
      Paged size (first ++ d :: rest)
        (.ok { items := first ++ [d], nextKey := Cursor.key ⟨some h, some d.txHash⟩ })
  /-- The page is full, but its last delegation has no cursor. -/
  | refused {first rest : List Delegation} {d : Delegation}
      (hlegible : ∀ e ∈ (first ++ d :: rest).take (size + 1), e.IsLegible)
      (hlength : first.length + 1 = size) (hrest : rest ≠ [])
      (hheight : d.staking.startHeight < 0) :
      Paged size (first ++ d :: rest)
        (.error (.storage (.damaged Cursor.schemaName [⟨["start_height"], .tooSmall⟩])))
  /-- One of those that are read cannot be read. -/
  | illegible {rest : List Delegation} {d : Delegation} (hd : d ∈ rest.take (size + 1))
      (hlegible : ¬d.IsLegible) : Paged size rest (.error (.storage illegible))

/-- A column holds heights that are not negative. -/
theorem exists_height {n : Int} (hfits : fits n = true) (hn : 0 ≤ n) :
    ∃ h : Height, n = h.val := by
  simp only [fits, Bool.and_eq_true, decide_eq_true_eq] at hfits
  exact ⟨⟨n.toNat, by omega⟩, by simp [Int.toNat_of_nonneg hn]⟩

/-- A full page of delegations of which more follow. -/
theorem take_of_full {size : Nat} {first rest : List Delegation} {d : Delegation}
    (hlength : first.length + 1 = size) : (first ++ d :: rest).take size = first ++ [d] := by
  rw [← hlength, List.take_append, List.take_of_length_le (by omega)]
  simp

/-- More delegations follow than a page holds. -/
theorem lt_length_of_full {size : Nat} {first rest : List Delegation} {d : Delegation}
    (hlength : first.length + 1 = size) (hrest : rest ≠ []) :
    size < (first ++ d :: rest).length := by
  have := List.length_pos_of_ne_nil hrest
  rw [List.length_append, List.length_cons]
  omega

/-- A page is made of one delegation more than it may hold. -/
theorem paged_pageOf {limit : Int} (hlimit : 1 ≤ limit) {ds : List Delegation}
    (hfits : ∀ d ∈ ds, fits d.staking.startHeight = true)
    (hlegible : ∀ d ∈ ds.take (limit.toNat + 1), d.IsLegible) :
    Paged limit.toNat ds (pageOf limit (ds.take (limit.toNat + 1))) := by
  by_cases hfew : ds.length ≤ limit.toNat
  · have hall : ds.take (limit.toNat + 1) = ds := List.take_of_length_le (by omega)
    have hle : (ds.length : Int) ≤ limit := by omega
    rw [hall, pageOf, if_pos hle]
    exact .last hlegible hfew
  obtain ⟨first, d, rest, hlength, hrest, rfl⟩ : ∃ first d rest,
      first.length + 1 = limit.toNat ∧ rest ≠ [] ∧ ds = first ++ d :: rest := by
    refine ⟨ds.take (limit.toNat - 1), ds[limit.toNat - 1], ds.drop limit.toNat, ?_, ?_, ?_⟩
    · rw [List.length_take]
      omega
    · rw [Ne, List.drop_eq_nil_iff]
      omega
    · have hdrop := List.drop_eq_getElem_cons (l := ds) (i := limit.toNat - 1) (by omega)
      rw [Nat.sub_add_cancel (by omega)] at hdrop
      rw [← hdrop, List.take_append_drop]
  have hmore : ¬((((first ++ d :: rest).take (limit.toNat + 1)).length : Int) ≤ limit) := by
    have := @lt_length_of_full _ first rest d hlength hrest
    rw [List.length_take]
    omega
  have hitems : takeInt limit ((first ++ d :: rest).take (limit.toNat + 1)) = first ++ [d] := by
    rw [takeInt, if_pos (by omega), List.take_take, Nat.min_eq_left (by omega),
      take_of_full hlength]
  rw [pageOf, if_neg hmore]
  simp only [hitems, List.getLast?_append, List.getLast?_singleton, Option.some_or]
  have hd : fits d.staking.startHeight = true := hfits d (by simp)
  by_cases hneg : d.staking.startHeight < 0
  · rw [Cursor.after_of_neg hneg]
    exact .refused hlegible hlength hrest hneg
  · obtain ⟨h, hh⟩ := exists_height hd (by omega)
    rw [Cursor.after_eq hh]
    exact .more hlegible hlength hrest hh

/-! ## Pages of a staker -/

/-- The delegations of a staker that lie behind a cursor, in the order of
listings. -/
def behind (ds : List Delegation) (staker : String) (c : Cursor) : List Delegation :=
  Delegation.listed ds fun d => d.staker == staker && c.admits (Row.ofDelegation d)

/-- What lies behind a cursor. -/
theorem mem_behind {ds : List Delegation} {staker : String} {c : Cursor} {d : Delegation} :
    d ∈ behind ds staker c ↔
      d ∈ ds ∧ d.staker = staker ∧ c.admits (Row.ofDelegation d) = true := by
  simp [behind, Delegation.mem_listed]

/-- Behind the start lies the whole listing. -/
theorem behind_start (ds : List Delegation) (staker : String) :
    behind ds staker .start = Delegation.listed ds fun d => d.staker == staker := by
  simp [behind, Cursor.admits_start]

/-- The page that an open ledger answers with. -/
theorem Holds.page_paged {l : Ledger} {ds : List Delegation} (h : l.Holds ds)
    (hopen : l.isOpen = true) (staker : String) (c : Cursor) {limit : Int} (hlow : 1 ≤ limit)
    (hhigh : limit ≤ 2 ^ 63 - 2) :
    Paged limit.toNat (behind ds staker c) (l.page staker c limit) := by
  have hfits : fits (limit + 1) = true := by
    simp only [fits, Bool.and_eq_true, decide_eq_true_eq]
    omega
  have hlimited : limited (limit + 1) ((behind ds staker c).map Row.ofDelegation) =
      ((behind ds staker c).take (limit.toNat + 1)).map Row.ofDelegation := by
    have hnat : (limit + 1).toNat = limit.toNat + 1 := by omega
    rw [limited, if_neg (by omega), hnat, List.map_take]
  have hread : l.page staker c limit =
      (told ((behind ds staker c).take (limit.toNat + 1))).bind (pageOf limit) := by
    simp only [page, h.rows_eq hopen, hfits, if_true, newestFirst_filter]
    rw [show Delegation.listed ds (fun d => (Row.ofDelegation d).staker == staker &&
      c.admits (Row.ofDelegation d)) = behind ds staker c from rfl, hlimited, readAll_map]
    cases told ((behind ds staker c).take (limit.toNat + 1)) <;> rfl
  rw [hread]
  by_cases hlegible : ∀ d ∈ (behind ds staker c).take (limit.toNat + 1), d.IsLegible
  · rw [told_of_legible hlegible]
    exact paged_pageOf hlow (fun d hd => (h.inRange d (mem_behind.mp hd).1).1) hlegible
  · obtain ⟨d, hd, hlong⟩ : ∃ d ∈ (behind ds staker c).take (limit.toNat + 1), ¬d.IsLegible := by
      simpa using hlegible
    rw [told_of_not_legible hd hlong]
    exact .illegible hd hlong

/-- Behind the last delegation of a page lies the rest of the listing. -/
theorem behind_after {ds : List Delegation} (hdistinct : (ds.map Delegation.txHash).Nodup)
    {staker : String} {c : Cursor} (hc : c.Whole)
    {first rest : List Delegation} {d : Delegation} {h : Height}
    (hheight : d.staking.startHeight = h.val)
    (hbehind : behind ds staker c = first ++ d :: rest) :
    behind ds staker ⟨some h, some d.txHash⟩ = rest := by
  have hsorted : (behind ds staker c).Pairwise Delegation.Precedes :=
    Delegation.pairwise_listed hdistinct _
  have hd : c.admits (Row.ofDelegation d) = true := by
    have : d ∈ behind ds staker c := by simp [hbehind]
    exact (mem_behind.mp this).2.2
  rw [hbehind, List.pairwise_append, List.pairwise_cons] at hsorted
  obtain ⟨-, ⟨hafter, hrest⟩, hbefore⟩ := hsorted
  refine (Delegation.pairwise_listed hdistinct _).eq_of_mem_iff hrest fun e => ?_
  change e ∈ behind ds staker _ ↔ e ∈ rest
  have hmem : e ∈ ds ∧ e.staker = staker ∧ c.admits (Row.ofDelegation e) = true ↔
      e ∈ first ∨ e = d ∨ e ∈ rest := by
    rw [← mem_behind, hbehind, List.mem_append, List.mem_cons]
  rw [mem_behind, Cursor.admits_after_iff hheight]
  constructor
  · rintro ⟨he, hstaker, hde⟩
    rcases hmem.mp ⟨he, hstaker, Cursor.admits_of_precedes hc hd hde⟩ with hfirst | rfl | hin
    · exact absurd (antisymm hde (hbefore e hfirst d List.mem_cons_self)) fun heq => by
        subst heq
        exact irrefl _ hde
    · exact absurd hde (irrefl _)
    · exact hin
  · intro hin
    obtain ⟨he, hstaker, -⟩ := hmem.mpr (Or.inr (Or.inr hin))
    exact ⟨he, hstaker, hafter e hin⟩

/-! ## Keys of pages -/

/-- The key of a page is that of a cursor that pages can lead to. -/
theorem exists_key_of_pageOf {limit : Int} {read : List Delegation} {page : Page}
    (h : pageOf limit read = .ok page) : ∃ c : Cursor, c.Whole ∧ page.nextKey = c.key := by
  unfold pageOf at h
  split at h
  · obtain rfl := Except.ok.inj h
    exact ⟨.start, .start, rfl⟩
  dsimp only at h
  split at h
  · exact nomatch h
  split at h
  · exact nomatch h
  · rename_i cursor hafter
    obtain rfl := Except.ok.inj h
    exact ⟨cursor, Cursor.whole_of_after hafter, rfl⟩

/-- The key of a page of a ledger is that of a cursor that pages can lead to. -/
theorem exists_key_of_page {l : Ledger} {staker : String} {cursor : Cursor} {limit : Int}
    {found : Page} (h : l.page staker cursor limit = .ok found) :
    ∃ c : Cursor, c.Whole ∧ found.nextKey = c.key := by
  unfold page at h
  split at h
  · exact nomatch h
  split at h
  · dsimp only at h
    split at h
    · exact nomatch h
    · exact exists_key_of_pageOf h
  · exact nomatch h

end Ledger

end StakeLedger
