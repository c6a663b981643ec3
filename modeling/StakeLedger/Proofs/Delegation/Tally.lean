import Mathlib.Algebra.BigOperators.Group.Finset.Basic
import Mathlib.Data.Set.Card
import StakeLedger.Delegation.Tally

/-!
# Tallies as cardinalities

How many delegations are countable, and how many stakers they have, depends on the
countable ones alone, and not on the order in which they are read.  Counted one key at a
time, the countable delegations add up to all of them.  Of two lists read one after the
other the delegations add up as well, and the stakers do but for those that both lists have.

Main definitions:

- {lit}`Tally.look`: one step of a single pass that gathers stakers.
- {lit}`Tally.Has`: stakers of delegations that are not over.
- {lit}`Tally.Noted`: what holds of a pass behind any delegations.

Main results:

- Theorem {lit}`Tally.delegations_eq_countP`: how many delegations a tally counts.
- Theorem {lit}`Tally.stakers_eq_foldl`: stakers are gathered in a single pass.
- Theorems {lit}`Tally.Noted.look`, {lit}`Tally.noted`: a step, and so a pass, notes each staker
  once.
- Theorems {lit}`Tally.stakers_eq_card`, {lit}`Tally.stakers_eq_ncard`: how many stakers a
  tally counts.
- Theorem {lit}`Tally.stakers_le_delegations`, {lit}`Tally.stakers_eq_zero_iff`: there are
  at most as many stakers as delegations, and none only without delegations.
- Theorem {lit}`Tally.delegations_of_perm`, {lit}`Tally.stakers_of_perm`: the order does not
  matter.
- Theorem {lit}`Tally.counts_of_multiset`: what counts depend on, and how they add up.
- Theorem {lit}`Tally.hasActive_iff`: what a tally looks for in a window.
- Theorem {lit}`sum_countP_eq`: counts by key add up.
-/

namespace StakeLedger

/-- Counted one key at a time, the members of a list that pass a test are counted
once each. -/
theorem sum_countP_eq {α : Type} (key : α → String) (test : α → Bool) (xs : List α) :
    ∑ k ∈ (xs.map key).toFinset, xs.countP (fun x => key x == k && test x) = xs.countP test := by
  have hcount (k : String) : xs.countP (fun x => key x == k && test x) =
      Multiset.count k ↑((xs.filter test).map key) := by
    rw [Multiset.coe_count, List.count, List.countP_map, List.countP_filter]
    rfl
  have hkeys : ∀ k ∈ (↑((xs.filter test).map key) : Multiset String),
      k ∈ (xs.map key).toFinset := by
    intro k hk
    rw [Multiset.mem_coe, List.mem_map] at hk
    obtain ⟨x, hx, rfl⟩ := hk
    rw [List.mem_toFinset]
    exact List.mem_map_of_mem (List.mem_of_mem_filter hx)
  calc ∑ k ∈ (xs.map key).toFinset, xs.countP (fun x => key x == k && test x)
      = ∑ k ∈ (xs.map key).toFinset, Multiset.count k ↑((xs.filter test).map key) :=
        Finset.sum_congr rfl fun k _ => hcount k
    _ = Multiset.card (↑((xs.filter test).map key) : Multiset String) :=
        Multiset.sum_count_eq_card hkeys
    _ = xs.countP test := by
        rw [Multiset.coe_card, List.length_map, List.countP_eq_length_filter]

namespace Tally

/-- How many delegations are countable. -/
theorem delegations_eq_countP (ds : List Delegation) :
    delegations ds = ds.countP Delegation.isCountable := by
  rw [delegations, List.countP_eq_length_filter]

/-! ## Gathering stakers -/

/-- Whether a staker has a delegation that is not over. -/
def Has (ds : List Delegation) (key : String) : Prop :=
  ∃ d ∈ ds, d.state ≠ .unbonded ∧ d.staker = key

/-- One delegation more in a pass that gathers stakers: its staker is noted if it is countable,
and passed over if not. -/
def look (seen : List String) (d : Delegation) : List String :=
  if d.isCountable then note seen d.staker else seen

/-- Stakers are gathered in a single pass over the delegations. -/
theorem stakers_eq_foldl (ds : List Delegation) : stakers ds = (ds.foldl look []).length := by
  rw [stakers, List.foldl_map, List.foldl_filter]
  rfl

/-- What a pass has noted behind some delegations: each of their stakers, once. -/
structure Noted (ds : List Delegation) (seen : List String) : Prop where
  nodup : seen.Nodup
  mem_iff : ∀ key, key ∈ seen ↔ Has ds key

/-- A key is noted once. -/
theorem nodup_note {seen : List String} (h : seen.Nodup) (key : String) :
    (note seen key).Nodup := by
  unfold note
  split
  · exact h
  · next hnew => exact List.nodup_cons.mpr ⟨hnew, h⟩

/-- Noting a key adds it. -/
theorem mem_note_iff (seen : List String) (key other : String) :
    other ∈ note seen key ↔ other = key ∨ other ∈ seen := by
  unfold note
  split
  · next hseen =>
    rw [or_iff_right_of_imp]
    rintro rfl
    exact hseen
  · exact List.mem_cons

/-- A staker of two lists is one of either. -/
theorem has_append_iff (xs ys : List Delegation) (key : String) :
    Has (xs ++ ys) key ↔ Has xs key ∨ Has ys key := by
  simp [Has, or_and_right, exists_or]

/-- A single delegation that is not over has its staker, and one that is over has none. -/
theorem has_singleton_iff (d : Delegation) (key : String) :
    Has [d] key ↔ d.isCountable = true ∧ key = d.staker := by
  simp [Has, Delegation.isCountable, @eq_comm _ key]

/-- A step notes the staker of the delegation it looks at. -/
theorem Noted.look {ds : List Delegation} {seen : List String} (h : Noted ds seen)
    (d : Delegation) : Noted (ds ++ [d]) (look seen d) := by
  unfold Tally.look
  cases hcountable : d.isCountable with
  | false =>
      rw [if_neg Bool.false_ne_true]
      refine ⟨h.nodup, fun key => ?_⟩
      rw [has_append_iff, has_singleton_iff, hcountable, h.mem_iff]
      simp
  | true =>
      rw [if_pos rfl]
      refine ⟨nodup_note h.nodup d.staker, fun key => ?_⟩
      rw [has_append_iff, has_singleton_iff, hcountable, mem_note_iff, h.mem_iff]
      simp [or_comm]

/-- A pass notes the stakers of all delegations it looks at. -/
theorem Noted.foldl {ds : List Delegation} {seen : List String} (h : Noted ds seen)
    (es : List Delegation) : Noted (ds ++ es) (es.foldl Tally.look seen) := by
  induction es generalizing ds seen with
  | nil => simpa using h
  | cons e rest ih =>
      rw [List.foldl_cons, List.append_cons]
      exact ih (h.look e)

/-- A pass from the beginning notes all stakers. -/
theorem noted (ds : List Delegation) : Noted ds (ds.foldl look []) := by
  have hempty : Noted [] [] := ⟨List.nodup_nil, by simp [Has]⟩
  exact hempty.foldl ds

/-- The stakers of some delegations are those that a pass notes. -/
theorem setOf_has (ds : List Delegation) : {key | Has ds key} = ↑(ds.foldl look []).toFinset := by
  ext key
  rw [Set.mem_ofPred_eq, Finset.mem_coe, List.mem_toFinset, (noted ds).mem_iff]

/-- There are finitely many of them. -/
theorem finite_has (ds : List Delegation) : {key | Has ds key}.Finite := by
  rw [setOf_has]
  exact Finset.finite_toSet _

/-- How many stakers have a delegation that is not over. -/
theorem stakers_eq_ncard (ds : List Delegation) : stakers ds = {key | Has ds key}.ncard := by
  rw [stakers_eq_foldl, setOf_has, Set.ncard_coe_finset,
    List.toFinset_card_of_nodup (noted ds).nodup]

/-- How many stakers have a countable delegation. -/
theorem stakers_eq_card (ds : List Delegation) :
    stakers ds = ((ds.filter Delegation.isCountable).map Delegation.staker).toFinset.card := by
  rw [stakers_eq_ncard, ← Set.ncard_coe_finset]
  congr 1
  ext key
  simp [Has, Delegation.isCountable, and_assoc]

/-! ## What counts depend on -/

/-- Counts depend on the countable delegations alone, in any order. -/
theorem delegations_of_countable {ds es : List Delegation}
    (h : (ds.filter Delegation.isCountable).Perm (es.filter Delegation.isCountable)) :
    delegations ds = delegations es := by
  rw [delegations, delegations, h.length_eq]

/-- Counts of stakers depend on the countable delegations alone as well. -/
theorem stakers_of_countable {ds es : List Delegation}
    (h : (ds.filter Delegation.isCountable).Perm (es.filter Delegation.isCountable)) :
    stakers ds = stakers es := by
  rw [stakers_eq_card, stakers_eq_card, List.toFinset_eq_of_perm _ _ (h.map _)]

/-- Counts do not depend on the order. -/
theorem delegations_of_perm {ds es : List Delegation} (h : ds.Perm es) :
    delegations ds = delegations es :=
  delegations_of_countable (h.filter _)

/-- Counts of stakers do not depend on the order either. -/
theorem stakers_of_perm {ds es : List Delegation} (h : ds.Perm es) : stakers ds = stakers es :=
  stakers_of_countable (h.filter _)

/-- A tally looks for an active delegation that is in the window. -/
theorem hasActive_iff (ds : List Delegation) (w : Window) :
    hasActive ds w = true ↔ ∃ d ∈ ds, d.state = .active ∧ w.lowerBound ≤ d.createdAt := by
  simp [hasActive, Delegation.isActive, Window.contains]

/-! ## Two lists -/

/-- The stakers of two lists one after the other, and again those that both have, are as many
as those of one and of the other. -/
theorem stakers_append (xs ys : List Delegation) :
    stakers (xs ++ ys) + {key | Has xs key ∧ Has ys key}.ncard = stakers xs + stakers ys := by
  have hunion : {key | Has (xs ++ ys) key} = {key | Has xs key} ∪ {key | Has ys key} := by
    ext key
    exact has_append_iff xs ys key
  rw [stakers_eq_ncard, stakers_eq_ncard, stakers_eq_ncard, hunion]
  exact Set.ncard_union_add_ncard_inter _ _ (finite_has xs) (finite_has ys)

/-- Counts depend on nothing but the delegations that are not over, as a multiset: lists in which
these are the same in any order have the same counts.  Of two lists one after the other the
delegations add up, and so do the stakers, less those that have a delegation that is not over in
both. -/
theorem counts_of_multiset (xs ys : List Delegation) :
    ((xs.filter fun d => d.state ≠ .unbonded).Perm (ys.filter fun d => d.state ≠ .unbonded) →
        stakers xs = stakers ys ∧ delegations xs = delegations ys) ∧
      delegations (xs ++ ys) = delegations xs + delegations ys ∧
      (stakers (xs ++ ys) : ℤ) =
        stakers xs + stakers ys - {key | Has xs key ∧ Has ys key}.ncard := by
  refine ⟨?_, delegations_append xs ys, ?_⟩
  · intro hperm
    exact ⟨stakers_of_countable hperm, delegations_of_countable hperm⟩
  · have happend := stakers_append xs ys
    omega

/-- A delegation of a staker in a state. -/
def ofStaker (staker : String) (state : Delegation.State) : Delegation where
  txHash := ""
  staker := staker
  provider := ""
  value := 1
  state := state
  staking := ⟨"", 0, 0, 0, 0⟩

/-- A staker counts once for any delegations that are not over, wherever those stand that are. -/
theorem counts_of_multiset_mixed :
    stakers [ofStaker "a" .unbonded, ofStaker "a" .active, ofStaker "b" .withdrawn] =
        stakers [ofStaker "b" .withdrawn, ofStaker "c" .unbonded, ofStaker "a" .active] ∧
      delegations [ofStaker "a" .unbonded, ofStaker "a" .active, ofStaker "b" .withdrawn] =
        delegations [ofStaker "b" .withdrawn, ofStaker "c" .unbonded, ofStaker "a" .active] := by
  apply (counts_of_multiset _ _).1
  exact List.Perm.swap _ _ []

end Tally

end StakeLedger
