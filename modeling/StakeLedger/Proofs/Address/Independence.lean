import Mathlib.Algebra.Module.LinearMap.Defs
import Mathlib.LinearAlgebra.Quotient.Basic
import StakeLedger.Proofs.Address.Symbol

/-!
# Vectors of which few are independent

Some vectors are independent by so many if no combination of them with at most so many
coefficients that are not zero is zero.  This can be shown one vector at a time: when
the vector takes part in a combination, a linear map that takes it to zero leaves a
combination of the images of the others, with one coefficient less.

Main definitions:

- {lit}`Bech32.combine`: the combination of vectors with coefficients.
- {lit}`Bech32.weight`: how many coefficients are not zero.
- {lit}`Bech32.Independent`: no combination with few coefficients is zero.

Main results:

- Theorem {lit}`Bech32.Independent.cons`: one more vector.
- Theorem {lit}`Bech32.Independent.two`: vectors of which none is a multiple of another.
- Theorem {lit}`Bech32.Independent.map`: images under a map that takes only zero to zero.
-/

namespace StakeLedger.Bech32

variable {M N : Type} [AddCommGroup M] [Module Symbol M] [AddCommGroup N] [Module Symbol N]

/-- The combination of vectors with coefficients. -/
def combine : List Symbol → List M → M
  | e :: es, v :: vs => e • v + combine es vs
  | _, _ => 0

/-- How many coefficients are not zero. -/
def weight (es : List Symbol) : Nat :=
  es.countP (· ≠ 0)

/-- No combination with at most so many coefficients that are not zero is zero. -/
def Independent (k : Nat) (vs : List M) : Prop :=
  ∀ es, es.length = vs.length → weight es ≤ k → combine es vs = 0 → ∀ e ∈ es, e = 0

/-! ## Combinations -/

/-- A linear map takes combinations to combinations of images. -/
theorem map_combine (f : M →ₗ[Symbol] N) (es : List Symbol) (vs : List M) :
    f (combine es vs) = combine es (vs.map f) := by
  induction es generalizing vs with
  | nil => exact f.map_zero
  | cons e es ih =>
      cases vs with
      | nil => exact f.map_zero
      | cons v vs => rw [combine, f.map_add, f.map_smul, ih, List.map_cons, combine]

/-- The combination of the differences of coefficients. -/
theorem combine_sub {es fs : List Symbol} (h : es.length = fs.length) (vs : List M) :
    combine (es.zipWith (· - ·) fs) vs = combine es vs - combine fs vs := by
  induction es generalizing fs vs with
  | nil =>
      obtain rfl := List.length_eq_zero_iff.mp h.symm
      exact (sub_self (0 : M)).symm
  | cons e es ih =>
      cases fs with
      | nil => exact nomatch h
      | cons f fs =>
          cases vs with
          | nil => exact (sub_self (0 : M)).symm
          | cons v vs =>
              rw [List.zipWith_cons_cons, combine, combine, combine, ih (Nat.succ.inj h),
                sub_smul]
              exact (add_sub_add_comm _ _ _ _).symm

/-- Coefficients that are all zero have a combination that is zero. -/
theorem combine_of_zero {es : List Symbol} (h : ∀ e ∈ es, e = 0) (vs : List M) :
    combine es vs = 0 := by
  induction es generalizing vs with
  | nil => rfl
  | cons e es ih =>
      cases vs with
      | nil => rfl
      | cons v vs =>
          rw [combine, ih fun f hf => h f (List.mem_cons_of_mem e hf),
            h e List.mem_cons_self, zero_smul, add_zero]

/-- Zeros behind the coefficients leave a combination of the first vectors. -/
theorem combine_append_zeros {es : List Symbol} {vs : List M} (h : es.length = vs.length)
    (ws : List M) :
    combine (es ++ List.replicate ws.length 0) (vs ++ ws) = combine es vs := by
  induction es generalizing vs with
  | nil =>
      obtain rfl := List.length_eq_zero_iff.mp h.symm
      exact combine_of_zero (fun e he => List.eq_of_mem_replicate he) ws
  | cons e es ih =>
      cases vs with
      | nil => exact nomatch h
      | cons v vs => rw [List.cons_append, List.cons_append, combine, ih (Nat.succ.inj h), combine]

/-! ## Weights -/

/-- A coefficient that is not zero adds one to the weight. -/
theorem weight_cons {e : Symbol} (h : e ≠ 0) (es : List Symbol) :
    weight (e :: es) = weight es + 1 :=
  List.countP_cons_of_pos (by simpa using h)

/-- A zero adds nothing to the weight. -/
theorem weight_zero_cons (es : List Symbol) : weight (0 :: es) = weight es :=
  List.countP_cons_of_neg (by simp)

/-- Only zeros have no weight. -/
theorem eq_zero_of_weight {es : List Symbol} (h : weight es = 0) : ∀ e ∈ es, e = 0 := by
  intro e he
  simpa using List.countP_eq_zero.mp h e he

namespace Independent

/-- No vectors are independent. -/
theorem nil (k : Nat) : Independent k ([] : List M) := by
  intro es hlength _ _ e he
  rw [List.length_eq_zero_iff.mp hlength] at he
  exact nomatch he

/-- All vectors are independent by none. -/
theorem none (vs : List M) : Independent 0 vs :=
  fun _ _ hweight _ => eq_zero_of_weight (Nat.le_zero.mp hweight)

/-- One more vector, when the others are independent by one less up to its multiples. -/
theorem cons {k : Nat} {u : M} {vs : List M} (hrest : Independent (k + 1) vs) (hu : u ≠ 0)
    (f : M →ₗ[Symbol] N) (hf : f u = 0) (himage : Independent k (vs.map f)) :
    Independent (k + 1) (u :: vs) := by
  intro es hlength hweight hsum
  cases es with
  | nil => exact fun e he => nomatch he
  | cons e es =>
      have hothers := Nat.succ.inj hlength
      rw [combine] at hsum
      rw [List.forall_mem_cons]
      by_cases he : e = 0
      · subst he
        rw [weight_zero_cons] at hweight
        rw [zero_smul, zero_add] at hsum
        exact ⟨rfl, hrest es hothers hweight hsum⟩
      · -- The image of the combination leaves the first vector out.
        rw [weight_cons he] at hweight
        have hleft : combine es (vs.map f) = 0 := by
          rw [← map_combine, ← f.map_zero, ← hsum, f.map_add, f.map_smul, hf, smul_zero, zero_add]
        have hzero := himage es (by rw [List.length_map, hothers])
          (Nat.le_of_succ_le_succ hweight) hleft
        rw [combine_of_zero hzero, add_zero] at hsum
        exact absurd hsum (smul_ne_zero he hu)

/-- Vectors that are not zero are independent by one. -/
theorem one {vs : List M} (h : ∀ v ∈ vs, v ≠ 0) : Independent 1 vs := by
  induction vs with
  | nil => exact nil _
  | cons v vs ih =>
      rw [List.forall_mem_cons] at h
      exact cons (ih h.2) h.1 (0 : M →ₗ[Symbol] M) rfl (none _)

/-- Vectors of which none is a multiple of one before it are independent by two. -/
theorem two {vs : List M} (hzero : ∀ v ∈ vs, v ≠ 0)
    (hpair : vs.Pairwise fun u v => ∀ c : Symbol, v ≠ c • u) : Independent 2 vs := by
  induction vs with
  | nil => exact nil _
  | cons u vs ih =>
      rw [List.forall_mem_cons] at hzero
      rw [List.pairwise_cons] at hpair
      refine cons (ih hzero.2 hpair.2) hzero.1 (Submodule.span Symbol {u}).mkQ ?_ (one ?_)
      · rw [Submodule.mkQ_apply, Submodule.Quotient.mk_eq_zero]
        exact Submodule.mem_span_singleton_self u
      · intro w hw
        rw [List.mem_map] at hw
        rcases hw with ⟨v, hv, rfl⟩
        rw [Submodule.mkQ_apply, Ne, Submodule.Quotient.mk_eq_zero,
          Submodule.mem_span_singleton]
        rintro ⟨c, hc⟩
        exact hpair.1 v hv c hc.symm

/-- A map that takes only zero to zero keeps vectors independent. -/
theorem map {k : Nat} {vs : List M} (h : Independent k vs) (f : M →ₗ[Symbol] N)
    (hf : ∀ v, f v = 0 → v = 0) : Independent k (vs.map f) := by
  intro es hlength hweight hsum
  rw [List.length_map] at hlength
  rw [← map_combine] at hsum
  exact h es hlength hweight (hf _ hsum)

/-- The first ones of independent vectors are independent. -/
theorem of_append {k : Nat} {vs ws : List M} (h : Independent k (vs ++ ws)) :
    Independent k vs := by
  intro es hlength hweight hsum e he
  refine h (es ++ List.replicate ws.length 0) ?_ ?_ ?_ e (List.mem_append_left _ he)
  · rw [List.length_append, List.length_append, List.length_replicate, hlength]
  · have hzeros : (List.replicate ws.length (0 : Symbol)).countP (· ≠ 0) = 0 := by
      rw [List.countP_replicate, if_neg (by simp)]
    rw [weight, List.countP_append, hzeros]
    exact hweight
  · rw [combine_append_zeros hlength, hsum]

end Independent

end StakeLedger.Bech32
