import Mathlib.Algebra.Module.LinearMap.End
import Mathlib.Data.List.GetD
import StakeLedger.Proofs.Address.Register

/-!
# The distance of checked words

Words that differ in one to four places leave different registers, if they are not
too many.  No four columns of so many places have a combination that is zero: one of the
four may be taken for the last place, whose column is a unit, and the other three are
then compared without their lowest symbols.  For each of them the others are freed of
its leading place, and no two of what is left are multiples of each other.  This last
comparison is run on all columns.

Main definitions:

- {lit}`Bech32.reduce`, {lit}`Bech32.normal`: a list freed of a leading place, and the multiple
  that stands for all multiples.
- {lit}`Bech32.separated`: the comparison of vectors by threes.
- {lit}`Bech32.distance`: in how many places that both have two lists differ.

Main results:

- Theorem {lit}`Bech32.independent_of_separated`: vectors that pass are independent by three.
- Theorem {lit}`Bech32.independent_columns`: the columns are independent by four.
- Theorem {lit}`Bech32.five_le_distance`: words that leave the same in a register.
-/

namespace StakeLedger.Bech32

/-! ## Lists of symbols as vectors -/

/-- A list of symbols as a vector, with zeros behind it. -/
def vector (v : List Symbol) : Nat → Symbol :=
  fun j => v.getD j 0

/-- The place of the first symbol that is not zero. -/
def pivot (v : List Symbol) : Nat :=
  v.findIdx (· ≠ 0)

/-- The first symbol that is not zero. -/
def lead (v : List Symbol) : Symbol :=
  v.getD (pivot v) 0

/-- The multiple of a list whose first symbol that is not zero is one. -/
def normal (v : List Symbol) : List Symbol :=
  v.map (· * (lead v)⁻¹)

/-- A list less the multiple of another one that has the same symbol in its leading place. -/
def reduce (u v : List Symbol) : List Symbol :=
  u.zipWith (fun x y => y - v.getD (pivot u) 0 * (lead u)⁻¹ * x) v

/-- A modulus that keeps the numbers apart that are compared for the columns. -/
def modulus : Nat := 11766

/-- A number by which lists of symbols are compared; lists with different numbers are
different. -/
def code (v : List Symbol) : Nat :=
  v.foldl (fun n e => 32 * n + e.word.val) 0 % modulus

/-- Whether no number is seen twice. -/
def fresh : Nat → List Nat → Bool
  | _, [] => true
  | seen, n :: rest => !seen.testBit n && fresh (seen ||| 1 <<< n) rest

/-- Whether the reductions of vectors by each one before them are not zero, and no
multiples of each other. -/
def separated : List (List Symbol) → Bool
  | [] => true
  | u :: rest =>
      -- Zero counts as seen, so no reduction passes that is zero.
      lead u != 0 && fresh 1 (rest.map fun v => code (normal (reduce u v))) && separated rest

/-- Numbers of which none is seen twice are different, and not seen before. -/
theorem fresh_sound {seen : Nat} {ns : List Nat} (h : fresh seen ns = true) :
    ns.Pairwise (· ≠ ·) ∧ ∀ n ∈ ns, seen.testBit n = false := by
  induction ns generalizing seen with
  | nil => exact ⟨List.Pairwise.nil, fun n hn => nomatch hn⟩
  | cons n rest ih =>
      rw [fresh, Bool.and_eq_true, Bool.not_eq_true'] at h
      rcases ih h.2 with ⟨hpair, hunseen⟩
      have hbit (m : Nat) (hm : m ∈ rest) : seen.testBit m = false ∧ n ≠ m := by
        have hboth := hunseen m hm
        rw [Nat.testBit_or, Bool.or_eq_false_iff, Nat.shiftLeft_eq, one_mul,
          Nat.testBit_two_pow] at hboth
        exact ⟨hboth.1, of_decide_eq_false hboth.2⟩
      refine ⟨List.Pairwise.cons (fun m hm => (hbit m hm).2) hpair, ?_⟩
      rw [List.forall_mem_cons]
      exact ⟨h.1, fun m hm => (hbit m hm).1⟩

/-- Multiples of lists of one length are told by their vectors. -/
theorem eq_map_of_vector {u v : List Symbol} (hlength : v.length = u.length) {c : Symbol}
    (h : vector v = c • vector u) : v = u.map (c * ·) := by
  apply List.ext_getElem (by rw [List.length_map, hlength])
  intro j hv hu
  rw [List.length_map] at hu
  have hplace := congrFun h j
  simp only [vector, Pi.smul_apply, smul_eq_mul] at hplace
  rw [List.getD_eq_getElem v 0 hv, List.getD_eq_getElem u 0 hu] at hplace
  rw [List.getElem_map, hplace]

/-- A list and its multiples have the same normal form. -/
theorem normal_map {c : Symbol} (hc : c ≠ 0) (u : List Symbol) :
    normal (u.map (c * ·)) = normal u := by
  have hpivot : pivot (u.map (c * ·)) = pivot u := by
    have hsame : ((fun x : Symbol => decide (x ≠ 0)) ∘ (c * ·)) = fun x => decide (x ≠ 0) := by
      funext x
      simp [hc]
    rw [pivot, List.findIdx_map, hsame]
    rfl
  have hlead : lead (u.map (c * ·)) = c * lead u := by
    rw [lead, lead, hpivot, List.getD_eq_getElem?_getD, List.getD_eq_getElem?_getD,
      List.getElem?_map]
    cases u[pivot u]? with
    | none => exact (mul_zero c).symm
    | some x => rfl
  rw [normal, normal, hlead, List.map_map]
  refine List.map_congr_left fun x _ => ?_
  rw [Function.comp_apply, mul_inv, mul_mul_mul_comm, mul_inv_cancel₀ hc, one_mul]

/-- A list of zeros has the number zero. -/
theorem code_normal_of_zero {v : List Symbol} (h : vector v = 0) : code (normal v) = 0 := by
  have hzero : v = List.replicate v.length 0 := by
    apply List.eq_replicate_of_mem
    intro x hx
    rcases List.getElem_of_mem hx with ⟨j, hj, rfl⟩
    have hplace := congrFun h j
    rwa [vector, List.getD_eq_getElem v 0 hj] at hplace
  have hfold (m : Nat) :
      (List.replicate m (0 : Symbol)).foldl (fun n e => 32 * n + e.word.val) 0 = 0 := by
    induction m with
    | zero => rfl
    | succ m ih => exact ih
  rw [hzero, normal, List.map_replicate, zero_mul, code, hfold, Nat.zero_mod]

/-- A symbol of a reduced list. -/
theorem getD_reduce {u v : List Symbol} (hlength : v.length = u.length) (j : Nat) :
    (reduce u v).getD j 0 =
      v.getD j 0 - v.getD (pivot u) 0 * (lead u)⁻¹ * u.getD j 0 := by
  rw [reduce]
  generalize v.getD (pivot u) 0 * (lead u)⁻¹ = c
  by_cases hj : j < u.length
  · rw [List.getD_eq_getElem u 0 hj, List.getD_eq_getElem v 0 (hlength ▸ hj),
      List.getD_eq_getElem _ 0 (by simp [hlength, hj]), List.getElem_zipWith]
  · rw [List.getD_eq_default u 0 (by omega), List.getD_eq_default v 0 (by omega),
      List.getD_eq_default _ 0 (by simp; omega), mul_zero, sub_zero]

/-- Reductions by a vector are its images under a linear map, that takes it to zero. -/
theorem exists_reduce {u : List Symbol} (hlead : lead u ≠ 0) :
    ∃ f : (Nat → Symbol) →ₗ[Symbol] (Nat → Symbol), f (vector u) = 0 ∧
      ∀ v, v.length = u.length → f (vector v) = vector (reduce u v) := by
  refine ⟨LinearMap.id - (LinearMap.proj (pivot u)).smulRight ((lead u)⁻¹ • vector u), ?_, ?_⟩
  · change vector u - lead u • (lead u)⁻¹ • vector u = 0
    rw [smul_smul, mul_inv_cancel₀ hlead, one_smul, sub_self]
  · intro v hlength
    funext j
    change vector v j - vector v (pivot u) * ((lead u)⁻¹ * vector u j) = vector (reduce u v) j
    rw [← mul_assoc]
    exact (getD_reduce hlength j).symm

/-- Lists of one length with different codes are not zero, and not multiples of each other. -/
theorem independent_of_fresh {vs : List (List Symbol)} {n : Nat}
    (hlength : ∀ v ∈ vs, v.length = n)
    (h : fresh 1 (vs.map fun v => code (normal v)) = true) : Independent 2 (vs.map vector) := by
  rcases fresh_sound h with ⟨hpair, hzero⟩
  rw [List.pairwise_map] at hpair
  have hne : ∀ v ∈ vs, vector v ≠ 0 := by
    intro v hv hvector
    have hcode := hzero _ (List.mem_map_of_mem hv)
    rw [code_normal_of_zero hvector] at hcode
    exact absurd hcode (by decide)
  apply Independent.two
  · rw [List.forall_mem_map]
    exact hne
  · rw [List.pairwise_map]
    refine hpair.imp_of_mem ?_
    intro u v hu hv hcode c hmultiple
    have hc : c ≠ 0 := by
      rintro rfl
      rw [zero_smul] at hmultiple
      exact hne v hv hmultiple
    apply hcode
    rw [eq_map_of_vector ((hlength v hv).trans (hlength u hu).symm) hmultiple, normal_map hc]

/-- Vectors that are separated are independent by three. -/
theorem independent_of_separated {vs : List (List Symbol)} {n : Nat}
    (hlength : ∀ v ∈ vs, v.length = n) (h : separated vs = true) :
    Independent 3 (vs.map vector) := by
  induction vs with
  | nil => exact Independent.nil _
  | cons u vs ih =>
      rw [separated, Bool.and_eq_true, Bool.and_eq_true, bne_iff_ne] at h
      rw [List.forall_mem_cons] at hlength
      rcases h with ⟨⟨hlead, hfresh⟩, hrest⟩
      rcases exists_reduce hlead with ⟨f, hf, himage⟩
      have hreduced : (vs.map vector).map f = (vs.map (reduce u)).map vector := by
        rw [List.map_map, List.map_map]
        exact List.map_congr_left fun v hv =>
          himage v ((hlength.2 v hv).trans hlength.1.symm)
      have hsize : ∀ w ∈ vs.map (reduce u), w.length = n := by
        rw [List.forall_mem_map]
        intro v hv
        rw [reduce, List.length_zipWith, hlength.1, hlength.2 v hv, Nat.min_self]
      refine (ih hlength.2 hrest).cons ?_ f hf ?_
      · intro hu
        exact hlead (congrFun hu (pivot u))
      · rw [hreduced]
        apply independent_of_fresh hsize
        rw [List.map_map]
        exact hfresh

/-! ## Columns -/

/-- The symbols of a register but for the lowest. -/
def entries (v : Fin 6 → Symbol) : List Symbol :=
  [v 1, v 2, v 3, v 4, v 5]

/-- The symbols of a register but for the lowest, as a vector. -/
def upper : (Fin 6 → Symbol) →ₗ[Symbol] (Nat → Symbol) where
  toFun v := vector (entries v)
  map_add' v w := by
    funext j
    rcases j with _ | _ | _ | _ | _ | j <;> simp [vector, entries]
  map_smul' c v := by
    funext j
    rcases j with _ | _ | _ | _ | _ | j <;> simp [vector, entries]

/-- The most words whose distances are known. -/
def reach : Nat := 89

set_option maxRecDepth 10000 in
private theorem separated_columns :
    separated ((List.range (reach - 1)).map fun i => entries (column (i + 1))) = true := by
  decide +kernel

/-- The columns but for the first are independent by three without their lowest symbols. -/
theorem independent_upper {places : Nat} (h : places < reach) :
    Independent 3 (((columns places).map shift).map upper) := by
  have hall := independent_of_separated (n := 5) (by simp [entries]) separated_columns
  have hsplit : List.range (reach - 1) =
      List.range places ++ (List.range (reach - 1 - places)).map (places + ·) := by
    rw [← List.range_add, Nat.add_sub_cancel' (Nat.le_sub_one_of_lt h)]
  rw [hsplit, List.map_append, List.map_append] at hall
  have hsame : ((List.range places).map fun i => entries (column (i + 1))).map vector =
      ((columns places).map shift).map upper := by
    rw [columns, List.map_map, List.map_map, List.map_map]
    refine List.map_congr_left fun i _ => ?_
    rw [Function.comp_apply, Function.comp_apply, Function.comp_apply, ← column_succ]
    rfl
  rw [hsame] at hall
  exact hall.of_append

/-- The columns are independent by four. -/
theorem independent_columns {places : Nat} (h : places ≤ reach) :
    Independent 4 (columns places) := by
  induction places with
  | zero => exact Independent.nil _
  | succ places ih =>
      have hunit : upper (column 0) = 0 := by
        rw [column_zero]
        funext j
        rcases j with _ | _ | _ | _ | _ | j <;> rfl
      rw [columns_succ]
      refine ((ih (Nat.le_of_succ_le h)).map shift fun v => eq_zero_of_shift).cons ?_ upper hunit
        (independent_upper h)
      intro hzero
      rw [column_zero, Pi.single_eq_zero_iff] at hzero
      exact one_ne_zero hzero

/-! ## Distances -/

/-- In how many places that both have two lists differ. -/
def distance {α : Type} [DecidableEq α] (xs ys : List α) : Nat :=
  (xs.zip ys).countP fun p => p.1 ≠ p.2

section Distance

variable {α β : Type} [DecidableEq α] [DecidableEq β]

/-- Lists that differ in their heads. -/
theorem distance_cons_of_ne {x y : α} (h : x ≠ y) (xs ys : List α) :
    distance (x :: xs) (y :: ys) = distance xs ys + 1 :=
  List.countP_cons_of_pos (by simpa using h)

/-- Lists with the same head. -/
@[simp]
theorem distance_cons_self (x : α) (xs ys : List α) :
    distance (x :: xs) (x :: ys) = distance xs ys :=
  List.countP_cons_of_neg (by simp)

/-- Lists with the same beginning. -/
@[simp]
theorem distance_append_self (start xs ys : List α) :
    distance (start ++ xs) (start ++ ys) = distance xs ys := by
  induction start with
  | nil => rfl
  | cons x start ih => rw [List.cons_append, List.cons_append, distance_cons_self, ih]

/-- Images under a map that tells elements apart differ in the same places. -/
theorem distance_map {f : α → β} (hf : Function.Injective f) (xs ys : List α) :
    distance (xs.map f) (ys.map f) = distance xs ys := by
  rw [distance, distance, List.zip_map, List.countP_map]
  refine List.countP_congr fun p _ => ?_
  rw [Function.comp_apply, decide_eq_true_iff, decide_eq_true_iff]
  exact hf.ne_iff

/-- Lists of one length that differ nowhere are the same. -/
theorem eq_of_distance {xs ys : List α} (hlength : xs.length = ys.length)
    (h : distance xs ys = 0) : xs = ys := by
  induction xs generalizing ys with
  | nil => exact (List.length_eq_zero_iff.mp hlength.symm).symm
  | cons x xs ih =>
      cases ys with
      | nil => exact nomatch hlength
      | cons y ys =>
          by_cases hxy : x = y
          · rw [hxy, distance_cons_self] at h
            rw [hxy, ih (Nat.succ.inj hlength) h]
          · rw [distance_cons_of_ne hxy] at h
            exact nomatch h

end Distance

/-- The weight of a difference is how many words differ. -/
theorem weight_sub {ws vs : List Word} (hlength : ws.length = vs.length) :
    weight ((symbols ws).zipWith (· - ·) (symbols vs)) = distance ws vs := by
  rw [weight, symbols, symbols, List.map_reverse, List.map_reverse,
    ← List.reverse_zipWith (by rw [List.length_map, List.length_map, hlength]),
    List.countP_reverse, List.zipWith_map, ← List.map_uncurry_zip_eq_zipWith, List.countP_map]
  refine List.countP_congr fun p _ => ?_
  rw [Function.comp_apply, decide_eq_true_iff, decide_eq_true_iff, Function.uncurry]
  rw [Ne, Ne, sub_eq_zero, Symbol.mk.injEq]

/-- Different words that leave the same in a register differ in five places or more, if
they are not too many. -/
theorem five_le_distance {ws vs : List Word} (hlength : ws.length = vs.length)
    (hreach : ws.length ≤ reach) (hne : ws ≠ vs) {register : BitVec 30}
    (h : (ws.map widen).foldl step register = (vs.map widen).foldl step register) :
    5 ≤ distance ws vs := by
  by_contra hfew
  have hsum := combine_columns_sub hlength h
  have hzero := independent_columns hreach _ (by simp [columns, hlength])
    ((weight_sub hlength).trans_le (Nat.le_of_lt_succ (not_le.mp hfew))) hsum
  apply hne
  apply eq_of_distance hlength
  rw [← weight_sub hlength]
  refine List.countP_eq_zero.mpr fun e he => ?_
  rw [hzero e he]
  simp

end StakeLedger.Bech32
