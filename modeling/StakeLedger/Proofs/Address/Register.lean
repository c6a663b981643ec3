import Mathlib.Algebra.Module.Pi
import Mathlib.Data.Fin.Tuple.Basic
import Mathlib.Data.List.Induction
import Mathlib.Tactic.FinCases
import StakeLedger.Proofs.Address.Checksum
import StakeLedger.Proofs.Address.Independence

/-!
# The register as a vector

Six symbols make a register.  Shifting a zero into it is a linear map over the field
of symbols, and any other word is added in the lowest place after that.  So the words of
a text leave a combination of columns in an empty register: the column of a word is
what a one leaves there when as many zeros follow it as words follow that word.

Main definitions:

- {lit}`Bech32.coordinates`: the symbols of a register, the lowest first.
- {lit}`Bech32.shift`: what a zero does to a register.
- {lit}`Bech32.column`: what a one leaves with so many zeros behind it.
- {lit}`Bech32.symbols`: the symbols of words, the last one first.

Main results:

- Theorem {lit}`Bech32.coordinates_step`: what a word does to a register.
- Theorem {lit}`Bech32.combine_columns_cons`: the column of a symbol in the last place, and
  the shift of what is before it.
- Theorem {lit}`Bech32.coordinates_foldl`: what words leave in a register.
- Theorem {lit}`Bech32.combine_columns_sub`: words that leave the same in a register.
-/

namespace StakeLedger.Bech32

/-! ## Coordinates -/

/-- The symbols of a register, the lowest first. -/
def coordinates (register : BitVec 30) : Fin 6 → Symbol :=
  fun j => Symbol.entry register.toNat j.val

/-- The symbols of a sum of registers. -/
theorem coordinates_xor (a b : BitVec 30) :
    coordinates (a ^^^ b) = coordinates a + coordinates b := by
  funext j
  apply Symbol.ext_val
  rw [Pi.add_apply, Symbol.val_add]
  simp only [coordinates, Symbol.entry, Word.val_ofNat, BitVec.toNat_xor,
    Nat.shiftRight_xor_distrib]
  exact Nat.xor_mod_two_pow (n := 5)

/-- What is added to a register for a one that is shifted out. -/
def taps : Fin 6 → Symbol :=
  coordinates (generator.getD 0 0)

/-- What a zero does to a register. -/
def shift : (Fin 6 → Symbol) →ₗ[Symbol] (Fin 6 → Symbol) where
  toFun v := Fin.cons 0 (Fin.init v) + v (Fin.last 5) • taps
  map_add' v w := by
    funext j
    cases j using Fin.cases with
    | zero => simp [add_mul]
    | succ i =>
        simp only [Fin.init, Pi.add_apply, Fin.cons_succ, Pi.smul_apply, smul_eq_mul, add_mul]
        exact add_add_add_comm _ _ _ _
  map_smul' c v := by
    funext j
    cases j using Fin.cases with
    | zero => simp [mul_assoc]
    | succ i => simp [Fin.init, mul_add, mul_assoc]

/-- A register after a zero, in the lowest place. -/
theorem shift_zero_apply (v : Fin 6 → Symbol) : shift v 0 = v (Fin.last 5) * taps 0 :=
  zero_add _

/-- A register after a zero, in the other places. -/
theorem shift_succ_apply (v : Fin 6 → Symbol) (i : Fin 5) :
    shift v i.succ = v i.castSucc + v (Fin.last 5) * taps i.succ :=
  rfl

/-- Only an empty register is left empty by a zero. -/
theorem eq_zero_of_shift {v : Fin 6 → Symbol} (h : shift v = 0) : v = 0 := by
  have htaps : taps 0 ≠ 0 := by
    decide +kernel
  have htop : v (Fin.last 5) = 0 := by
    have hlow := congrFun h 0
    rw [shift_zero_apply] at hlow
    exact (mul_eq_zero.mp hlow).resolve_right htaps
  funext j
  cases j using Fin.lastCases with
  | last => exact htop
  | cast i =>
      have hplace := congrFun h i.succ
      rw [shift_succ_apply, htop, zero_mul, add_zero] at hplace
      exact hplace

/-! ## Steps -/

/-- The symbols of a register move up by one place. -/
theorem coordinates_shiftLeft (register : BitVec 30) :
    coordinates (register <<< 5) = Fin.cons 0 (Fin.init (coordinates register)) := by
  have hlt := register.isLt
  have hshift : (register <<< 5).toNat = 32 * register.toNat % 2 ^ 30 := by
    rw [BitVec.toNat_shiftLeft, Nat.shiftLeft_eq, Nat.mul_comm]
  funext j
  apply Symbol.ext_val
  cases j using Fin.cases with
  | zero =>
      change (register <<< 5).toNat >>> 0 % 32 = 0
      rw [hshift, Nat.shiftRight_zero]
      omega
  | succ i =>
      change (register <<< 5).toNat >>> (5 * (i.val + 1)) % 32 =
        register.toNat >>> (5 * i.val) % 32
      rw [hshift, Nat.shiftRight_eq_div_pow, Nat.shiftRight_eq_div_pow]
      fin_cases i <;> norm_num <;> omega

/-- A word is in the lowest place. -/
theorem coordinates_widen : ∀ w : Word, coordinates (widen w) = Pi.single 0 ⟨w⟩ := by
  decide +kernel

private theorem coordinates_feedback_top : ∀ w : Word,
    coordinates (feedback (widen w <<< 25)) = Symbol.mk w • taps := by
  decide +kernel

/-- Feedback comes from the five top bits. -/
theorem feedback_congr {a b : BitVec 30}
    (h : ∀ i < 5, a.getLsbD (25 + i) = b.getLsbD (25 + i)) : feedback a = feedback b := by
  refine List.foldl_ext _ _ _ fun sum i hi => ?_
  rw [h i (List.mem_range.mp hi)]

/-- Feedback is a multiple of the taps by the highest symbol. -/
theorem coordinates_feedback (register : BitVec 30) :
    coordinates (feedback register) = coordinates register (Fin.last 5) • taps := by
  have hlt := register.isLt
  have htop : (widen (coordinates register (Fin.last 5)).word).toNat = register.toNat >>> 25 := by
    change register.toNat >>> 25 % 32 % 2 ^ 30 = _
    rw [Nat.shiftRight_eq_div_pow]
    omega
  have hsame : feedback register =
      feedback (widen (coordinates register (Fin.last 5)).word <<< 25) := by
    refine feedback_congr fun i hi => ?_
    rw [BitVec.getLsbD_shiftLeft, BitVec.getLsbD, BitVec.getLsbD, htop, Nat.testBit_shiftRight,
      Nat.add_sub_cancel_left, decide_eq_true (by omega : 25 + i < 30),
      decide_eq_false (by omega : ¬25 + i < 25), Bool.not_false, Bool.true_and, Bool.true_and]
  rw [hsame, coordinates_feedback_top]

/-- What a word does to a register. -/
theorem coordinates_step (register : BitVec 30) (w : Word) :
    coordinates (step register (widen w)) =
      shift (coordinates register) + Pi.single 0 ⟨w⟩ := by
  rw [step, coordinates_xor, coordinates_xor, coordinates_shiftLeft, coordinates_widen,
    coordinates_feedback]
  exact add_right_comm _ _ _

/-! ## Columns -/

/-- What a one leaves with so many zeros behind it. -/
def column (zeros : Nat) : Fin 6 → Symbol :=
  coordinates (remainder (List.replicate zeros 0))

/-- The column of the last place. -/
theorem column_zero : column 0 = Pi.single 0 1 :=
  coordinates_widen 1

/-- One more zero shifts a column. -/
theorem column_succ (zeros : Nat) : column (zeros + 1) = shift (column zeros) := by
  have hzero : widen 0 = 0 := rfl
  rw [column, column, remainder, remainder, List.replicate_succ', List.foldl_append,
    List.foldl_cons, List.foldl_nil, ← hzero, coordinates_step]
  exact (congrArg _ (Pi.single_zero 0)).trans (add_zero _)

/-- The columns of some places, the last place first. -/
def columns (places : Nat) : List (Fin 6 → Symbol) :=
  (List.range places).map column

/-- The columns of the places but the last are shifted columns. -/
theorem columns_succ (places : Nat) :
    columns (places + 1) = column 0 :: (columns places).map shift := by
  rw [columns, columns, List.range_succ_eq_map, List.map_cons, List.map_map, List.map_map]
  refine congrArg _ (List.map_congr_left fun i _ => ?_)
  exact column_succ i

/-- A symbol in the last place, and the shift of what is before it. -/
theorem combine_columns_cons (e : Symbol) (es : List Symbol) (places : Nat) :
    combine (e :: es) (columns (places + 1)) =
      shift (combine es (columns places)) + Pi.single 0 e := by
  rw [columns_succ, combine, map_combine, column_zero, add_comm, ← Pi.single_smul, smul_eq_mul,
    mul_one]

/-- The symbols of words, the last one first. -/
def symbols (ws : List Word) : List Symbol :=
  ws.reverse.map Symbol.mk

/-- There are as many symbols as words. -/
@[simp]
theorem length_symbols (ws : List Word) : (symbols ws).length = ws.length := by
  simp [symbols]

/-- Words add a combination of columns to the shifts of a register. -/
theorem coordinates_foldl (ws : List Word) (register : BitVec 30) :
    coordinates ((ws.map widen).foldl step register) =
      shift^[ws.length] (coordinates register) + combine (symbols ws) (columns ws.length) := by
  induction ws using List.reverseRecOn with
  | nil => exact (add_zero _).symm
  | append_singleton ws w ih =>
      have hsymbols : symbols (ws ++ [w]) = ⟨w⟩ :: symbols ws := by
        simp [symbols]
      rw [List.map_append, List.foldl_append, List.map_singleton, List.foldl_cons,
        List.foldl_nil, coordinates_step, ih, hsymbols, List.length_append, List.length_singleton,
        combine_columns_cons, Function.iterate_succ_apply', shift.map_add, add_assoc]

/-- Words that leave the same in a register have a difference of which the combination
of columns is zero. -/
theorem combine_columns_sub {ws vs : List Word} (hlength : ws.length = vs.length)
    {register : BitVec 30}
    (h : (ws.map widen).foldl step register = (vs.map widen).foldl step register) :
    combine ((symbols ws).zipWith (· - ·) (symbols vs)) (columns ws.length) = 0 := by
  have hsame := congrArg coordinates h
  rw [coordinates_foldl, coordinates_foldl, ← hlength] at hsame
  rw [combine_sub (by simp [hlength]), sub_eq_zero]
  exact add_left_cancel hsame

end StakeLedger.Bech32
