import Mathlib.Algebra.Group.Nat.Defs
import StakeLedger.Proofs.Address.Word
import StakeLedger.Address.Bech32

/-!
# The algebra of the checksum

The register is linear over exclusive or, so the last words of a text add to it what
they leave in an empty register.  Six words fill the register without feedback: each
register is left by six words, and by no others.

Main definitions:

- {lit}`Bech32.digits`: the six words that a register is made of.

Main results:

- Theorem {lit}`Bech32.step_xor`: the register is linear.
- Theorem {lit}`Bech32.digits_foldl`, {lit}`Bech32.foldl_digits`: six words and the register that
  they leave.
- Theorem {lit}`Bech32.remainder_eq_constant_iff`: the checksum completes a text, and no other
  six words do.
-/

namespace StakeLedger.Bech32

/-! ## Linearity -/

/-- The sum of the generators that a register selects among some, added to a sum. -/
private theorem foldl_feedback_xor (selected : List Nat) (a b s t : BitVec 30) :
    selected.foldl (fun sum i =>
        if (a ^^^ b).getLsbD (25 + i) then sum ^^^ generator.getD i 0 else sum) (s ^^^ t) =
      selected.foldl (fun sum i =>
        if a.getLsbD (25 + i) then sum ^^^ generator.getD i 0 else sum) s ^^^
      selected.foldl (fun sum i =>
        if b.getLsbD (25 + i) then sum ^^^ generator.getD i 0 else sum) t := by
  induction selected generalizing s t with
  | nil => rfl
  | cons i rest ih =>
      have hhead : (if (a ^^^ b).getLsbD (25 + i) then s ^^^ t ^^^ generator.getD i 0
          else s ^^^ t) =
          (if a.getLsbD (25 + i) then s ^^^ generator.getD i 0 else s) ^^^
          (if b.getLsbD (25 + i) then t ^^^ generator.getD i 0 else t) := by
        rw [BitVec.getLsbD_xor]
        cases a.getLsbD (25 + i) <;> cases b.getLsbD (25 + i)
        · rfl
        · exact BitVec.xor_assoc s t _
        · simp only [Bool.xor_false, if_true, Bool.false_eq_true, if_false]
          ac_rfl
        · have hcancel : generator.getD i 0 ^^^ generator.getD i 0 = 0 := BitVec.xor_self
          simp only [Bool.xor_self, Bool.false_eq_true, if_false, if_true]
          calc s ^^^ t = s ^^^ t ^^^ (generator.getD i 0 ^^^ generator.getD i 0) := by
                rw [hcancel]
                exact BitVec.xor_zero.symm
            _ = s ^^^ generator.getD i 0 ^^^ (t ^^^ generator.getD i 0) := by ac_rfl
      rw [List.foldl_cons, List.foldl_cons, List.foldl_cons, hhead]
      exact ih _ _

/-- Feedback is linear. -/
theorem feedback_xor (a b : BitVec 30) : feedback (a ^^^ b) = feedback a ^^^ feedback b :=
  foldl_feedback_xor (List.range 5) a b 0 0

/-- The register is linear. -/
theorem step_xor (a b x y : BitVec 30) : step (a ^^^ b) (x ^^^ y) = step a x ^^^ step b y := by
  rw [step, step, step, feedback_xor, BitVec.shiftLeft_xor_distrib]
  ac_rfl

/-- Words add to a register what they leave in another one. -/
theorem foldl_step_xor (words : List (BitVec 30)) (a b : BitVec 30) :
    words.foldl step (a ^^^ b) =
      (List.replicate words.length 0).foldl step a ^^^ words.foldl step b := by
  induction words generalizing a b with
  | nil => rfl
  | cons w rest ih =>
      have hw : step (a ^^^ b) w = step a 0 ^^^ step b w := by
        rw [← step_xor]
        exact congrArg (step (a ^^^ b)) BitVec.zero_xor.symm
      rw [List.foldl_cons, hw, ih, List.length_cons, List.replicate_succ, List.foldl_cons,
        List.foldl_cons]

/-! ## Six words -/

/-- A register whose top bits are clear feeds nothing back. -/
theorem feedback_of_lt {register : BitVec 30} (h : register.toNat < 2 ^ 25) :
    feedback register = 0 := by
  have hclear (i : Nat) : register.getLsbD (25 + i) = false := by
    rw [BitVec.getLsbD]
    refine Nat.testBit_lt_two_pow (Nat.lt_of_lt_of_le h ?_)
    exact Nat.pow_le_pow_right (by decide) (Nat.le_add_right 25 i)
  simp [feedback, List.range_succ, hclear]

/-- A word is put behind a register whose top bits are clear. -/
theorem toNat_step {register : BitVec 30} (h : register.toNat < 2 ^ 25) (w : Word) :
    (step register (widen w)).toNat = 32 * register.toNat + w.val := by
  have hw : w.val < 2 ^ 5 := w.isLt
  have hshift : (register <<< 5).toNat = 2 ^ 5 * register.toNat := by
    rw [BitVec.toNat_shiftLeft, Nat.shiftLeft_eq, Nat.mod_eq_of_lt (by omega), Nat.mul_comm]
  have hwiden : (widen w).toNat = w.val := by
    rw [widen, BitVec.toNat_ofNat, Nat.mod_eq_of_lt (by omega)]
  have hzero : (0 : BitVec 30).toNat = 0 := rfl
  rw [step, feedback_of_lt h, BitVec.toNat_xor, BitVec.toNat_xor, hshift, hwiden, hzero,
    Nat.xor_zero]
  change _ = 2 ^ 5 * register.toNat + w.val
  -- The word takes the five bits that the shift left clear.
  refine Nat.eq_of_testBit_eq fun i => ?_
  rw [Nat.testBit_xor, Nat.testBit_two_pow_mul_add _ hw, Nat.testBit_two_pow_mul]
  by_cases hi : i < 5
  · simp [hi, Nat.not_le.mpr hi]
  · have hhigh : w.val.testBit i = false :=
      Nat.testBit_lt_two_pow (Nat.lt_of_lt_of_le hw
        (Nat.pow_le_pow_right (by decide) (by omega)))
    simp [hi, hhigh, Nat.not_lt.mp hi]

/-- Up to six words are put behind one another. -/
theorem toNat_foldl_step (ws : List Word) {register : BitVec 30} {k : Nat}
    (hroom : ws.length + k ≤ 6) (h : register.toNat < 32 ^ k) :
    ((ws.map widen).foldl step register).toNat =
      ws.foldl (fun n w => 32 * n + w.val) register.toNat := by
  induction ws generalizing register k with
  | nil => rfl
  | cons w rest ih =>
      rw [List.length_cons] at hroom
      have hclear : register.toNat < 2 ^ 25 :=
        Nat.lt_of_lt_of_le h (Nat.pow_le_pow_right (by decide : 0 < 32) (by omega : k ≤ 5))
      have hnext : (step register (widen w)).toNat < 32 ^ (k + 1) := by
        rw [toNat_step hclear, Nat.pow_succ]
        have := w.isLt
        omega
      rw [List.map_cons, List.foldl_cons, List.foldl_cons, ih (by omega) hnext,
        toNat_step hclear]

/-- The number that up to six words leave in an empty register. -/
theorem toNat_foldl_zero {ws : List Word} (h : ws.length ≤ checksumLength) :
    ((ws.map widen).foldl step 0).toNat = ws.foldl (fun n w => 32 * n + w.val) 0 :=
  toNat_foldl_step (k := 0) ws h Nat.one_pos

/-- The six words that a register is made of. -/
def digits (register : BitVec 30) : List Word :=
  (List.range checksumLength).map fun i => Word.ofNat (register.toNat >>> (5 * (5 - i)))

/-- The words of a register, all together. -/
private theorem digits_eq (register : BitVec 30) :
    digits register = [Word.ofNat (register.toNat >>> 25),
      Word.ofNat (register.toNat >>> 20), Word.ofNat (register.toNat >>> 15),
      Word.ofNat (register.toNat >>> 10), Word.ofNat (register.toNat >>> 5),
      Word.ofNat (register.toNat >>> 0)] :=
  rfl

/-- A register is left by the words that it is made of. -/
theorem foldl_digits (register : BitVec 30) :
    ((digits register).map widen).foldl step 0 = register := by
  have hlt := register.isLt
  apply BitVec.eq_of_toNat_eq
  rw [toNat_foldl_zero (by simp [digits]), digits_eq]
  simp only [List.foldl_cons, List.foldl_nil, Word.val_ofNat, Nat.shiftRight_eq_div_pow]
  omega

/-- A register that six words leave is made of them. -/
theorem digits_foldl {ws : List Word} (h : ws.length = checksumLength) :
    digits ((ws.map widen).foldl step 0) = ws := by
  have hvalue := toNat_foldl_zero (Nat.le_of_eq h)
  obtain ⟨w₀, w₁, w₂, w₃, w₄, w₅, rfl⟩ : ∃ w₀ w₁ w₂ w₃ w₄ w₅, ws = [w₀, w₁, w₂, w₃, w₄, w₅] := by
    match ws, h with
    | [w₀, w₁, w₂, w₃, w₄, w₅], _ => exact ⟨w₀, w₁, w₂, w₃, w₄, w₅, rfl⟩
  rw [digits_eq, hvalue]
  simp only [List.foldl_cons, List.foldl_nil, List.cons.injEq, and_true,
    Nat.shiftRight_eq_div_pow]
  refine ⟨?_, ?_, ?_, ?_, ?_, ?_⟩
  all_goals
    apply Fin.ext
    rw [Word.val_ofNat]
    omega

/-! ## Completion -/

/-- The register after a text whose checksum is six words. -/
theorem remainder_append (text : List (BitVec 30)) {ws : List Word}
    (h : ws.length = checksumLength) :
    remainder (text ++ ws.map widen) =
      remainder (text ++ List.replicate checksumLength 0) ^^^ (ws.map widen).foldl step 0 := by
  have hsplit := foldl_step_xor (ws.map widen) (text.foldl step 1) 0
  rw [List.length_map, h] at hsplit
  rw [remainder, remainder, List.foldl_append, List.foldl_append, ← hsplit]
  exact congrArg (fun r => (ws.map widen).foldl step r) BitVec.xor_zero.symm

/-- The checksum completes a text of a variant, and no other six words do. -/
theorem remainder_eq_constant_iff (variant : Variant) (hrp : List Char)
    (words : List (BitVec 30)) {ws : List Word} (h : ws.length = checksumLength) :
    remainder (expand hrp ++ words ++ ws.map widen) = variant.constant ↔
      ws = checksum variant hrp words := by
  have hchecksum : checksum variant hrp words =
      digits (remainder (expand hrp ++ words ++ List.replicate checksumLength 0) ^^^
        variant.constant) := rfl
  rw [remainder_append _ h, hchecksum]
  generalize remainder (expand hrp ++ words ++ List.replicate checksumLength 0) = register
  constructor
  · intro hconstant
    have hsix : (ws.map widen).foldl step 0 = register ^^^ variant.constant := by
      rw [← hconstant, ← BitVec.xor_assoc, BitVec.xor_self, BitVec.zero_xor]
    rw [← hsix, digits_foldl h]
  · intro hws
    rw [hws, foldl_digits, ← BitVec.xor_assoc, BitVec.xor_self, BitVec.zero_xor]

end StakeLedger.Bech32
