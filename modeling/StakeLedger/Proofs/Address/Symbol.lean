import Mathlib.Algebra.Field.Defs
import Mathlib.Algebra.Ring.Basic
import StakeLedger.Address.Word

/-!
# Words as elements of a field

The checksum multiplies words as polynomials over two elements, modulo
x⁵ + x³ + 1.  With exclusive or for its addition this makes a field of the
thirty-two words.  Two generates its units, so laws of multiplication are shown for
a factor of two and carry over to all factors.

Main definitions:

- {lit}`Bech32.Symbol`: a word as an element of the field.

Main results:

- Theorem {lit}`Bech32.Symbol.induction`: zero, one and doubling lead to all elements.
- The instance of a field on {lit}`Bech32.Symbol`.
-/

namespace StakeLedger.Bech32

/-- A word as an element of the field of thirty-two elements. -/
@[ext]
structure Symbol where
  word : Word
deriving DecidableEq

namespace Symbol

/-! ## Operations -/

/-- A polynomial times x; polynomials are given by their bits. -/
def double (n : Nat) : Nat :=
  (2 * n % 32) ^^^ (9 * (n / 16))

/-- The product of two polynomials. -/
def product (a b : Nat) : Nat :=
  a * (b % 2) ^^^ double (a * (b / 2 % 2) ^^^ double (a * (b / 4 % 2) ^^^
    double (a * (b / 8 % 2) ^^^ double (a * (b / 16)))))

/-- The table of products: five bits for each pair of words, in order. -/
def products : Nat :=
  (List.range 1024).foldr (fun i rest => product (i / 32) (i % 32) + 32 * rest) 0

/-- The table of inverses: five bits for each word, in order. -/
def inverses : Nat :=
  (List.range 32).foldr (fun a rest =>
    ((List.range 32).find? fun b => product a b == 1).getD 0 + 32 * rest) 0

/-- The element in a place of a table. -/
def entry (table place : Nat) : Symbol :=
  ⟨Word.ofNat (table >>> (5 * place))⟩

instance : Zero Symbol := ⟨⟨Word.ofNat 0⟩⟩

instance : One Symbol := ⟨⟨Word.ofNat 1⟩⟩

instance : Add Symbol := ⟨fun a b => ⟨a.word ^^^ b.word⟩⟩

instance : Neg Symbol := ⟨fun a => a⟩

instance : Sub Symbol := ⟨fun a b => a + b⟩

instance : Mul Symbol := ⟨fun a b => entry products (32 * a.word.val + b.word.val)⟩

instance : Inv Symbol := ⟨fun a => entry inverses a.word.val⟩

/-- The element x. -/
def two : Symbol := ⟨Word.ofNat 2⟩

/-! ## Addition -/

/-- The number of a sum. -/
theorem val_add (a b : Symbol) : (a + b).word.val = a.word.val ^^^ b.word.val := by
  have hlt : a.word.val ^^^ b.word.val < 2 ^ 5 := Nat.xor_lt_two_pow a.word.isLt b.word.isLt
  exact Nat.mod_eq_of_lt hlt

/-- Elements are told by their numbers. -/
theorem ext_val {a b : Symbol} (h : a.word.val = b.word.val) : a = b :=
  Symbol.ext (Fin.ext h)

/-- Sums may be bracketed in any way. -/
protected theorem add_assoc (a b c : Symbol) : a + b + c = a + (b + c) :=
  ext_val (by simp only [val_add, Nat.xor_assoc])

/-- The terms of a sum may be swapped. -/
protected theorem add_comm (a b : Symbol) : a + b = b + a :=
  ext_val (by simp only [val_add, Nat.xor_comm])

/-- Zero adds nothing. -/
protected theorem zero_add (a : Symbol) : 0 + a = a :=
  ext_val (by rw [val_add]; exact Nat.zero_xor _)

/-- An element takes itself away. -/
theorem add_self (a : Symbol) : a + a = 0 :=
  ext_val (by rw [val_add]; exact Nat.xor_self _)

/-! ## Multiplication -/

/-- Each word is zero or a power of two. -/
theorem exists_power : ∀ w : Word, w = 0 ∨ ∃ k : Fin 31, (· * two)^[k] 1 = Symbol.mk w := by
  decide +kernel

/-- Zero, one and doubling lead to all elements. -/
theorem induction {P : Symbol → Prop} (zero : P 0) (one : P 1)
    (next : ∀ a, P a → P (a * two)) (a : Symbol) : P a := by
  have hpower (k : Nat) : P ((· * two)^[k] 1) := by
    induction k with
    | zero => exact one
    | succ k ih =>
        rw [Function.iterate_succ_apply']
        exact next _ ih
  obtain ⟨w⟩ := a
  rcases exists_power w with rfl | ⟨k, hk⟩
  · exact zero
  · exact hk ▸ hpower k

private theorem mul_comm_table : ∀ v w : Word, Symbol.mk v * ⟨w⟩ = ⟨w⟩ * ⟨v⟩ := by
  decide +kernel

private theorem mul_two_table : ∀ v w : Word,
    Symbol.mk v * (⟨w⟩ * two) = ⟨v⟩ * ⟨w⟩ * two := by
  decide +kernel

private theorem add_two_table : ∀ v w : Word,
    (Symbol.mk v + ⟨w⟩) * two = ⟨v⟩ * two + ⟨w⟩ * two := by
  decide +kernel

private theorem unit_table : ∀ w : Word, Symbol.mk w * 0 = 0 ∧ Symbol.mk w * 1 = ⟨w⟩ ∧
    (w ≠ 0 → Symbol.mk w * (Symbol.mk w)⁻¹ = 1) := by
  decide +kernel

/-- Products may be bracketed in any way. -/
protected theorem mul_assoc (a b c : Symbol) : a * b * c = a * (b * c) := by
  induction c using induction with
  | zero => rw [(unit_table _).1, (unit_table _).1, (unit_table _).1]
  | one => rw [(unit_table _).2.1, (unit_table _).2.1]
  | next c ih => rw [mul_two_table, mul_two_table, mul_two_table, ih]

/-- Multiplication distributes over a sum on its left. -/
protected theorem add_mul (a b c : Symbol) : (a + b) * c = a * c + b * c := by
  induction c using induction with
  | zero =>
      rw [(unit_table _).1, (unit_table _).1, (unit_table _).1]
      rfl
  | one => rw [(unit_table _).2.1, (unit_table _).2.1, (unit_table _).2.1]
  | next c ih => rw [mul_two_table, mul_two_table, mul_two_table, ih, add_two_table]

instance : Field Symbol where
  add_assoc := Symbol.add_assoc
  zero_add := Symbol.zero_add
  add_zero a := (Symbol.add_comm a 0).trans (Symbol.zero_add a)
  add_comm := Symbol.add_comm
  neg_add_cancel := add_self
  sub := Sub.sub
  sub_eq_add_neg _ _ := rfl
  nsmul := nsmulRec
  zsmul := zsmulRec
  mul_assoc := Symbol.mul_assoc
  mul_comm a b := mul_comm_table a.word b.word
  mul_one a := (unit_table a.word).2.1
  one_mul a := (mul_comm_table (1 : Symbol).word a.word).trans (unit_table a.word).2.1
  mul_zero a := (unit_table a.word).1
  zero_mul a := (mul_comm_table (0 : Symbol).word a.word).trans (unit_table a.word).1
  right_distrib := Symbol.add_mul
  left_distrib a b c := by
    rw [show a * (b + c) = (b + c) * a from mul_comm_table _ _, Symbol.add_mul,
      show b * a = a * b from mul_comm_table _ _, show c * a = a * c from mul_comm_table _ _]
  exists_pair_ne := ⟨0, 1, by decide⟩
  mul_inv_cancel a ha := (unit_table a.word).2.2 fun hw => ha (Symbol.ext hw)
  inv_zero := by decide +kernel
  nnqsmul := _
  nnqsmul_def _ _ := rfl
  qsmul := _
  qsmul_def _ _ := rfl

end Symbol

end StakeLedger.Bech32
