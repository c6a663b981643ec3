import Mathlib.Data.List.TakeWhile
import Mathlib.Data.Nat.Digits.Defs
import StakeLedger.Json.Token
import StakeLedger.Json.Writer

/-!
# Written numbers read back

Whole numbers are written with the fewest decimal digits and a sign only below
zero; character codes are written with four hexadecimal digits.  Both spellings
have one reading.

Main results:

- Theorem {lit}`Numeral.value_toDigits`: decimal digits have the value they were written for.
- Theorem {lit}`Numeral.length_toDigits_le_iff`: how many of them there are.
- Theorem {lit}`Hex.valueIn_padded`: so have four hexadecimal digits.
- Theorem {lit}`Json.Token.number?_writeInt`: a written whole number reads back.
-/

namespace StakeLedger

/-! ## Decimal digits -/

namespace Numeral

/-- The digits here are those of the core library. -/
theorem isDigit_eq (c : Char) : isDigit c = c.isDigit := by
  simp only [isDigit, Char.isDigit, Char.le_def]

/-- Every character of a written number is a digit. -/
theorem isDigit_of_mem_toDigits {n : Nat} {c : Char} (hc : c ∈ Nat.toDigits 10 n) :
    isDigit c = true := by
  rw [isDigit_eq]
  exact Nat.isDigit_of_mem_toDigits (by omega) (by omega) hc

/-- Reading digits after some others is the fold of the core library. -/
theorem foldl_eq_ofDigitChars {digits : List Char} (hdigits : ∀ c ∈ digits, isDigit c = true)
    (n : Nat) :
    digits.foldl (fun n c =>
      let d := if isDigit c then c.toNat - 48 else c.toLower.toNat - 87
      10 * n + d) n = Nat.ofDigitChars 10 digits n := by
  induction digits generalizing n with
  | nil => rfl
  | cons c rest ih =>
      have hc : isDigit c = true := hdigits c List.mem_cons_self
      have hrest : ∀ d ∈ rest, isDigit d = true := fun d hd =>
        hdigits d (List.mem_cons_of_mem c hd)
      rw [List.foldl_cons, Nat.ofDigitChars_cons, ih hrest]
      simp [hc]

/-- Decimal digits have the value they were written for. -/
theorem value_toDigits (n : Nat) : value (Nat.toDigits 10 n) = n := by
  rw [value, valueIn, foldl_eq_ofDigitChars fun c hc => isDigit_of_mem_toDigits hc]
  exact Nat.ofDigitChars_ten_toDigits

/-- Digits stand for less than the power of ten with as many zeros. -/
theorem value_lt {digits : List Char} (hdigits : ∀ c ∈ digits, isDigit c = true) :
    value digits < 10 ^ digits.length := by
  have hfold : ∀ n, Nat.ofDigitChars 10 digits n < (n + 1) * 10 ^ digits.length := by
    induction digits with
    | nil => simp
    | cons c rest ih =>
        intro n
        have hc := hdigits c List.mem_cons_self
        simp only [isDigit, Bool.and_eq_true, decide_eq_true_eq, Char.le_def,
          UInt32.le_iff_toNat_le] at hc
        have hdigit : c.toNat - '0'.toNat ≤ 9 := by
          have hnine : '9'.val.toNat = 57 := rfl
          have hzero : '0'.toNat = 48 := rfl
          rw [hnine] at hc
          rw [hzero, Char.toNat]
          omega
        have hrest := ih (fun d hd => hdigits d (List.mem_cons_of_mem c hd))
          (10 * n + (c.toNat - '0'.toNat))
        rw [Nat.ofDigitChars_cons, List.length_cons, pow_succ]
        refine lt_of_lt_of_le hrest ?_
        calc (10 * n + (c.toNat - '0'.toNat) + 1) * 10 ^ rest.length
            ≤ ((n + 1) * 10) * 10 ^ rest.length := Nat.mul_le_mul_right _ (by omega)
          _ = (n + 1) * (10 ^ rest.length * 10) := by ring
  rw [value, valueIn, foldl_eq_ofDigitChars hdigits]
  simpa using hfold 0

/-- A number has no more digits than the power of ten that it stays below has zeros. -/
theorem length_toDigits_le_iff {n k : Nat} (hk : 0 < k) :
    (Nat.toDigits 10 n).length ≤ k ↔ n < 10 ^ k := by
  constructor
  · intro h
    calc n = value (Nat.toDigits 10 n) := (value_toDigits n).symm
      _ < 10 ^ (Nat.toDigits 10 n).length := value_lt fun c hc => isDigit_of_mem_toDigits hc
      _ ≤ 10 ^ k := Nat.pow_le_pow_right (by omega) h
  · exact Nat.toDigits_length 10 n k hk

/-- The whole numbers that are written are those below a power of ten. -/
theorem isShort_iff (n : Int) : IsShort n ↔ n.natAbs < 10 ^ mostDigits :=
  length_toDigits_le_iff (by decide)

/-- Only zero is written with a zero alone. -/
private theorem digitChar_ne_zero : ∀ n, n < 10 → 0 < n → n.digitChar ≠ '0' := by
  decide

/-- A written number other than zero does not begin with a zero. -/
theorem head?_toDigits_ne {n : Nat} (hn : 0 < n) : (Nat.toDigits 10 n).head? ≠ some '0' := by
  induction n using Nat.strongRecOn with
  | ind n ih =>
      by_cases hsmall : n < 10
      · rw [Nat.toDigits_of_lt_base hsmall]
        intro h
        exact digitChar_ne_zero n hsmall hn (by simpa using h)
      · have hdigits := Nat.toDigits_of_base_le (b := 10) (n := n) (by omega) (by omega)
        obtain ⟨first, rest, hfirst⟩ :=
          List.exists_cons_of_ne_nil (Nat.toDigits_ne_nil (n := n / 10) (b := 10))
        have hhead := ih (n / 10) (by omega) (by omega)
        rw [hfirst] at hdigits hhead
        rw [hdigits]
        exact hhead

end Numeral

/-! ## Hexadecimal digits -/

namespace Hex

/-- A hexadecimal digit counts for its value. -/
private theorem digit_counts : ∀ n, n < 16 →
    (if Numeral.isDigit (digit n) then (digit n).toNat - 48
      else (digit n).toLower.toNat - 87) = n := by
  decide

/-- Four hexadecimal digits have the value they were written for. -/
theorem valueIn_padded {n : Nat} (hn : n < 65536) : Numeral.valueIn 16 (padded 4 n) = n := by
  have hdigit (i : Nat) := digit_counts (n >>> i % 16) (by omega)
  have hpadded : padded 4 n =
      [digit (n >>> 12 % 16), digit (n >>> 8 % 16), digit (n >>> 4 % 16),
        digit (n >>> 0 % 16)] := rfl
  simp only [hpadded, Numeral.valueIn, List.foldl_cons, List.foldl_nil, hdigit]
  simp only [Nat.shiftRight_eq_div_pow]
  omega

end Hex

/-! ## Written whole numbers -/

namespace Json.Token

/-- A written number is digits after an optional sign. -/
theorem mem_writeInt {n : Int} {c : Char} (hc : c ∈ writeInt n) :
    Numeral.isDigit c = true ∨ c = '-' := by
  by_cases hn : n < 0
  · simp only [writeInt, hn, if_true, List.mem_cons] at hc
    rcases hc with rfl | hc
    · exact Or.inr rfl
    · exact Or.inl (Numeral.isDigit_of_mem_toDigits hc)
  · simp only [writeInt, hn, if_false] at hc
    exact Or.inl (Numeral.isDigit_of_mem_toDigits hc)

/-- Digits without a needless zero are a number. -/
theorem number?_of_digits (negative : Bool) (m : Nat) :
    number? ((if negative then ['-'] else []) ++ Nat.toDigits 10 m) =
      some (.int (if negative then -(m : Int) else m)) := by
  have hall : ∀ c ∈ Nat.toDigits 10 m, Numeral.isDigit c = true := fun c hc =>
    Numeral.isDigit_of_mem_toDigits hc
  have htake : (Nat.toDigits 10 m).takeWhile Numeral.isDigit = Nat.toDigits 10 m :=
    List.takeWhile_eq_self_iff.mpr hall
  have hdrop : (Nat.toDigits 10 m).dropWhile Numeral.isDigit = [] :=
    List.dropWhile_eq_nil_iff.mpr hall
  have hzero : (Nat.toDigits 10 m).head? = some '0' → Nat.toDigits 10 m = ['0'] := by
    intro hhead
    rcases Nat.eq_zero_or_pos m with rfl | hm
    · exact Nat.toDigits_zero 10
    · exact absurd hhead (Numeral.head?_toDigits_ne hm)
  have hsign : (Nat.toDigits 10 m).head? ≠ some '-' := by
    intro h
    have := hall '-' (List.mem_of_mem_head? h)
    revert this
    decide
  cases negative with
  | false =>
      simp only [Bool.false_eq_true, if_false, List.nil_append]
      simpa [number?, hsign, htake, hdrop, Numeral.signed, Numeral.value_toDigits] using hzero
  | true =>
      simpa [number?, htake, hdrop, Numeral.signed, Numeral.value_toDigits] using hzero

/-- A written whole number reads back. -/
theorem number?_writeInt (n : Int) : number? (writeInt n) = some (.int n) := by
  by_cases hn : n < 0
  · have h := number?_of_digits true n.natAbs
    have habs : -(n.natAbs : Int) = n := by omega
    rw [if_pos rfl, if_pos rfl, habs] at h
    rw [writeInt, if_pos hn]
    exact h
  · have h := number?_of_digits false n.natAbs
    have habs : (n.natAbs : Int) = n := by omega
    rw [if_neg Bool.false_ne_true, if_neg Bool.false_ne_true, habs] at h
    rw [writeInt, if_neg hn]
    exact h

end Json.Token

end StakeLedger
