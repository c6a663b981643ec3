import Mathlib.Data.Bool.AllAny
import StakeLedger.Decimal.Layout
import StakeLedger.Decimal.Numeral
import StakeLedger.Proofs.Decimal.Rounding
import StakeLedger.Proofs.Text.Numeral

/-!
# Written doubles read back

In a layout that always has a point, a double is written as digits, a point, more digits
and sometimes an exponent.  Whichever of the ways to write it is taken, the value is that
of the shortest decimal.

Main definitions:

- {lit}`Numeral.Exponent`: the texts of exponents.
- {lit}`Numeral.Pointed`: digits with a point among them, and the decimal they spell.

Main results:

- Theorem {lit}`Layout.pointed_writeDecimal`: a written decimal has the value of the decimal.
- Theorem {lit}`Numeral.Pointed.exists_decimal`: such a text is read as a decimal of its value.
-/

namespace StakeLedger

/-! ## Digits -/

namespace Numeral

/-- Digits go on from the value of those before them. -/
theorem foldl_digits_eq (digits : List Char) (n : Nat) :
    digits.foldl (fun n c =>
      let d := if isDigit c then c.toNat - 48 else c.toLower.toNat - 87
      10 * n + d) n = n * 10 ^ digits.length + value digits := by
  induction digits generalizing n with
  | nil => simp [value, valueIn]
  | cons c rest ih =>
      rw [value, valueIn, List.foldl_cons, List.foldl_cons, ih, ih, List.length_cons, pow_succ]
      ring

/-- Digits before others count for more. -/
theorem value_append (xs ys : List Char) :
    value (xs ++ ys) = value xs * 10 ^ ys.length + value ys := by
  rw [value, valueIn, List.foldl_append, foldl_digits_eq]
  rfl

/-- Zeros alone are zero. -/
theorem value_zeros (n : Nat) : value (Layout.zeros n) = 0 := by
  induction n with
  | zero => rfl
  | succ n ih =>
      rw [Layout.zeros, List.replicate_succ', value_append]
      rw [Layout.zeros] at ih
      rw [ih]
      decide

/-- The texts of exponents: nothing, or a letter, a sign and digits. -/
inductive Exponent : List Char → Int → Prop where
  | none : Exponent [] 0
  | some (negative : Bool) {digits : List Char} (hne : digits ≠ [])
      (hdigits : ∀ c ∈ digits, isDigit c = true) :
      Exponent ('e' :: (if negative then '-' else '+') :: digits) (signed negative digits)

/-- Digits with a point among them, and sometimes an exponent: the text of a decimal with a
value. -/
structure Pointed (text : List Char) (x : ℚ) : Prop where
  parts : ∃ (whole fraction tail : List Char) (n : Int),
    text = whole ++ '.' :: (fraction ++ tail) ∧ whole ≠ [] ∧ fraction ≠ [] ∧
      (∀ c ∈ whole ++ fraction, isDigit c = true) ∧ Exponent tail n ∧
      Decimal.value ⟨value (whole ++ fraction), n - fraction.length⟩ = x

end Numeral

/-! ## Writing -/

namespace Layout

open Numeral

/-- Leaving out zeros at the end does not change the value. -/
theorem value_strip (steps : Nat) (d : Decimal) : (d.strip steps).value = d.value := by
  induction steps generalizing d with
  | zero => rfl
  | succ steps ih =>
      rw [Decimal.strip]
      split
      · next h =>
        obtain ⟨k, hk⟩ := Nat.dvd_of_mod_eq_zero h.2
        rw [ih, Decimal.value, Decimal.value, hk, Nat.mul_div_cancel_left k (by decide),
          zpow_add₀ (by norm_num)]
        push_cast
        ring
      · rfl

/-- Zeros behind digits stand for a greater power of ten. -/
theorem value_mul_pow (n k : Nat) (e : Int) :
    Decimal.value ⟨n * 10 ^ k, e⟩ = Decimal.value ⟨n, e + k⟩ := by
  simp only [Decimal.value, zpow_add₀ (by norm_num : (10 : ℚ) ≠ 0), zpow_natCast]
  push_cast
  ring

/-- Zeros are digits. -/
theorem isDigit_of_mem_zeros {n : Nat} {c : Char} (h : c ∈ zeros n) : isDigit c = true := by
  rw [List.eq_of_mem_replicate h]
  decide

/-- The text of an exponent is one, of the same number. -/
theorem exponent_exponentText (n : Int) : Exponent (exponentText n) n := by
  have hdigits : ∀ c ∈ zeros (2 - (Nat.toDigits 10 n.natAbs).length) ++ Nat.toDigits 10 n.natAbs,
      isDigit c = true := by
    intro c hc
    rcases List.mem_append.mp hc with hzero | hdigit
    · exact isDigit_of_mem_zeros hzero
    · exact isDigit_of_mem_toDigits hdigit
  have hvalue : signed (decide (n < 0)) (zeros (2 - (Nat.toDigits 10 n.natAbs).length) ++
      Nat.toDigits 10 n.natAbs) = n := by
    rw [signed, value_append, value_zeros, value_toDigits]
    by_cases hn : n < 0
    · simp only [hn, decide_true, if_true]
      omega
    · simp only [hn, decide_false, Bool.false_eq_true, if_false]
      omega
  have hexponent := Exponent.some (decide (n < 0))
    (List.append_ne_nil_of_right_ne_nil _ Nat.toDigits_ne_nil) hdigits
  rw [hvalue] at hexponent
  simpa [exponentText] using hexponent

variable {digits : List Char}

/-- Digits with zeros between the point and them. -/
theorem pointed_below (hne : digits ≠ []) (hdigits : ∀ c ∈ digits, isDigit c = true) {point : Int}
    (hpoint : point ≤ 0) :
    Pointed (positional digits point) (Decimal.value ⟨value digits, point - digits.length⟩) := by
  refine ⟨['0'], zeros (-point).toNat ++ digits, [], 0, ?_, by simp, by simp [hne], ?_, .none, ?_⟩
  · rw [positional, if_pos hpoint]
    simp
  · intro c hc
    rw [List.singleton_append, List.mem_cons, List.mem_append] at hc
    rcases hc with rfl | hc | hc
    · decide
    · exact isDigit_of_mem_zeros hc
    · exact hdigits c hc
  · have hzero : value ['0'] = 0 := by decide
    have hvalue : value (['0'] ++ (zeros (-point).toNat ++ digits)) = value digits := by
      rw [value_append, value_append, value_zeros, hzero]
      simp
    have hexponent : (0 : Int) - (zeros (-point).toNat ++ digits).length =
        point - digits.length := by
      rw [List.length_append, zeros, List.length_replicate]
      omega
    rw [hvalue, hexponent]

/-- Digits with zeros between them and the point. -/
theorem pointed_above (hne : digits ≠ []) (hdigits : ∀ c ∈ digits, isDigit c = true) {point : Int}
    (hpoint : ¬point ≤ 0) (hlength : digits.length ≤ point.toNat) :
    Pointed (positional digits point) (Decimal.value ⟨value digits, point - digits.length⟩) := by
  refine ⟨digits ++ zeros (point.toNat - digits.length), ['0'], [], 0, ?_, by simp [hne], by simp,
    ?_, .none, ?_⟩
  · rw [positional, if_neg hpoint, if_pos hlength]
    simp
  · intro c hc
    rw [List.append_assoc, List.mem_append, List.mem_append, List.mem_singleton] at hc
    rcases hc with hc | hc | rfl
    · exact hdigits c hc
    · exact isDigit_of_mem_zeros hc
    · decide
  · have hzero : value ['0'] = 0 := by decide
    have hvalue : value (digits ++ zeros (point.toNat - digits.length) ++ ['0']) =
        value digits * 10 ^ (point.toNat - digits.length + 1) := by
      rw [value_append, value_append, value_zeros, hzero, zeros, List.length_replicate]
      simp [pow_succ, mul_assoc]
    rw [hvalue, value_mul_pow, List.length_singleton]
    congr 2
    omega

/-- Digits with the point among them. -/
theorem pointed_among (hne : digits ≠ []) (hdigits : ∀ c ∈ digits, isDigit c = true) {point : Int}
    (hpoint : ¬point ≤ 0) (hlength : ¬digits.length ≤ point.toNat) :
    Pointed (positional digits point) (Decimal.value ⟨value digits, point - digits.length⟩) := by
  refine ⟨digits.take point.toNat, digits.drop point.toNat, [], 0, ?_, ?_, ?_, ?_, .none, ?_⟩
  · rw [positional, if_neg hpoint, if_neg hlength]
    simp
  · rw [Ne, List.take_eq_nil_iff]
    rintro (hnone | hnil)
    · omega
    · exact hne hnil
  · rw [Ne, List.drop_eq_nil_iff]
    exact hlength
  · rwa [List.take_append_drop]
  · rw [List.take_append_drop, List.length_drop]
    congr 2
    omega

/-- Digits written in positions have the value of the digits at their point. -/
theorem pointed_positional (hne : digits ≠ []) (hdigits : ∀ c ∈ digits, isDigit c = true)
    (point : Int) :
    Pointed (positional digits point) (Decimal.value ⟨value digits, point - digits.length⟩) := by
  by_cases hpoint : point ≤ 0
  · exact pointed_below hne hdigits hpoint
  by_cases hlength : digits.length ≤ point.toNat
  · exact pointed_above hne hdigits hpoint hlength
  · exact pointed_among hne hdigits hpoint hlength

/-- One digit with the others behind the point, and an exponent, have the value of the
digits at their point. -/
theorem pointed_scientific {layout : Layout} (hpoint : layout.pointBeforeExponent = true)
    (hne : digits ≠ []) (hdigits : ∀ c ∈ digits, isDigit c = true) (point : Int) :
    Pointed (layout.scientific digits point)
      (Decimal.value ⟨value digits, point - digits.length⟩) := by
  obtain ⟨first, rest, rfl⟩ := List.exists_cons_of_ne_nil hne
  have hexponent := exponent_exponentText (point - 1)
  by_cases hrest : rest = []
  · subst hrest
    refine ⟨[first], ['0'], exponentText (point - 1), point - 1, ?_, by simp, by simp, ?_,
      hexponent, ?_⟩
    · simp [scientific, hpoint]
    · intro c hc
      rw [List.singleton_append, List.mem_cons, List.mem_singleton] at hc
      rcases hc with rfl | rfl
      · exact hdigits c List.mem_cons_self
      · decide
    · have hvalue : value ([first] ++ ['0']) = value [first] * 10 ^ 1 := value_append _ _
      rw [hvalue, value_mul_pow, List.length_singleton, List.length_singleton]
      congr 2
      push_cast
      omega
  · refine ⟨[first], rest, exponentText (point - 1), point - 1, ?_, by simp, hrest, hdigits,
      hexponent, ?_⟩
    · simp [scientific, hrest]
    · rw [List.singleton_append, List.length_cons]
      congr 2
      push_cast
      omega

/-- A written decimal has the value of the decimal. -/
theorem pointed_writeDecimal {layout : Layout} (hpoint : layout.pointBeforeExponent = true)
    (d : Decimal) : Pointed (layout.writeDecimal d) d.value := by
  rw [← value_strip 800 d, writeDecimal]
  generalize d.strip 800 = d
  by_cases hd : d.digits = 0
  · refine ⟨['0'], ['0'], [], 0, ?_, by simp, by simp, ?_, .none, ?_⟩
    · simp [hd]
    · exact List.all_iff_forall_prop.mp (by decide)
    · have hzero : value ['0', '0'] = 0 := by decide
      simp [Decimal.value, hd, hzero]
  · have hdigits : ∀ c ∈ Nat.toDigits 10 d.digits, isDigit c = true := fun c hc =>
      isDigit_of_mem_toDigits hc
    have hvalue : Decimal.value ⟨value (Nat.toDigits 10 d.digits),
        d.exponent + (Nat.toDigits 10 d.digits).length - (Nat.toDigits 10 d.digits).length⟩ =
        d.value := by
      rw [value_toDigits, add_sub_cancel_right]
    simp only [if_neg hd]
    split
    · rw [← hvalue]
      exact pointed_positional Nat.toDigits_ne_nil hdigits _
    · rw [← hvalue]
      exact pointed_scientific hpoint Nat.toDigits_ne_nil hdigits _

end Layout

/-! ## Reading -/

namespace Numeral

variable {text : List Char} {x : ℚ}

/-- The text of an exponent is read as its number. -/
theorem exponent?_of_exponent {tail : List Char} {n : Int} (h : Exponent tail n) :
    exponent? tail = some n := by
  cases h with
  | none => rfl
  | some negative hne hdigits =>
      have hall : List.all _ isDigit = true := List.all_eq_true.mpr hdigits
      cases negative <;> simp [exponent?, sign, hne, hall]

/-- An exponent does not begin with a digit. -/
theorem span_of_exponent {tail : List Char} {n : Int} (h : Exponent tail n) :
    tail.takeWhile isDigit = [] ∧ tail.dropWhile isDigit = tail := by
  have he : isDigit 'e' = false := by decide
  cases h with
  | none => exact ⟨rfl, rfl⟩
  | some => simp [he]

/-- Digits with a point among them are read as a decimal with their value. -/
theorem Pointed.exists_decimal (h : Pointed text x) :
    ∃ d : Decimal, d.value = x ∧ ∀ negative, decimal? negative text =
      some (Binary64.ofDecimal negative d.digits d.exponent) := by
  obtain ⟨whole, fraction, tail, n, rfl, hwhole, -, hdigits, htail, hvalue⟩ := h
  rw [List.forall_mem_append] at hdigits
  obtain ⟨htakeTail, hdropTail⟩ := span_of_exponent htail
  have hpoint : isDigit '.' = false := by decide
  have htakeWhole : (whole ++ '.' :: (fraction ++ tail)).takeWhile isDigit = whole := by
    simp [List.takeWhile_append_of_pos hdigits.1, hpoint]
  have hdropWhole : (whole ++ '.' :: (fraction ++ tail)).dropWhile isDigit =
      '.' :: (fraction ++ tail) := by
    simp [List.dropWhile_append_of_pos hdigits.1, hpoint]
  have htakeFraction : (fraction ++ tail).takeWhile isDigit = fraction := by
    rw [List.takeWhile_append_of_pos hdigits.2, htakeTail, List.append_nil]
  have hdropFraction : (fraction ++ tail).dropWhile isDigit = tail := by
    rw [List.dropWhile_append_of_pos hdigits.2, hdropTail]
  refine ⟨_, hvalue, fun negative => ?_⟩
  simp [decimal?, htakeWhole, hdropWhole, htakeFraction, hdropFraction, hwhole,
    exponent?_of_exponent htail]

end Numeral

end StakeLedger
