import Mathlib.Algebra.Order.Field.Power
import Mathlib.Data.Int.Log
import Mathlib.Data.Rat.Floor
import Mathlib.Tactic.FieldSimp
import Mathlib.Tactic.Linarith
import Mathlib.Tactic.NormNum
import Mathlib.Tactic.Positivity
import Mathlib.Tactic.Ring
import StakeLedger.Decimal.Shortest

/-!
# Rounding of exact values

Which double is nearest to a quotient depends on the value of the quotient alone, not
on the two numbers that it is made of.  A value that is a magnitude of a double is
nearest to itself, so the exact decimal of a magnitude reads back, and with it the
shortest one.

Main definitions:

- {lit}`Decimal.value`: the value of a decimal.

Main results:

- Theorem {lit}`Binary64.exponentFor_eq`: the exponent at which a quotient is rounded.
- Theorem {lit}`Binary64.ofRatio_congr`, {lit}`Binary64.ofDecimal_congr`: equal values are
  rounded to the same double.
- Theorem {lit}`Binary64.ofRatio_exact`: the value of a magnitude is rounded to itself.
- Theorem {lit}`Binary64.readsBack_shortest`: the shortest decimal reads back.
-/

namespace StakeLedger

/-! ## Logarithms -/

/-- A power that is reached while the next one is not is the greatest one. -/
theorem log_eq {base : Nat} (hbase : 1 < base) {x : ℚ} (hx : 0 < x) {k : Int}
    (hlow : (base : ℚ) ^ k ≤ x) (hhigh : x < (base : ℚ) ^ (k + 1)) : Int.log base x = k := by
  have hle := (Int.zpow_le_iff_le_log hbase hx).mp hlow
  have hlt := (Int.lt_zpow_iff_log_lt hbase hx).mp hhigh
  omega

namespace Binary64

/-! ## Quotients -/

/-- The quotient of what is shifted. -/
theorem shifted_eq (num den : Nat) (e : Int) :
    ((shifted num den e).1 : ℚ) / (shifted num den e).2 = num / den / 2 ^ e := by
  unfold shifted
  by_cases he : e < 0
  · obtain ⟨k, rfl⟩ : ∃ k : Nat, e = -k := ⟨(-e).toNat, by omega⟩
    rw [if_pos he]
    simp only [neg_neg, Int.toNat_natCast, Nat.shiftLeft_eq, Nat.cast_mul, Nat.cast_pow,
      Nat.cast_ofNat, zpow_neg, zpow_natCast, div_inv_eq_mul]
    ring
  · obtain ⟨k, rfl⟩ : ∃ k : Nat, e = k := ⟨e.toNat, by omega⟩
    rw [if_neg he]
    simp only [Int.toNat_natCast, Nat.shiftLeft_eq, Nat.cast_mul, Nat.cast_pow,
      Nat.cast_ofNat, zpow_natCast]
    rw [div_div]

/-- Shifting keeps divisors positive. -/
theorem shifted_pos {den : Nat} (hden : 0 < den) (num : Nat) (e : Int) :
    0 < (shifted num den e).2 := by
  unfold shifted
  split
  · exact hden
  · simp only [Nat.shiftLeft_eq]
    positivity

/-- Two quotients with one value. -/
theorem div_eq_div_iff_mul {a b c d : Nat} (hb : 0 < b) (hd : 0 < d) :
    (a : ℚ) / b = c / d ↔ a * d = c * b := by
  rw [div_eq_div_iff (by positivity) (by positivity)]
  exact_mod_cast Iff.rfl

/-- A quotient is within a factor of two of what the binary digits of both numbers
say. -/
theorem div_bounds {num den : Nat} (hnum : 0 < num) (hden : 0 < den) :
    (2 : ℚ) ^ ((num.log2 : Int) - den.log2 - 1) ≤ num / den ∧
      (num / den : ℚ) < 2 ^ ((num.log2 : Int) - den.log2 + 1) := by
  have hnumLow : (2 : ℚ) ^ num.log2 ≤ num := by exact_mod_cast Nat.log2_self_le hnum.ne'
  have hnumHigh : (num : ℚ) < 2 ^ (num.log2 + 1) := by exact_mod_cast Nat.lt_log2_self
  have hdenLow : (2 : ℚ) ^ den.log2 ≤ den := by exact_mod_cast Nat.log2_self_le hden.ne'
  have hdenHigh : (den : ℚ) < 2 ^ (den.log2 + 1) := by exact_mod_cast Nat.lt_log2_self
  have hdenPos : (0 : ℚ) < den := by exact_mod_cast hden
  have hlow : (2 : ℚ) ^ ((num.log2 : Int) - den.log2 - 1) = 2 ^ num.log2 / 2 ^ (den.log2 + 1) := by
    rw [show (num.log2 : Int) - den.log2 - 1 = num.log2 - (den.log2 + 1 : Nat) by omega,
      zpow_sub₀ two_ne_zero, zpow_natCast, zpow_natCast]
  have hhigh : (2 : ℚ) ^ ((num.log2 : Int) - den.log2 + 1) = 2 ^ (num.log2 + 1) / 2 ^ den.log2 := by
    rw [show (num.log2 : Int) - den.log2 + 1 = (num.log2 + 1 : Nat) - den.log2 by omega,
      zpow_sub₀ two_ne_zero, zpow_natCast, zpow_natCast]
  rw [hlow, hhigh, div_le_div_iff₀ (by positivity) hdenPos,
    div_lt_div_iff₀ hdenPos (by positivity)]
  constructor
  · gcongr
  · calc (num : ℚ) * 2 ^ den.log2 ≤ num * den := by gcongr
      _ < 2 ^ (num.log2 + 1) * den := by gcongr

/-- The exponent at which a quotient is rounded: its leading binary digit is the
fifty-third one, unless that is beyond the least exponent. -/
theorem exponentFor_eq {num den : Nat} (hnum : 0 < num) (hden : 0 < den) :
    exponentFor num den = max (Int.log 2 (num / den : ℚ) - 52) (-1074) := by
  obtain ⟨hlow, hhigh⟩ := div_bounds hnum hden
  have hvalue : (0 : ℚ) < num / den := by positivity
  generalize hguess : (num.log2 : Int) - den.log2 = guess at hlow hhigh
  have hshifted := shifted_eq num den guess
  have hpos : (0 : ℚ) < (shifted num den guess).2 := by
    exact_mod_cast shifted_pos hden num guess
  have hpower : (0 : ℚ) < 2 ^ guess := by positivity
  -- The guess from the binary digits is right, or one too high.
  by_cases hle : (shifted num den guess).2 ≤ (shifted num den guess).1
  · have hreached : (2 : ℚ) ^ guess ≤ num / den := by
      rw [← one_le_div hpower, ← hshifted, one_le_div hpos]
      exact_mod_cast hle
    rw [log_eq (by decide) hvalue (by exact_mod_cast hreached) (by exact_mod_cast hhigh)]
    simp only [exponentFor, hguess, if_pos hle]
  · have hmissed : (num / den : ℚ) < 2 ^ guess := by
      rw [← div_lt_one hpower, ← hshifted, div_lt_one hpos]
      exact_mod_cast not_le.mp hle
    rw [log_eq (k := guess - 1) (by decide) hvalue (by exact_mod_cast hlow)
      (by rw [sub_add_cancel]; exact_mod_cast hmissed)]
    simp only [exponentFor, hguess, if_neg hle]

/-! ## Rounding -/

/-- Rounding does not depend on a common factor. -/
theorem roundHalfEven_mul (n d : Nat) {c : Nat} (hc : 0 < c) :
    roundHalfEven (n * c) (d * c) = roundHalfEven n d := by
  have hlow : 2 * (n % d * c) < d * c ↔ 2 * (n % d) < d := by
    rw [← mul_assoc]
    exact Nat.mul_lt_mul_right hc
  have hhigh : d * c < 2 * (n % d * c) ↔ d < 2 * (n % d) := by
    rw [← mul_assoc]
    exact Nat.mul_lt_mul_right hc
  simp only [roundHalfEven, Nat.mul_div_mul_right _ _ hc, Nat.mul_mod_mul_right, hlow, hhigh]

/-- Equal quotients are rounded to the same number. -/
theorem roundHalfEven_congr {n d n' d' : Nat} (hd : 0 < d) (hd' : 0 < d')
    (h : n * d' = n' * d) : roundHalfEven n d = roundHalfEven n' d' := by
  rw [← roundHalfEven_mul n d hd', ← roundHalfEven_mul n' d' hd, h, mul_comm d d']

/-- A whole quotient is rounded to itself. -/
theorem roundHalfEven_exact {d : Nat} (hd : 0 < d) (m : Nat) : roundHalfEven (m * d) d = m := by
  simp [roundHalfEven, hd]

/-- Equal quotients are rounded to the same double. -/
theorem ofRatio_congr {num den num' den' : Nat} (hden : 0 < den) (hden' : 0 < den')
    (h : (num : ℚ) / den = num' / den') (negative : Bool) :
    ofRatio negative num den = ofRatio negative num' den' := by
  have hzero : num = 0 ↔ num' = 0 := by
    have hmul := (div_eq_div_iff_mul hden hden').mp h
    constructor
    · rintro rfl
      simpa [hden.ne'] using hmul.symm
    · rintro rfl
      simpa [hden'.ne'] using hmul
  by_cases hnum : num = 0
  · rw [ofRatio, ofRatio, if_pos hnum, if_pos (hzero.mp hnum)]
  · have hnum' : num' ≠ 0 := fun h' => hnum (hzero.mpr h')
    have hexponent : exponentFor num den = exponentFor num' den' := by
      rw [exponentFor_eq (by omega) hden, exponentFor_eq (by omega) hden', h]
    have hround : roundHalfEven (shifted num den (exponentFor num den)).1
        (shifted num den (exponentFor num den)).2 =
        roundHalfEven (shifted num' den' (exponentFor num den)).1
          (shifted num' den' (exponentFor num den)).2 := by
      refine roundHalfEven_congr (shifted_pos hden _ _) (shifted_pos hden' _ _) ?_
      rw [← div_eq_div_iff_mul (shifted_pos hden _ _) (shifted_pos hden' _ _), shifted_eq,
        shifted_eq, h]
    simp only [ofRatio, if_neg hnum, if_neg hnum', ← hexponent, hround]

/-- The value of a magnitude that is not zero is rounded to it. -/
theorem ofRatio_exact {m : Nat} {e : Int} (hcanonical : Canonical m e) (hm : 0 < m)
    {num den : Nat} (hden : 0 < den) (h : (num : ℚ) / den = m * 2 ^ e) (negative : Bool) :
    ofRatio negative num den = ofMagnitude negative m e := by
  obtain ⟨hhigh, hleast, -, hlow⟩ := hcanonical
  have hpower : (0 : ℚ) < 2 ^ e := by positivity
  have hvalue : (0 : ℚ) < m * 2 ^ e := by positivity
  have hnum : 0 < num := by
    rw [← h] at hvalue
    rcases Nat.eq_zero_or_pos num with rfl | hpos
    · simp at hvalue
    · exact hpos
  have hexponent : exponentFor num den = e := by
    rw [exponentFor_eq hnum hden, h]
    have hup : (m * 2 ^ e : ℚ) < (2 : Nat) ^ (e + 53) := by
      rw [Nat.cast_ofNat, zpow_add₀ two_ne_zero, mul_comm]
      gcongr
      exact_mod_cast hhigh
    have hlog : Int.log 2 (m * 2 ^ e : ℚ) < e + 53 :=
      (Int.lt_zpow_iff_log_lt (by decide) hvalue).mp hup
    rcases hlow with hlow | rfl
    · have hdown : ((2 : Nat) : ℚ) ^ (e + 52) ≤ m * 2 ^ e := by
        rw [Nat.cast_ofNat, zpow_add₀ two_ne_zero, mul_comm]
        gcongr
        exact_mod_cast hlow
      have hlog' := (Int.zpow_le_iff_le_log (by decide) hvalue).mp hdown
      omega
    · omega
  have hround : roundHalfEven (shifted num den e).1 (shifted num den e).2 = m := by
    have hpos := shifted_pos hden num e
    have hshifted := shifted_eq num den e
    rw [h, mul_div_cancel_right₀ _ hpower.ne', div_eq_iff (by positivity)] at hshifted
    rw [show (shifted num den e).1 = m * (shifted num den e).2 by exact_mod_cast hshifted]
    exact roundHalfEven_exact hpos m
  simp only [ofRatio, if_neg hnum.ne', hexponent, hround, if_pos hhigh]

end Binary64

/-! ## Decimals -/

/-- The value of a decimal. -/
def Decimal.value (d : Decimal) : ℚ :=
  d.digits * 10 ^ d.exponent

namespace Binary64

/-- Where the point of a decimal stands tells its power of ten. -/
theorem top_eq {d : Decimal} (hd : 0 < d.digits) :
    d.exponent + digitCount d.digits = Int.log 10 d.value + 1 := by
  have hpos : 0 < digitCount d.digits := Nat.length_toDigits_pos
  have hbelow : d.digits < 10 ^ digitCount d.digits :=
    (Nat.length_toDigits_le_iff (by decide) hpos).mp le_rfl
  have habove : 10 ^ (digitCount d.digits - 1) ≤ d.digits := by
    rcases Nat.eq_zero_or_pos (digitCount d.digits - 1) with hzero | hmore
    · rw [hzero]
      exact hd
    · refine not_lt.mp fun hlt => ?_
      have := (Nat.length_toDigits_le_iff (by decide) hmore).mpr hlt
      rw [digitCount] at hpos this
      omega
  generalize digitCount d.digits = count at *
  obtain ⟨more, rfl⟩ := Nat.exists_eq_add_of_le' (show 1 ≤ count from hpos)
  have hvalue : 0 < d.value := by
    rw [Decimal.value]
    positivity
  have hlow : ((10 : Nat) : ℚ) ^ (d.exponent + more) ≤ d.value := by
    rw [Nat.cast_ofNat, zpow_add₀ (by norm_num), mul_comm, Decimal.value, zpow_natCast]
    gcongr
    exact_mod_cast habove
  have hhigh : d.value < ((10 : Nat) : ℚ) ^ (d.exponent + more + 1) := by
    rw [Nat.cast_ofNat, add_assoc, zpow_add₀ (by norm_num), mul_comm _ ((10 : ℚ) ^ _),
      Decimal.value]
    gcongr
    exact_mod_cast hbelow
  rw [log_eq (by decide) hvalue hlow hhigh]
  push_cast
  ring

/-- The double nearest to a decimal is that nearest to a quotient with its value, unless
it is beyond all doubles or below all of them. -/
theorem ofDecimal_eq {d : Decimal} (hd : 0 < d.digits) (negative : Bool) :
    ∃ num den : Nat, 0 < den ∧ (num / den : ℚ) = d.value ∧
      ofDecimal negative d.digits d.exponent =
        if Int.log 10 d.value + 1 < -325 then zero negative
        else if 311 < Int.log 10 d.value + 1 then .infinite negative
        else ofRatio negative num den := by
  have hdigits : d.digits ≠ 0 := hd.ne'
  by_cases hexponent : d.exponent < 0
  · refine ⟨d.digits, Nat.pow 10 (-d.exponent).toNat, Nat.pow_pos (by decide), ?_, ?_⟩
    · obtain ⟨k, hk⟩ : ∃ k : Nat, d.exponent = -k := ⟨(-d.exponent).toNat, by omega⟩
      rw [Decimal.value, hk, neg_neg, Int.toNat_natCast, zpow_neg, zpow_natCast, Nat.pow_eq,
        Nat.cast_pow, Nat.cast_ofNat, div_eq_mul_inv]
    · simp only [ofDecimal, hdigits, false_or, top_eq hd, if_pos hexponent]
  · refine ⟨d.digits * Nat.pow 10 d.exponent.toNat, 1, Nat.one_pos, ?_, ?_⟩
    · obtain ⟨k, hk⟩ : ∃ k : Nat, d.exponent = k := ⟨d.exponent.toNat, by omega⟩
      rw [Decimal.value, hk, Int.toNat_natCast, zpow_natCast, Nat.pow_eq, Nat.cast_mul,
        Nat.cast_pow, Nat.cast_ofNat, Nat.cast_one, div_one]
    · simp only [ofDecimal, hdigits, false_or, top_eq hd, if_neg hexponent]

/-- Decimals with one value are rounded to the same double. -/
theorem ofDecimal_congr {d d' : Decimal} (h : d.value = d'.value) (negative : Bool) :
    ofDecimal negative d.digits d.exponent = ofDecimal negative d'.digits d'.exponent := by
  have hpower (d : Decimal) : (10 : ℚ) ^ d.exponent ≠ 0 := by positivity
  have hzero : d.digits = 0 ↔ d'.digits = 0 := by
    have hcast (d : Decimal) : d.digits = 0 ↔ d.value = 0 := by
      simp [Decimal.value, hpower d]
    rw [hcast, hcast, h]
  rcases Nat.eq_zero_or_pos d.digits with hd | hd
  · simp [ofDecimal, hd, hzero.mp hd]
  · have hd' : 0 < d'.digits := Nat.pos_of_ne_zero fun h' => hd.ne' (hzero.mpr h')
    obtain ⟨num, den, hden, hvalue, heq⟩ := ofDecimal_eq hd negative
    obtain ⟨num', den', hden', hvalue', heq'⟩ := ofDecimal_eq hd' negative
    rw [heq, heq', h, ofRatio_congr hden hden' (by rw [hvalue, hvalue', h])]

/-! ## Shortest decimals -/

/-- The expansion of a magnitude has its value. -/
theorem value_expansion (m : Nat) (e : Int) : (expansion m e).value = m * 2 ^ e := by
  by_cases he : e < 0
  · obtain ⟨k, rfl⟩ : ∃ k : Nat, e = -k := ⟨(-e).toNat, by omega⟩
    have hten : (10 : ℚ) ^ k = 5 ^ k * 2 ^ k := by
      rw [← mul_pow]
      norm_num
    rw [expansion, if_pos he, Decimal.value]
    simp only [neg_neg, Int.toNat_natCast, Nat.pow_eq, Nat.cast_mul, Nat.cast_pow,
      Nat.cast_ofNat, zpow_neg, zpow_natCast, hten]
    field_simp
  · obtain ⟨k, rfl⟩ : ∃ k : Nat, e = k := ⟨e.toNat, by omega⟩
    rw [expansion, if_neg he, Decimal.value]
    simp [Nat.shiftLeft_eq]

/-- The value of a magnitude that is not zero is neither beyond all doubles nor below
all of them. -/
theorem log_bounds {m : Nat} {e : Int} (hcanonical : Canonical m e) (hm : 0 < m) :
    -326 ≤ Int.log 10 (m * 2 ^ e : ℚ) ∧ Int.log 10 (m * 2 ^ e : ℚ) < 311 := by
  obtain ⟨hhigh, hleast, hmost, -⟩ := hcanonical
  have hvalue : (0 : ℚ) < m * 2 ^ e := by positivity
  constructor
  · refine (Int.zpow_le_iff_le_log (by decide) hvalue).mp ?_
    have hleastPower : (2 : ℚ) ^ (-1074 : Int) ≤ 2 ^ e :=
      zpow_le_zpow_right₀ (by norm_num) hleast
    have hpowers : (2 : ℚ) ^ 1074 ≤ 10 ^ 326 := by
      exact_mod_cast (by decide +kernel : 2 ^ 1074 ≤ 10 ^ 326)
    calc ((10 : Nat) : ℚ) ^ (-326 : Int) ≤ 1 * 2 ^ (-1074 : Int) := by
          rw [Nat.cast_ofNat, one_mul, zpow_neg, zpow_neg]
          exact inv_anti₀ (by positivity) hpowers
      _ ≤ m * 2 ^ e := by
        gcongr
        exact_mod_cast hm
  · refine (Int.lt_zpow_iff_log_lt (by decide) hvalue).mp ?_
    have hmostPower : (2 : ℚ) ^ e ≤ 2 ^ (971 : Int) :=
      zpow_le_zpow_right₀ (by norm_num) hmost
    have hpowers : (0x20000000000000 * 2 ^ 971 : ℚ) < 10 ^ 311 := by
      exact_mod_cast (by decide +kernel : 0x20000000000000 * 2 ^ 971 < 10 ^ 311)
    calc (m * 2 ^ e : ℚ) ≤ 0x20000000000000 * 2 ^ (971 : Int) := by
          gcongr
          exact_mod_cast hhigh.le
      _ < ((10 : Nat) : ℚ) ^ (311 : Int) := hpowers

/-- A decimal with the value of a magnitude reads back as it. -/
theorem readsBack_of_value {m : Nat} {e : Int} (hcanonical : Canonical m e) {d : Decimal}
    (h : d.value = m * 2 ^ e) : d.ReadsBack m e := by
  rcases Nat.eq_zero_or_pos m with rfl | hm
  · have hdigits : d.digits = 0 := by
      have hpower : (10 : ℚ) ^ d.exponent ≠ 0 := by positivity
      simpa [Decimal.value, hpower] using h
    obtain rfl : e = -1074 := by
      obtain ⟨-, -, -, hlow | hleast⟩ := hcanonical
      · exact absurd hlow (by decide)
      · exact hleast
    rw [Decimal.ReadsBack, ofDecimal, if_pos (Or.inl hdigits)]
    rfl
  · have hd : 0 < d.digits := by
      have hvalue : (0 : ℚ) < m * 2 ^ e := by positivity
      rcases Nat.eq_zero_or_pos d.digits with hzero | hpos
      · simp [← h, Decimal.value, hzero] at hvalue
      · exact hpos
    obtain ⟨num, den, hden, hvalue, heq⟩ := ofDecimal_eq hd false
    obtain ⟨hlow, hhigh⟩ := log_bounds hcanonical hm
    rw [← h] at hlow hhigh
    rw [Decimal.ReadsBack, heq, if_neg (by omega), if_neg (by omega)]
    exact ofRatio_exact hcanonical hm hden (hvalue.trans h) false

/-- The shortest decimal of a magnitude reads back as it. -/
theorem readsBack_shortest {m : Nat} {e : Int} (hcanonical : Canonical m e) :
    (shortest m e).ReadsBack m e :=
  shortest_readsBack m e (readsBack_of_value hcanonical (value_expansion m e))

end Binary64

end StakeLedger
