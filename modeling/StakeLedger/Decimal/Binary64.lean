/-!
# Double-precision numbers

A double is a sign with a canonical magnitude {lit}`m · 2 ^ e`, a signed
infinity, or the one value that is no number.  Everything here is exact
arithmetic on natural numbers: a quotient of two naturals is rounded to the
nearest double, half to even, and a decimal is such a quotient.

Main definitions:

- {lit}`Binary64.ofRatio`: the double nearest to a quotient.
- {lit}`Binary64.ofDecimal`: the double nearest to {lit}`digits · 10 ^ exponent`.
- {lit}`Binary64.truncate?`: the integer part of a finite double.
-/

namespace StakeLedger

namespace Binary64

/-- The magnitudes {lit}`m · 2 ^ e` that a finite double has: 53 binary digits,
the first of them set unless the exponent is the least one. -/
def Canonical (m : Nat) (e : Int) : Prop :=
  m < 0x20000000000000 ∧ -1074 ≤ e ∧ e ≤ 971 ∧ (0x10000000000000 ≤ m ∨ e = -1074)

instance (m : Nat) (e : Int) : Decidable (Canonical m e) := by
  unfold Canonical
  infer_instance

end Binary64

/-- A double-precision number; both zeros are finite. -/
inductive Binary64 where
  | finite (negative : Bool) (m : Nat) (e : Int) (canonical : Binary64.Canonical m e)
  | infinite (negative : Bool)
  | nan
deriving DecidableEq

namespace Binary64

/-- A canonical magnitude with a sign; a magnitude that is not canonical is too
large for a double. -/
def ofMagnitude (negative : Bool) (m : Nat) (e : Int) : Binary64 :=
  if h : Canonical m e then .finite negative m e h else .infinite negative

/-- Zero with a sign. -/
def zero (negative : Bool) : Binary64 :=
  .finite negative 0 (-1074) (by decide)

instance : Inhabited Binary64 :=
  ⟨zero false⟩

/-- The integer nearest to {lit}`num / den`, half to even. -/
def roundHalfEven (num den : Nat) : Nat :=
  let q := num / den
  let r := num % den
  if 2 * r < den then q
  else if den < 2 * r then q + 1
  else if q % 2 = 0 then q else q + 1

/-- The quotient of {lit}`num / den` by {lit}`2 ^ e`, as two naturals. -/
def shifted (num den : Nat) (e : Int) : Nat × Nat :=
  if e < 0 then (num <<< (-e).toNat, den) else (num, den <<< e.toNat)

/-- The exponent at which {lit}`num / den` has 53 binary digits before the
point, but never less than the least exponent. -/
def exponentFor (num den : Nat) : Int :=
  let guess : Int := (num.log2 : Int) - (den.log2 : Int)
  let (n, d) := shifted num den guess
  let lead := if d ≤ n then guess else guess - 1
  max (lead - 52) (-1074)

/-- The double nearest to {lit}`num / den`, half to even, with a given sign. -/
def ofRatio (negative : Bool) (num den : Nat) : Binary64 :=
  if num = 0 then zero negative
  else
    let e := exponentFor num den
    let (n, d) := shifted num den e
    let m := roundHalfEven n d
    if m < 0x20000000000000 then ofMagnitude negative m e
    else ofMagnitude negative (m / 2) (e + 1)

/-- The double nearest to an integer. -/
def ofInt (n : Int) : Binary64 :=
  ofRatio (n < 0) n.natAbs 1

/-- How many decimal digits a number has; zero has one. -/
def digitCount (n : Nat) : Nat :=
  (Nat.toDigits 10 n).length

/-- The double nearest to {lit}`digits · 10 ^ exponent`.  A value from 10 ^ 310 on is
beyond every double and one up to 10 ^ -326 is below half the least one, so their
powers of ten are never computed. -/
def ofDecimal (negative : Bool) (digits : Nat) (exponent : Int) : Binary64 :=
  let top := exponent + digitCount digits
  if digits = 0 ∨ top < -325 then zero negative
  else if 311 < top then .infinite negative
  else if exponent < 0 then ofRatio negative digits (Nat.pow 10 (-exponent).toNat)
  else ofRatio negative (digits * Nat.pow 10 exponent.toNat) 1

/-- Whether a number is zero, of either sign. -/
def isZero : Binary64 → Bool
  | .finite _ m _ _ => m == 0
  | _ => false

/-- Whether a number is less than zero; a negative zero is not. -/
def isNegative : Binary64 → Bool
  | .finite negative m _ _ => negative && m != 0
  | .infinite negative => negative
  | .nan => false

/-- The number with the other sign. -/
def neg : Binary64 → Binary64
  | .finite negative m e h => .finite (!negative) m e h
  | .infinite negative => .infinite (!negative)
  | .nan => .nan

/-- The magnitude of a finite double as two naturals. -/
def magnitude (m : Nat) (e : Int) : Nat × Nat :=
  if e < 0 then (m, 1 <<< (-e).toNat) else (m <<< e.toNat, 1)

/-- The integer part of a finite double, toward zero. -/
def truncate? : Binary64 → Option Int
  | .finite negative m e _ =>
      let (n, d) := magnitude m e
      let whole : Int := (n / d : Nat)
      some (if negative then -whole else whole)
  | _ => none

/-- Whether a finite double is an integer. -/
def isIntegral : Binary64 → Bool
  | .finite _ m e _ =>
      let (n, d) := magnitude m e
      n % d == 0
  | _ => false

end Binary64

end StakeLedger
