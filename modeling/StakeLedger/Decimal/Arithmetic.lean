import StakeLedger.Decimal.Binary64

/-!
# Sums and products of doubles

Each is the double nearest to the exact result.  A product with an infinity and a
zero and a sum of two opposite infinities are no numbers.

Main definitions:

- {lit}`Binary64.ofDyadic`: the double nearest to a multiple of a power of two.
- {lit}`Binary64.mul`, {lit}`Binary64.add`: products and sums.
-/

namespace StakeLedger.Binary64

/-- The double nearest to {lit}`n · 2 ^ e`, with a sign of its own for zero. -/
def ofDyadic (zeroNegative : Bool) (n : Int) (e : Int) : Binary64 :=
  if n = 0 then zero zeroNegative
  else
    let (num, den) := magnitude n.natAbs e
    ofRatio (n < 0) num den

/-- Whether the sign of a double is set. -/
def sign : Binary64 → Bool
  | .finite negative _ _ _ => negative
  | .infinite negative => negative
  | .nan => false

/-- A magnitude with its sign. -/
def signedNat (negative : Bool) (m : Nat) : Int :=
  if negative then -(m : Int) else m

/-- The product of two doubles. -/
def mul (x y : Binary64) : Binary64 :=
  let negative := x.sign != y.sign
  match x, y with
  | .nan, _ => .nan
  | _, .nan => .nan
  | .infinite _, y => if y.isZero then .nan else .infinite negative
  | x, .infinite _ => if x.isZero then .nan else .infinite negative
  | .finite _ m e _, .finite _ n f _ => ofDyadic negative (signedNat negative (m * n)) (e + f)

/-- The sum of two doubles. -/
def add (x y : Binary64) : Binary64 :=
  match x, y with
  | .nan, _ => .nan
  | _, .nan => .nan
  | .infinite a, .infinite b => if a = b then .infinite a else .nan
  | .infinite a, _ => .infinite a
  | _, .infinite b => .infinite b
  | .finite a m e _, .finite b n f _ =>
      let least := min e f
      let sum := signedNat a (m <<< (e - least).toNat) + signedNat b (n <<< (f - least).toNat)
      ofDyadic (a && b) sum least

end StakeLedger.Binary64
