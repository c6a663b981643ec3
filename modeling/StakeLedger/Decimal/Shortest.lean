import StakeLedger.Decimal.Binary64

/-!
# Shortest decimals

The shortest decimal of a double is the one with the fewest digits that reads
back as it, and of those the nearest.  On the grid of a given number of digits
only the two neighbours of the value can be nearest, so these two are tried, on
ever finer grids; the exact expansion stands at the end of the search.

Main definitions:

- {lit}`Decimal`: digits and a power of ten.
- {lit}`Binary64.shortest`: the shortest decimal of a finite magnitude.

Main results:

- Theorem {lit}`Binary64.shortest_readsBack`: the shortest decimal reads back when the
  exact expansion does.
-/

namespace StakeLedger

/-- The number {lit}`digits · 10 ^ exponent`. -/
structure Decimal where
  digits : Nat
  exponent : Int
deriving DecidableEq

namespace Decimal

/-- A decimal without zeros at the end of its digits, within a number of steps. -/
def strip : Nat → Decimal → Decimal
  | 0, d => d
  | steps + 1, d =>
      if d.digits ≠ 0 ∧ d.digits % 10 = 0 then strip steps ⟨d.digits / 10, d.exponent + 1⟩
      else d

/-- Whether a decimal reads back as a given magnitude. -/
def ReadsBack (d : Decimal) (m : Nat) (e : Int) : Prop :=
  Binary64.ofDecimal false d.digits d.exponent = Binary64.ofMagnitude false m e

instance (d : Decimal) (m : Nat) (e : Int) : Decidable (d.ReadsBack m e) := by
  unfold ReadsBack
  infer_instance

end Decimal

namespace Binary64

/-- The least {lit}`k` from a start on with {lit}`den ≤ num · 10 ^ k`, within a
number of steps. -/
def leadingZeros : Nat → Nat → Nat → Nat
  | 0, _, _ => 0
  | steps + 1, num, den => if den ≤ num then 0 else 1 + leadingZeros steps (num * 10) den

/-- How many digits {lit}`num / den` has before the point; one below one-tenth
has less than none. -/
def pointOf (num den : Nat) : Int :=
  if den ≤ num then (digitCount (num / den) : Int)
  else 1 - (leadingZeros 400 num den : Int)

/-- The two neighbours of {lit}`num / den` among the multiples of
{lit}`10 ^ exponent`, the nearer one first and the even one of two as near. -/
def neighbours (num den : Nat) (exponent : Int) : List Decimal :=
  let (n, d) :=
    if exponent < 0 then (num * Nat.pow 10 (-exponent).toNat, den)
    else (num, den * Nat.pow 10 exponent.toNat)
  let below := n / d
  if roundHalfEven n d = below then [⟨below, exponent⟩, ⟨below + 1, exponent⟩]
  else [⟨below + 1, exponent⟩, ⟨below, exponent⟩]

/-- The exact decimal of a magnitude. -/
def expansion (m : Nat) (e : Int) : Decimal :=
  if e < 0 then ⟨m * Nat.pow 5 (-e).toNat, e⟩ else ⟨m <<< e.toNat, 0⟩

/-- The decimal with the fewest digits that reads back as a magnitude, and of
those the nearest. -/
def shortest (m : Nat) (e : Int) : Decimal :=
  let (num, den) := magnitude m e
  let point := pointOf num den
  let found := (List.range 17).findSome? fun i =>
    (neighbours num den (point - (i + 1 : Nat))).find? fun d => decide (d.ReadsBack m e)
  found.getD (expansion m e)

/-- Whatever the search finds reads back; only the expansion needs an argument
of its own. -/
theorem shortest_readsBack (m : Nat) (e : Int)
    (hexact : (expansion m e).ReadsBack m e) : (shortest m e).ReadsBack m e := by
  unfold shortest
  dsimp only
  generalize hfound : (List.range 17).findSome? _ = found
  cases found with
  | none => exact hexact
  | some d =>
      obtain ⟨i, -, hi⟩ := List.exists_of_findSome?_eq_some hfound
      have htest : decide (d.ReadsBack m e) = true := by
        simpa using List.find?_some hi
      exact of_decide_eq_true htest

end Binary64

end StakeLedger
