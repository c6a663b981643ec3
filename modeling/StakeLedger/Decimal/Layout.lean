import StakeLedger.Decimal.Shortest

/-!
# Written doubles

A layout says how the shortest decimal of a double is spelled: between which
powers of ten it is written in positions, how an exponent looks, and what stands
for an infinity or for no number.

Main definitions:

- {lit}`Layout`: the decisions of one spelling.
- {lit}`Layout.write`: the text of a double in a layout.
-/

namespace StakeLedger

/-- How doubles are spelled. -/
structure Layout where
  /-- Positions are used if the point stands after more than this many digits. -/
  least : Int
  /-- Positions are used if the point stands after at most this many digits. -/
  most : Int
  /-- Whether a point and a zero follow a single digit before an exponent. -/
  pointBeforeExponent : Bool
  infinity : String
  negativeInfinity : String
  notANumber : String

namespace Layout

/-- Zeros. -/
def zeros (n : Nat) : List Char :=
  List.replicate n '0'

/-- Digits with a point after {lit}`point` of them, filled up by zeros. -/
def positional (digits : List Char) (point : Int) : List Char :=
  if point ≤ 0 then '0' :: '.' :: (zeros (-point).toNat ++ digits)
  else if digits.length ≤ point.toNat then
    digits ++ zeros (point.toNat - digits.length) ++ ['.', '0']
  else digits.take point.toNat ++ '.' :: digits.drop point.toNat

/-- An exponent of at least two digits after its sign. -/
def exponentText (n : Int) : List Char :=
  let digits := Nat.toDigits 10 n.natAbs
  'e' :: (if n < 0 then '-' else '+') :: (zeros (2 - digits.length) ++ digits)

/-- One digit, the others after a point, and an exponent. -/
def scientific (layout : Layout) (digits : List Char) (point : Int) : List Char :=
  let fraction := digits.drop 1
  let tail :=
    if fraction = [] then if layout.pointBeforeExponent then ['.', '0'] else []
    else '.' :: fraction
  digits.take 1 ++ tail ++ exponentText (point - 1)

/-- A decimal without sign. -/
def writeDecimal (layout : Layout) (d : Decimal) : List Char :=
  let d := d.strip 800
  let digits := Nat.toDigits 10 d.digits
  if d.digits = 0 then ['0', '.', '0']
  else
    let point := d.exponent + digits.length
    if layout.least < point ∧ point ≤ layout.most then positional digits point
    else layout.scientific digits point

/-- The text of a double. -/
def write (layout : Layout) : Binary64 → List Char
  | .finite negative m e _ =>
      (if negative then ['-'] else []) ++
        (if m = 0 then ['0', '.', '0'] else layout.writeDecimal (Binary64.shortest m e))
  | .infinite false => layout.infinity.toList
  | .infinite true => layout.negativeInfinity.toList
  | .nan => layout.notANumber.toList

/-- The spelling of answers: positions from 10 ^ -4 up to below 10 ^ 16. -/
def answer : Layout where
  least := -4
  most := 16
  pointBeforeExponent := false
  infinity := "inf"
  negativeInfinity := "-inf"
  notANumber := "nan"

end Layout

/-- The text of a double as answers spell it. -/
def Binary64.text (x : Binary64) : String :=
  String.ofList (Layout.answer.write x)

end StakeLedger
