import StakeLedger.Text.Classes
import StakeLedger.Decimal.Binary64

/-!
# Numbers in text

Readers of numerals.  Digits are those of ASCII, and an underscore may stand
between two of them.  Long whole numbers are neither written nor read in base ten where that
would take too much time.

Main definitions:

- {lit}`Numeral.IsShort`: whole numbers that are written.
- {lit}`Numeral.wholeInt?`: a signed whole number, with a point and zeros after it.
- {lit}`Numeral.real?`: a signed decimal with exponent, an infinity or no number.
-/

namespace StakeLedger.Numeral

/-- Whether a character is a digit of ASCII. -/
def isDigit (c : Char) : Bool :=
  '0' ≤ c && c ≤ '9'

/-- The value of digits read from the left, in a base up to thirty-six. -/
def valueIn (base : Nat) (digits : List Char) : Nat :=
  digits.foldl (fun n c =>
    let d := if isDigit c then c.toNat - 48 else c.toLower.toNat - 87
    base * n + d) 0

/-- The value of decimal digits. -/
def value (digits : List Char) : Nat :=
  valueIn 10 digits

/-- The most digits with which whole numbers are written and read in base ten. -/
def mostDigits : Nat := 4300

/-- Whether a whole number has no more digits than that. -/
def IsShort (n : Int) : Prop :=
  (Nat.toDigits 10 n.natAbs).length ≤ mostDigits

instance (n : Int) : Decidable (IsShort n) :=
  inferInstanceAs (Decidable ((Nat.toDigits 10 n.natAbs).length ≤ mostDigits))

/-- What is said of a whole number that is too long to be written. -/
def tooLongMessage : String :=
  s!"Exceeds the limit ({mostDigits} digits) for integer string conversion; " ++
    "use sys.set_int_max_str_digits() to increase the limit"

/-- A text without the underscores between two digits; any other underscore is
an error. -/
def join? (afterDigit : Bool) : List Char → Option (List Char)
  | [] => some []
  | c :: rest =>
      if c = '_' then
        if afterDigit && (rest.head?.map isDigit).getD false then join? false rest else none
      else (join? (isDigit c) rest).map (c :: ·)

/-- Whether a sign stands first, and the text after it. -/
def sign : List Char → Bool × List Char
  | '-' :: rest => (true, rest)
  | '+' :: rest => (false, rest)
  | text => (false, text)

/-- The whole number of a sign and digits. -/
def signed (negative : Bool) (digits : List Char) : Int :=
  if negative then -(value digits : Int) else value digits

/-- A signed whole number, after which a point and zeros may stand. -/
def wholeInt? (text : List Char) : Option Int := do
  let (negative, rest) := sign (← join? false text)
  let whole := rest.takeWhile isDigit
  let tail := rest.dropWhile isDigit
  if whole = [] then none
  else
    match tail with
    | [] => some (signed negative whole)
    | '.' :: zeros =>
        if zeros ≠ [] ∧ zeros.all (· = '0') then some (signed negative whole) else none
    | _ => none

/-- The exponent after the digits of a decimal, which may be missing. -/
def exponent? : List Char → Option Int
  | [] => some 0
  | c :: rest =>
      if c = 'e' ∨ c = 'E' then
        let (negative, digits) := sign rest
        if digits ≠ [] ∧ digits.all isDigit then some (signed negative digits) else none
      else none

/-- A decimal without sign, underscores or blanks: digits before or after a
point, and an exponent. -/
def decimal? (negative : Bool) (text : List Char) : Option Binary64 := do
  let whole := text.takeWhile isDigit
  let tail := text.dropWhile isDigit
  let fraction := match tail with
    | '.' :: rest => rest.takeWhile isDigit
    | _ => []
  let rest := match tail with
    | '.' :: rest => rest.dropWhile isDigit
    | _ => tail
  if whole = [] ∧ fraction = [] then none
  else
    let exponent ← exponent? rest
    some (Binary64.ofDecimal negative (value (whole ++ fraction)) (exponent - fraction.length))

/-- A signed decimal, an infinity or no number, without blanks. -/
def real? (text : List Char) : Option Binary64 := do
  let (negative, rest) := sign (← join? false text)
  let word := rest.map Char.toLower
  if word = "inf".toList ∨ word = "infinity".toList then some (.infinite negative)
  else if word = "nan".toList then some .nan
  else decimal? negative rest

end StakeLedger.Numeral
