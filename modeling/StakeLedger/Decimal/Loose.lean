import StakeLedger.Decimal.Numeral
import StakeLedger.Text.Hex
import StakeLedger.Text.Classes

/-!
# Loosely written numbers

Where a person types a number, blanks around it, digits of any script and
underscores between digits are accepted, and a number in another base than ten
may begin with the letter of its base.  In base ten there may not be too many digits.

Main definitions:

- {lit}`Loose.read`: a whole number in a base, or why there is none.
- {lit}`Loose.real?`: a decimal.
-/

namespace StakeLedger.Loose

/-- A digit of any script as one of ASCII; other characters stay. -/
def plainDigit (c : Char) : Char :=
  match Digit.value? c with
  | some d => Char.ofNat (48 + d)
  | none => c

/-- A text without blanks around it, in digits of ASCII. -/
def plain (text : List Char) : List Char :=
  (Blank.trim Blank.isSpace text).map plainDigit

/-- The value of a digit in a base up to sixteen. -/
def digit? (base : Nat) (c : Char) : Option Nat :=
  match Hex.value? c with
  | some d => if d < base then some d else none
  | none => none

/-- The letter that numbers in a base may begin with behind a zero. -/
def letter? : Nat → Option Char
  | 2 => some 'b'
  | 8 => some 'o'
  | 16 => some 'x'
  | _ => none

/-- The text behind a zero and the letter of a base; an underscore may follow
them. -/
def withoutLetter (base : Nat) (text : List Char) : List Char :=
  match text with
  | '0' :: c :: rest =>
      if letter? base = some c.toLower then
        match rest with
        | '_' :: rest => rest
        | _ => rest
      else text
  | _ => text

/-- The digits that a text begins with, with single underscores between them, and the text behind
them. -/
def digits? (base : Nat) : List Char → Option (List Nat × List Char)
  | [] => none
  | c :: rest =>
      match digit? base c, rest with
      | none, _ => none
      | some d, '_' :: rest => (digits? base rest).map fun (ds, tail) => (d :: ds, tail)
      | some d, rest =>
          if (rest.head?.bind (digit? base)).isSome then
            (digits? base rest).map fun (ds, tail) => (d :: ds, tail)
          else some ([d], rest)

/-- Why a text is no whole number. -/
inductive Fault where
  | malformed
  | tooLong (digits : Nat)
deriving DecidableEq, Repr

/-- A whole number in a base.  Where the base is no power of two the digits are counted before
what stands behind them is looked at. -/
def read (base : Nat) (text : List Char) : Except Fault Int :=
  let (negative, rest) := Numeral.sign (plain text)
  match digits? base (withoutLetter base rest) with
  | none => .error .malformed
  | some (ds, tail) =>
      if (letter? base).isNone ∧ Numeral.mostDigits < ds.length then .error (.tooLong ds.length)
      else if tail ≠ [] then .error .malformed
      else
        let n : Int := (ds.foldl (fun n d => base * n + d) 0 : Nat)
        .ok (if negative then -n else n)

/-- A decimal. -/
def real? (text : List Char) : Option Binary64 :=
  Numeral.real? (plain text)

end StakeLedger.Loose
