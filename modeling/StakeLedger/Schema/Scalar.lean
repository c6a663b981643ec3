import StakeLedger.Schema.Fault
import StakeLedger.Json.Reader
import StakeLedger.Json.Writer
import StakeLedger.Decimal.Numeral

/-!
# Lenient readers of scalars

Scalars are read leniently: a number may be given as text, a whole number as a
truth value or as a decimal without fraction, a truth value as a number or a
word.  Text is never made from anything else.

Main definitions:

- {lit}`Schema.int`, {lit}`Schema.real`, {lit}`Schema.bool`, {lit}`Schema.text`: the readers.
- {lit}`Schema.intWithin`: whole numbers between two bounds.
-/

namespace StakeLedger.Schema

/-- Text. -/
def text : Value → Checked String
  | .text s => .ok s
  | .octets => .fail .stringUnicode
  | _ => .fail .stringType

/-- A decimal that stands for a whole number: finite, without fraction, and
below 2 ^ 63 in size. -/
def intOfReal (x : Binary64) : Checked Int :=
  match x.truncate? with
  | none => .fail .finiteNumber
  | some n =>
      if x.isIntegral then
        if n.natAbs < 0x8000000000000000 then .ok n else .fail .intParsingSize
      else .fail .intFromFloat

/-- A whole number of any size; one in text must not be longer than a document
may hold. -/
def int : Value → Checked Int
  | .int n => .ok n
  | .bool b => .ok b.toNat
  | .real x => intOfReal x
  | .text s =>
      match Numeral.wholeInt? (Blank.trim Blank.isWhite s.toList) with
      | some n =>
          if (Json.writeInt n).length ≤ Json.longestWhole then .ok n else .fail .intParsingSize
      | none => .fail .intParsing
  | .octets => .fail .intParsing
  | _ => .fail .intType

/-- A whole number that is neither below one bound nor above another. -/
def intWithin (low high : Int) (v : Value) : Checked Int :=
  match int v with
  | .error faults => .error faults
  | .ok n =>
      if n < low then .fail .tooSmall
      else if high < n then .fail .tooLarge
      else .ok n

/-- A number; a whole one must not be too large for a decimal. -/
def real : Value → Checked Binary64
  | .real x => .ok x
  | .int n =>
      match Binary64.ofInt n with
      | .infinite _ => .fail .floatType
      | x => .ok x
  | .bool b => .ok (Binary64.ofInt b.toNat)
  | .text s =>
      match Numeral.real? (Blank.trim Blank.isWhite s.toList) with
      | some x => .ok x
      | none => .fail .floatParsing
  | .octets => .fail .floatParsing
  | _ => .fail .floatType

/-- The truth value of a number: one and zero have one. -/
def boolOfInt (n : Int) : Checked Bool :=
  if n = 0 then .ok false
  else if n = 1 then .ok true
  else .fail .boolParsing

/-- The words for false and for true. -/
def falseWords : List String :=
  ["0", "off", "f", "false", "n", "no"]

/-- The words for true. -/
def trueWords : List String :=
  ["1", "on", "t", "true", "y", "yes"]

/-- A truth value. -/
def bool : Value → Checked Bool
  | .bool b => .ok b
  | .int n => if n.natAbs < 0x8000000000000000 then boolOfInt n else .fail .boolType
  | .real x =>
      match intOfReal x with
      | .ok n => boolOfInt n
      | .error _ => .fail .boolType
  | .text s =>
      let word := String.ofList (s.toList.map Char.toLower)
      if falseWords.contains word then .ok false
      else if trueWords.contains word then .ok true
      else .fail .boolParsing
  | _ => .fail .boolType

/-- The members of a list. -/
def list {α : Type} (read : Value → Checked α) : Value → Checked (List α)
  | .list items => Checked.each read 0 items
  | _ => .fail .listType

/-- Nothing, or what a reader makes of the value. -/
def nullable {α : Type} (read : Value → Checked α) : Value → Checked (Option α)
  | .null => .ok none
  | v => (read v).map some

/-! ## Members of a dictionary -/

/-- The members of a dictionary. -/
def fields {α : Type} (read : Fields → Checked α) : Value → Checked α
  | .dict fields => read fields
  | _ => .fail .modelType

/-- A member that must be there. -/
def required {α : Type} (fields : Fields) (key : String) (read : Value → Checked α) :
    Checked α :=
  match Fields.get? fields key with
  | none => .error [⟨[key], .missing⟩]
  | some v => (read v).within key

/-- A member with a value to use where it is missing. -/
def withDefault {α : Type} (fields : Fields) (key : String) (default : α)
    (read : Value → Checked α) : Checked α :=
  match Fields.get? fields key with
  | none => .ok default
  | some v => (read v).within key

/-- Faults for all members but some known ones. -/
def onlyKeys (fields : Fields) (known : List String) : Checked Unit :=
  match fields.filter fun pair => !known.contains pair.1 with
  | [] => .ok ()
  | extra => .error (extra.map fun pair => ⟨[pair.1], .extraForbidden⟩)

end StakeLedger.Schema
