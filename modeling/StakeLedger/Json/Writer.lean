import StakeLedger.Value
import StakeLedger.Text.Hex
import StakeLedger.Decimal.Layout

/-!
# Writing JSON documents

Documents are written without blanks.  A string is written either with escapes
for everything outside printable ASCII, or with escapes for control characters
only.

Main definitions:

- {lit}`Json.Charset`: which characters are written as they are.
- {lit}`Json.write`: the text of a value.
-/

namespace StakeLedger.Json

/-- Which characters of a string are written as they are. -/
inductive Charset where
  /-- Printable ASCII. -/
  | ascii
  /-- Everything but control characters. -/
  | unicode
deriving DecidableEq

/-- The escape of a UTF-16 unit. -/
def unitEscape (n : Nat) : List Char :=
  '\\' :: 'u' :: Hex.padded 4 n

/-- The escape of a character by its UTF-16 units. -/
def charEscape (c : Char) : List Char :=
  let n := c.toNat
  if n < 0x10000 then unitEscape n
  else
    unitEscape (0xD800 + (n - 0x10000) / 1024) ++ unitEscape (0xDC00 + (n - 0x10000) % 1024)

/-- One character inside a string. -/
def writeChar (charset : Charset) (c : Char) : List Char :=
  if c = '\x22' then ['\\', '\x22']
  else if c = '\\' then ['\\', '\\']
  else if c = '\n' then ['\\', 'n']
  else if c = '\r' then ['\\', 'r']
  else if c = '\t' then ['\\', 't']
  else if c = '\x08' then ['\\', 'b']
  else if c = '\x0c' then ['\\', 'f']
  else if c.toNat < 0x20 then charEscape c
  else if charset = .ascii ∧ 0x7E < c.toNat then charEscape c
  else [c]

/-- A string between quotation marks. -/
def writeText (charset : Charset) (s : String) : List Char :=
  '\x22' :: (s.toList.flatMap (writeChar charset) ++ ['\x22'])

/-- A whole number. -/
def writeInt (n : Int) : List Char :=
  let digits := Nat.toDigits 10 n.natAbs
  if n < 0 then '-' :: digits else digits

/-- The spelling of numbers with a fraction or an exponent. -/
def numbers : Layout :=
  { Layout.answer with
    infinity := "Infinity"
    negativeInfinity := "-Infinity"
    notANumber := "NaN" }

/-- Texts with commas between them. -/
def separated : List (List Char) → List Char
  | [] => []
  | [t] => t
  | t :: rest => t ++ ',' :: separated rest

mutual

/-- The text of a value. -/
def write (charset : Charset) : Value → List Char
  | .null => "null".toList
  | .bool true => "true".toList
  | .bool false => "false".toList
  | .int n => writeInt n
  | .real x => numbers.write x
  | .text s => writeText charset s
  | .list items => '[' :: (separated (writeItems charset items) ++ [']'])
  | .dict fields => '\x7b' :: (separated (writeFields charset fields) ++ ['\x7d'])
  | .octets => "null".toList
  | .other => "null".toList

/-- The texts of the items of a list. -/
def writeItems (charset : Charset) : List Value → List (List Char)
  | [] => []
  | v :: rest => write charset v :: writeItems charset rest

/-- The texts of the pairs of a dictionary. -/
def writeFields (charset : Charset) : List (String × Value) → List (List Char)
  | [] => []
  | (key, v) :: rest =>
      (writeText charset key ++ ':' :: write charset v) :: writeFields charset rest

end

/-- The text of a value with everything outside printable ASCII escaped. -/
def ascii (v : Value) : String :=
  String.ofList (write .ascii v)

/-- The text of a value with control characters escaped. -/
def render (v : Value) : String :=
  String.ofList (write .unicode v)

end StakeLedger.Json
