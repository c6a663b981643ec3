import StakeLedger.Text.Hex
import StakeLedger.Text.Pieces
import StakeLedger.Yaml.Time

/-!
# Kinds of YAML values

A node says what it is by a tag, or a plain scalar shows it by its form.  The
forms are those of version 1.1: words for truth values, numbers in four bases or
in groups of sixty, and dates.

Main definitions:

- {lit}`Yaml.Kind`, {lit}`Yaml.Tag`: what a node can be.
- {lit}`Yaml.Kind.ofPlain`: what a plain scalar is by its form.
-/

namespace StakeLedger.Yaml

/-- What a node can be. -/
inductive Kind where
  | null
  | bool
  | int
  | real
  | binary
  | time
  | orderedMap
  | pairs
  | set
  | text
  | sequence
  | mapping
  | merge
  | value
deriving DecidableEq, Repr

/-- All kinds. -/
def Kind.all : List Kind :=
  [.null, .bool, .int, .real, .binary, .time, .orderedMap, .pairs, .set, .text, .sequence,
    .mapping, .merge, .value]

/-- The last part of the tag of a kind. -/
def Kind.name : Kind → String
  | .null => "null"
  | .bool => "bool"
  | .int => "int"
  | .real => "float"
  | .binary => "binary"
  | .time => "timestamp"
  | .orderedMap => "omap"
  | .pairs => "pairs"
  | .set => "set"
  | .text => "str"
  | .sequence => "seq"
  | .mapping => "map"
  | .merge => "merge"
  | .value => "value"

/-- What the tags of all kinds begin with. -/
def tagStem : String := "tag:yaml.org,2002:"

/-- The tag of a kind. -/
def Kind.uri (k : Kind) : String :=
  tagStem ++ k.name

/-- What a node says it is: one of the kinds, or something that is not known
here. -/
inductive Tag where
  | known (k : Kind)
  | unknown (uri : String)
deriving DecidableEq, Repr

/-- The tag of a URI. -/
def Tag.ofUri (uri : String) : Tag :=
  match Kind.all.find? fun k => k.uri == uri with
  | some k => .known k
  | none => .unknown uri

/-! ## Forms of plain scalars -/

/-- Whether a text is not empty and all its characters pass a test. -/
def allOf (test : Char → Bool) (text : List Char) : Bool :=
  !text.isEmpty && text.all test

/-- A digit, or an underscore between groups of them. -/
def isGrouped (c : Char) : Bool :=
  c.isDigit || c == '_'

/-- The text behind a sign. -/
def unsigned : List Char → List Char
  | '-' :: rest => rest
  | '+' :: rest => rest
  | text => text

/-- The words without a value. -/
def nullWords : List String :=
  ["", "~", "null", "Null", "NULL"]

/-- The words for truth values. -/
def truthForms : List String :=
  ["yes", "Yes", "YES", "no", "No", "NO", "true", "True", "TRUE", "false", "False", "FALSE",
    "on", "On", "ON", "off", "Off", "OFF"]

/-- The words for an infinity. -/
def infinityForms : List String :=
  ["inf", "Inf", "INF"]

/-- The words for no number. -/
def nanForms : List String :=
  ["nan", "NaN", "NAN"]

/-- A number from zero to fifty-nine in one or two digits. -/
def isSixtieth : List Char → Bool
  | [a] => a.isDigit
  | [a, b] => '0' ≤ a && a ≤ '5' && b.isDigit
  | _ => false

/-- Digits, then groups of sixty behind colons, at least one of them. -/
def isSexagesimal (leading : Char → Bool) (text : List Char) : Bool :=
  match pieces ':' text with
  | first :: second :: others =>
      (first.head?.map leading).getD false && first.all isGrouped &&
        (second :: others).all isSixtieth
  | _ => false

/-- Whether a character is a digit other than zero. -/
def isPositive (c : Char) : Bool :=
  '1' ≤ c && c ≤ '9'

/-- Whether a text has the form of a whole number. -/
def isInt (text : List Char) : Bool :=
  match unsigned text with
  | '0' :: 'b' :: digits => allOf (fun c => c == '0' || c == '1' || c == '_') digits
  | '0' :: 'x' :: digits => allOf (fun c => Hex.isDigit c || c == '_') digits
  | '0' :: digits => digits.all fun c => ('0' ≤ c && c ≤ '7') || c == '_'
  | c :: rest =>
      (isPositive c && rest.all isGrouped) || isSexagesimal isPositive (c :: rest)
  | [] => false

/-- Whether a text is an exponent with a sign, or nothing. -/
def isExponent : List Char → Bool
  | [] => true
  | e :: sign :: digits =>
      (e == 'e' || e == 'E') && (sign == '-' || sign == '+') && allOf Char.isDigit digits
  | _ => false

/-- Whether a text has the form of a number with a point. -/
def isReal (text : List Char) : Bool :=
  let body := unsigned text
  let whole := body.takeWhile (· ≠ '.')
  match body.drop whole.length with
  | [] => false
  | _ :: fraction =>
      let tail := fraction.dropWhile isGrouped
      let word := String.ofList fraction
      if whole.isEmpty then
        infinityForms.contains word ||
          (body.length = text.length && (nanForms.contains word ||
            ((fraction.head?.map Char.isDigit).getD false && isExponent tail)))
      else
        ((whole.head?.map Char.isDigit).getD false && whole.all isGrouped && isExponent tail) ||
          (isSexagesimal Char.isDigit whole && tail.isEmpty)

/-- What a plain scalar is by its form. -/
def Kind.ofPlain (text : List Char) : Kind :=
  if truthForms.contains (String.ofList text) then .bool
  else if isReal text then .real
  else if isInt text then .int
  else if text = ['<', '<'] then .merge
  else if nullWords.contains (String.ofList text) then .null
  else if isTime text then .time
  else if text = ['='] then .value
  else .text

end StakeLedger.Yaml
