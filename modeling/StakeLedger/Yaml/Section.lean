import StakeLedger.Value
import StakeLedger.Decimal.Layout
import StakeLedger.Yaml.Style

/-!
# Written sections

A section is a name with members below it: numbers, texts and lists of texts.  It
is written as a mapping in block style, two columns in, if no number in it is too long to be
written.

Main definitions:

- {lit}`Yaml.Entry`: what stands under the name of a member.
- {lit}`Yaml.Section`: a section, with {lit}`Yaml.Section.toValue`, its value, and
  {lit}`Yaml.Section.write`, its text.
- {lit}`Yaml.Section.dump?`: the same, unless a number is too long.
-/

namespace StakeLedger

/-- The spelling of doubles in YAML, where an exponent needs a point before it. -/
def Layout.yaml : Layout where
  least := -4
  most := 16
  pointBeforeExponent := true
  infinity := ".inf"
  negativeInfinity := "-.inf"
  notANumber := ".nan"

namespace Yaml

/-- What stands under the name of a member. -/
inductive Entry where
  | int (n : Int)
  | real (x : Binary64)
  | text (s : String)
  | texts (items : List String)
deriving DecidableEq

/-- Whether an entry can be written: a whole number must be short enough. -/
def Entry.IsShort : Entry → Prop
  | .int n => Numeral.IsShort n
  | _ => True

instance (entry : Entry) : Decidable entry.IsShort :=
  match entry with
  | .int n => inferInstanceAs (Decidable (Numeral.IsShort n))
  | .real _ => isTrue trivial
  | .text _ => isTrue trivial
  | .texts _ => isTrue trivial

/-- The value of an entry. -/
def Entry.toValue : Entry → Value
  | .int n => .int n
  | .real x => .real x
  | .text s => .text s
  | .texts items => .list (items.map .text)

/-- A section: a name with members below it. -/
structure Section where
  name : String
  members : List (String × Entry)
deriving DecidableEq

namespace Section

/-- The members of a section with their values. -/
def fields (s : Section) : Fields :=
  s.members.map fun (key, entry) => (key, entry.toValue)

/-- The value of a document that has a single section. -/
def toValue (s : Section) : Value :=
  .dict [(s.name, .dict s.fields)]

/-- A line two columns in: what it begins with, and a text or a number behind a
blank. -/
def line (start : List Char) (rest : Nat → List Char) : List Char :=
  ' ' :: ' ' :: start ++ ' ' :: rest (start.length + 3) ++ ['\n']

/-- The lines of a member. -/
def writeMember (key : String) (entry : Entry) : List Char :=
  let start := key.toList ++ [':']
  match entry with
  | .int n => line start fun _ => (toString n).toList
  | .real x => line start fun _ => Layout.yaml.write x
  | .text s => line start fun column => Style.spell column s.toList
  | .texts [] => line start fun _ => ['[', ']']
  | .texts items =>
      ' ' :: ' ' :: start ++ '\n' ::
        items.flatMap fun item => line ['-'] fun column => Style.spell column item.toList

/-- The text of a document that has a single section. -/
def write (s : Section) : String :=
  String.ofList (s.name.toList ++ ':' :: '\n' ::
    s.members.flatMap fun (key, entry) => writeMember key entry)

/-- The text of a document that has a single section, if all of its entries can be written.  This
is known before the first line is. -/
def dump? (s : Section) : Option String :=
  if ∀ member ∈ s.members, member.2.IsShort then some s.write else none

end Section

end Yaml

end StakeLedger
