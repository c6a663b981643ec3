import StakeLedger.Calendar
import StakeLedger.Decimal.Numeral
import StakeLedger.Text.Hex
import StakeLedger.Text.Printable

/-!
# Faults of YAML documents

A text is refused as a document, or one of its scalars has no value of the kind
that it asks for.  Of a refusal the first line is kept: what was being read, or
what was wrong where that says enough.

Main definitions:

- {lit}`Yaml.Context`: what was being read.
- {lit}`Yaml.ScalarFault`: why a scalar has no value.
- {lit}`Yaml.Fault`: why a text is refused, with {lit}`Yaml.Fault.headline`.
-/

namespace StakeLedger.Yaml

/-- What was being read when a fault was found. -/
inductive Context where
  | nextToken
  | simpleKey
  | directive
  | anchor
  | alias
  | tag
  | blockScalar
  | quotedScalar
  | doubleQuotedScalar
  | tagUri
  | directiveUri
  | node
  | blockNode
  | flowNode
  | blockCollection
  | blockMapping
  | flowSequence
  | flowMapping
  | mapping
  | orderedMap
  | pairs
deriving DecidableEq, Repr

/-- How a context is named. -/
def Context.phrase : Context → String
  | .nextToken => "while scanning for the next token"
  | .simpleKey => "while scanning a simple key"
  | .directive => "while scanning a directive"
  | .anchor => "while scanning an anchor"
  | .alias => "while scanning an alias"
  | .tag => "while scanning a tag"
  | .blockScalar => "while scanning a block scalar"
  | .quotedScalar => "while scanning a quoted scalar"
  | .doubleQuotedScalar => "while scanning a double-quoted scalar"
  | .tagUri => "while parsing a tag"
  | .directiveUri => "while parsing a directive"
  | .node => "while parsing a node"
  | .blockNode => "while parsing a block node"
  | .flowNode => "while parsing a flow node"
  | .blockCollection => "while parsing a block collection"
  | .blockMapping => "while parsing a block mapping"
  | .flowSequence => "while parsing a flow sequence"
  | .flowMapping => "while parsing a flow mapping"
  | .mapping => "while constructing a mapping"
  | .orderedMap => "while constructing an ordered map"
  | .pairs => "while constructing pairs"

/-- Why a scalar has no value of the kind that it asks for. -/
inductive ScalarFault where
  | integer (base : Nat) (text : String)
  /-- A whole number in base ten with so many digits. -/
  | digits (count : Nat)
  | real (text : String)
  | truth (text : String)
  | empty
  | time
  | date (fault : Calendar.Fault)
  | character (code : Nat)
deriving DecidableEq, Repr

/-- What is said of a scalar without value.  Of a long text for a whole number only the first
characters are shown. -/
def ScalarFault.message : ScalarFault → String
  | .integer base text =>
      s!"invalid literal for int() with base {base}: " ++
        String.ofList ((Printable.quoted text).toList.take 200)
  | .digits count =>
      s!"Exceeds the limit ({Numeral.mostDigits} digits) for integer string conversion: " ++
        s!"value has {count} digits; use sys.set_int_max_str_digits() to increase the limit"
  | .real text => s!"could not convert string to float: {Printable.quoted text}"
  | .truth text => Printable.quoted text
  | .empty => "string index out of range"
  | .time => "'NoneType' object has no attribute 'groupdict'"
  | .date fault => fault.message
  | .character code =>
      if code < 0x80000000 then "chr() arg not in range(0x110000)"
      else "Python int too large to convert to C int"

/-- Whether a fault is foreseen where documents are read: a text that is no value
of its kind.  Other faults are met only on the way. -/
def ScalarFault.isForeseen : ScalarFault → Bool
  | .integer _ _ => true
  | .digits _ => true
  | .real _ => true
  | .date _ => true
  | .character code => code < 0x80000000
  | .truth _ => false
  | .empty => false
  | .time => false

/-- Why a text is refused. -/
inductive Fault where
  | unprintable (c : Char)
  | within (context : Context)
  | sequenceEntry
  | mappingKey
  | mappingValue
  | documentStart (found : String)
  | repeatedDirective
  | version
  | repeatedHandle (handle : String)
  | undefinedAlias (name : String)
  | repeatedAnchor (name : String)
  | secondDocument
  | unknownTag (tag : String)
  | kind (expected found : String)
  /-- Octets in base64 with other characters than those of ASCII from a position on. -/
  | notAscii (position : Nat) (chars : List Char)
  | padding
  /-- Octets in base64 with a digit too many. -/
  | digitTooMany (digits : Nat)
  | scalar (fault : ScalarFault)
deriving DecidableEq, Repr

/-- What is said of characters that are not of ASCII. -/
def notAsciiMessage (position : Nat) (chars : List Char) : String :=
  let which :=
    match chars with
    | [c] => s!"character '{String.ofList (Printable.numbered c)}' in position {position}"
    | _ => s!"characters in position {position}-{position + chars.length - 1}"
  "failed to convert base64 data into ascii: 'ascii' codec can't encode " ++
    s!"{which}: ordinal not in range(128)"

/-- The first line that is said of a fault. -/
def Fault.headline : Fault → String
  | .unprintable c =>
      let code := String.ofList (Hex.padded 4 c.toNat)
      s!"unacceptable character #x{code}: special characters are not allowed"
  | .within context => context.phrase
  | .sequenceEntry => "sequence entries are not allowed here"
  | .mappingKey => "mapping keys are not allowed here"
  | .mappingValue => "mapping values are not allowed here"
  | .documentStart found =>
      s!"expected '<document start>', but found {Printable.quoted found}"
  | .repeatedDirective => "found duplicate YAML directive"
  | .version => "found incompatible YAML document (version 1.* is required)"
  | .repeatedHandle handle => s!"duplicate tag handle {Printable.quoted handle}"
  | .undefinedAlias name => s!"found undefined alias {Printable.quoted name}"
  | .repeatedAnchor name =>
      s!"found duplicate anchor {Printable.quoted name}; first occurrence"
  | .secondDocument => "expected a single document in the stream"
  | .unknownTag tag =>
      s!"could not determine a constructor for the tag {Printable.quoted tag}"
  | .kind expected found => s!"expected a {expected} node, but found {found}"
  | .notAscii position chars => notAsciiMessage position chars
  | .padding => "failed to decode base64 data: Incorrect padding"
  | .digitTooMany digits => "failed to decode base64 data: Invalid base64-encoded string: " ++
      s!"number of data characters ({digits}) cannot be 1 more than a multiple of 4"
  | .scalar fault => fault.message

end StakeLedger.Yaml
