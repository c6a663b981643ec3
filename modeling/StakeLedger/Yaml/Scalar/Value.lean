import StakeLedger.Value
import StakeLedger.Decimal.Arithmetic
import StakeLedger.Decimal.Loose
import StakeLedger.Text.Base64
import StakeLedger.Text.Case
import StakeLedger.Text.Utf8
import StakeLedger.Yaml.Fault
import StakeLedger.Yaml.Kind

/-!
# Values of scalars

The value of a scalar of a kind.  Numbers may be grouped by underscores; with
colons they are written in groups of sixty.

Main definitions:

- {lit}`Yaml.intOf`, {lit}`Yaml.realOf`, {lit}`Yaml.truthOf`: values of three kinds.
- {lit}`Yaml.scalarValue`: the value of a scalar of any kind.
-/

namespace StakeLedger.Yaml

/-- A text without underscores. -/
def ungrouped (text : String) : List Char :=
  text.toList.filter (· ≠ '_')

/-- A whole number in a base. -/
def intIn (base : Nat) (digits : List Char) : Except ScalarFault Int :=
  match Loose.read base digits with
  | .ok n => .ok n
  | .error .malformed => .error (.integer base (String.ofList digits))
  | .error (.tooLong count) => .error (.digits count)

/-- A whole number without sign: in base two, sixteen or eight by what it begins
with, in groups of sixty, or in base ten. -/
def magnitudeOf (digits : List Char) : Except ScalarFault Int :=
  match digits with
  | [] => .error .empty
  | ['0'] => .ok 0
  | '0' :: 'b' :: rest => intIn 2 rest
  | '0' :: 'x' :: rest => intIn 16 rest
  | '0' :: _ => intIn 8 digits
  | _ =>
      if digits.contains ':' then
        ((pieces ':' digits).mapM (intIn 10)).map fun groups =>
          groups.foldl (fun n g => 60 * n + g) 0
      else intIn 10 digits

/-- A whole number. -/
def intOf (text : String) : Except ScalarFault Int :=
  match ungrouped text with
  | [] => .error .empty
  | '-' :: rest => (magnitudeOf rest).map fun n => -n
  | '+' :: rest => magnitudeOf rest
  | digits => magnitudeOf digits

/-- A decimal. -/
def decimalOf (text : List Char) : Except ScalarFault Binary64 :=
  match Loose.real? text with
  | some x => .ok x
  | none => .error (.real (String.ofList text))

/-- The sum of groups with their weights, the last group first. -/
def weigh : Nat → List Binary64 → Binary64 → Binary64
  | _, [], sum => sum
  | weight, g :: rest, sum => weigh (60 * weight) rest (sum.add (g.mul (.ofInt weight)))

/-- A number without sign: an infinity, no number, a decimal in groups of sixty or
a single decimal. -/
def sizeOf (text : List Char) : Except ScalarFault Binary64 :=
  if text = ".inf".toList then .ok (.infinite false)
  else if text = ".nan".toList then .ok .nan
  else if text.contains ':' then
    ((pieces ':' text).mapM decimalOf).map fun groups => weigh 1 groups.reverse (.zero false)
  else decimalOf text

/-- A number. -/
def realOf (text : String) : Except ScalarFault Binary64 :=
  match (Case.lower (String.ofList (ungrouped text))).toList with
  | [] => .error .empty
  | '-' :: rest => (sizeOf rest).map Binary64.neg
  | '+' :: rest => sizeOf rest
  | digits => sizeOf digits

/-- The words for truth values, in lower case. -/
def truthWords : List (String × Bool) :=
  [("yes", true), ("no", false), ("true", true), ("false", false), ("on", true),
    ("off", false)]

/-- A truth value. -/
def truthOf (text : String) : Except ScalarFault Bool :=
  match truthWords.lookup (Case.lower text) with
  | some b => .ok b
  | none => .error (.truth (Case.lower text))

/-- A moment must be on the calendar. -/
def checkTime (text : String) : Except ScalarFault Unit :=
  match Moment.parse? text.toList with
  | none => .error .time
  | some m =>
      match m.time.fault? with
      | some fault => .error (.date fault)
      | none => .ok ()

/-- The octets of a text in base64, which must be complete.  Only the usual
alphabet counts. -/
def octetsOf (text : String) : Except Fault Octets :=
  let isAscii := fun (c : Char) => c.toNat < 128
  let chars := text.toList
  let foreign := chars.dropWhile isAscii
  if foreign ≠ [] then
    .error (.notAscii (chars.length - foreign.length) (foreign.takeWhile fun c => !isAscii c))
  else
    let usual := chars.filter fun c => c ≠ '-' && c ≠ '_'
    match Base64.decode? usual with
    | some octets => .ok octets
    | none =>
        let digits := (usual.filter fun c => (Base64.value? c).isSome).length
        .error (if digits % 4 = 1 then .digitTooMany digits else .padding)

/-- The value of octets: the text that they spell, if they do. -/
def ofOctets (octets : Octets) : Value :=
  match Utf8.decode? octets with
  | some text => .text (String.ofList text)
  | none => .octets

/-- The value of a scalar of a kind. -/
def scalarValue (kind : Kind) (text : String) : Except Fault Value :=
  match kind with
  | .null => .ok .null
  | .bool => ((truthOf text).mapError .scalar).map .bool
  | .int => ((intOf text).mapError .scalar).map .int
  | .real => ((realOf text).mapError .scalar).map .real
  | .time => ((checkTime text).mapError .scalar).map fun _ => .other
  | .binary => (octetsOf text).map ofOctets
  | _ => .ok (.text text)

end StakeLedger.Yaml
