import StakeLedger.Json.Token

/-!
# Reading JSON documents

The tokens of a document drive a machine with a stack of open lists and
dictionaries.  A document is one value; what is open at its end, or follows it,
is an error.

Main definitions:

- {lit}`Json.ofTokens?`: the value that tokens spell.
- {lit}`Json.readWithin?`: the value of a text, with a bound on the depth of nesting and one
  on the length of numbers.
- {lit}`Json.accept?`: the value of a text that the service takes from a ledger or a client.
- {lit}`Json.parse?`: the value of a text with numbers of any length.
-/

namespace StakeLedger.Json

/-- An open list, or an open dictionary that waits for the value of a key.
Items and pairs are kept in reverse. -/
inductive Frame where
  | list (items : List Value)
  | dict (fields : List (String × Value)) (key : String)

/-- What may come next, and what is open around it. -/
inductive State where
  /-- A value; where a list has just been opened it may close as well. -/
  | value (stack : List Frame) (mayClose : Bool)
  /-- A key; where a dictionary has just been opened it may close as well. -/
  | key (fields : List (String × Value)) (stack : List Frame) (mayClose : Bool)
  | colon (fields : List (String × Value)) (key : String) (stack : List Frame)
  | afterItem (items : List Value) (stack : List Frame)
  | afterField (fields : List (String × Value)) (stack : List Frame)
  | done (v : Value)

/-- Put a finished value where it belongs. -/
def place (v : Value) : List Frame → State
  | [] => .done v
  | .list items :: stack => .afterItem (v :: items) stack
  | .dict fields key :: stack => .afterField ((key, v) :: fields) stack

/-- Take a token where a value may begin. -/
def beginValue (depth : Nat) (stack : List Frame) : Token → Option State
  | .scalar v => some (place v stack)
  | .openList => if stack.length < depth then some (.value (.list [] :: stack) true) else none
  | .openDict => if stack.length < depth then some (.key [] stack true) else none
  | _ => none

/-- Take one token; nothing may open below the given depth. -/
def step (depth : Nat) : State → Token → Option State
  | .value (.list [] :: stack) true, .closeList => some (place (.list []) stack)
  | .value stack _, t => beginValue depth stack t
  | .key fields stack _, .scalar (.text key) => some (.colon fields key stack)
  | .key fields stack true, .closeDict => some (place (Value.ofFields fields.reverse) stack)
  | .colon fields key stack, .colon => some (.value (.dict fields key :: stack) false)
  | .afterItem items stack, .comma => some (.value (.list items :: stack) false)
  | .afterItem items stack, .closeList => some (place (.list items.reverse) stack)
  | .afterField fields stack, .comma => some (.key fields stack false)
  | .afterField fields stack, .closeDict => some (place (Value.ofFields fields.reverse) stack)
  | _, _ => none

/-- The value that tokens spell. -/
def ofTokens? (depth : Nat) (tokens : List Token) : Option Value :=
  match tokens.foldlM (step depth) (.value [] false) with
  | some (.done v) => some v
  | _ => none

/-- The deepest nesting of lists and dictionaries in a document. -/
def maxDepth : Nat := 200

/-- The most characters of a whole number that is taken from outside. -/
def longestWhole : Nat := 4300

/-- The value of a text with at most the given depth of nesting, if its numbers are no
longer than allowed. -/
def readWithin? (longest : Option Nat) (depth : Nat) (text : String) : Option Value :=
  (Token.scan? longest text.toList).bind (ofTokens? depth)

/-- The value of a text with at most the given depth of nesting. -/
def parseWithin? (depth : Nat) (text : String) : Option Value :=
  readWithin? none depth text

/-- The value of a text. -/
def parse? (text : String) : Option Value :=
  parseWithin? maxDepth text

/-- The value of a text from outside, whose numbers are bounded in length. -/
def accept? (text : String) : Option Value :=
  readWithin? (some longestWhole) maxDepth text

end StakeLedger.Json
