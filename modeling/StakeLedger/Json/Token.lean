import StakeLedger.Value
import StakeLedger.Text.Hex
import StakeLedger.Decimal.Numeral

/-!
# Tokens of JSON

A document is a list of tokens: six marks and the scalars.  The tokens are read
by a machine that takes one character at a time.  Besides the usual scalars the
words {lit}`NaN`, {lit}`Infinity` and {lit}`-Infinity` are numbers.  A reader may refuse
numbers that are written with too many digits.

Main definitions:

- {lit}`Json.Token`: a mark or a scalar.
- {lit}`Json.Token.Allows`: how long the whole part of a number may be.
- {lit}`Json.Token.scan?`: the tokens of a text, if it has no stray characters.
-/

namespace StakeLedger.Json

/-- A mark or a scalar of a document. -/
inductive Token where
  | openList
  | closeList
  | openDict
  | closeDict
  | comma
  | colon
  | scalar (v : Value)

namespace Token

/-- The token that a single character makes. -/
def mark? : Char → Option Token
  | '[' => some .openList
  | ']' => some .closeList
  | '\x7b' => some .openDict
  | '\x7d' => some .closeDict
  | ',' => some .comma
  | ':' => some .colon
  | _ => none

/-- The characters that may stand between tokens. -/
def isBlank (c : Char) : Bool :=
  c == ' ' || c == '\t' || c == '\n' || c == '\r'

/-- The characters of words and numbers. -/
def isWordChar (c : Char) : Bool :=
  c.isAlphanum || c == '-' || c == '+' || c == '.'

/-- The number that a word spells: a sign only before it, no zero before other
digits, digits on both sides of a point and after an exponent mark. -/
def number? (word : List Char) : Option Value := do
  let negative := word.head? = some '-'
  let body := if negative then word.drop 1 else word
  let whole := body.takeWhile Numeral.isDigit
  let tail := body.dropWhile Numeral.isDigit
  if whole = [] ∨ (whole.head? = some '0' ∧ whole ≠ ['0']) then none
  else
    match tail with
    | [] => some (.int (Numeral.signed negative whole))
    | '.' :: rest =>
        let fraction := rest.takeWhile Numeral.isDigit
        if fraction = [] then none
        else do
          let exponent ← Numeral.exponent? (rest.dropWhile Numeral.isDigit)
          some (.real (Binary64.ofDecimal negative (Numeral.value (whole ++ fraction))
            (exponent - fraction.length)))
    | _ => do
        let exponent ← Numeral.exponent? tail
        some (.real (Binary64.ofDecimal negative (Numeral.value whole) exponent))

/-- The whole part of a number with its sign. -/
def wholePart (word : List Char) : List Char :=
  word.takeWhile fun c => c == '-' || Numeral.isDigit c

/-- Whether a whole part may have so many characters; a reader may set no limit. -/
def Allows (longest : Option Nat) (length : Nat) : Prop :=
  ∀ most ∈ longest, length ≤ most

instance (longest : Option Nat) (length : Nat) : Decidable (Allows longest length) :=
  match longest with
  | none => isTrue (fun _ h => nomatch h)
  | some most => decidable_of_iff (length ≤ most) (by simp [Allows])

/-- The scalar that a word spells, if it is no longer than allowed. -/
def word? (longest : Option Nat) (word : List Char) : Option Token :=
  if word = "null".toList then some (.scalar .null)
  else if word = "true".toList then some (.scalar (.bool true))
  else if word = "false".toList then some (.scalar (.bool false))
  else if word = "NaN".toList then some (.scalar (.real .nan))
  else if word = "Infinity".toList then some (.scalar (.real (.infinite false)))
  else if word = "-Infinity".toList then some (.scalar (.real (.infinite true)))
  else if Allows longest (wholePart word).length then (number? word).map .scalar
  else none

/-- The character of a one-letter escape. -/
def escape? : Char → Option Char
  | '\x22' => some '\x22'
  | '\\' => some '\\'
  | '/' => some '/'
  | 'b' => some '\x08'
  | 'f' => some '\x0c'
  | 'n' => some '\n'
  | 'r' => some '\r'
  | 't' => some '\t'
  | _ => none

/-- Where the machine stands.  The characters of a string are kept in reverse,
with the first half of a surrogate pair beside them while the second is due. -/
inductive State where
  | between
  | word (letters : List Char)
  | quoted (chars : List Char) (high : Option Nat)
  | escaped (chars : List Char) (high : Option Nat)
  | unit (chars : List Char) (high : Option Nat) (digits : List Char)

/-- A string after a UTF-16 unit was read.  The halves of a surrogate pair must
follow each other. -/
def State.afterUnit (chars : List Char) (high : Option Nat) (n : Nat) : Option State :=
  match high with
  | some h =>
      if 0xDC00 ≤ n ∧ n ≤ 0xDFFF then
        some (.quoted (Char.ofNat (0x10000 + (h - 0xD800) * 1024 + (n - 0xDC00)) :: chars) none)
      else none
  | none =>
      if 0xD800 ≤ n ∧ n ≤ 0xDBFF then some (.quoted chars (some n))
      else if 0xDC00 ≤ n ∧ n ≤ 0xDFFF then none
      else some (.quoted (Char.ofNat n :: chars) none)

/-- Read a character between two tokens. -/
def openWith (c : Char) : Option (List Token × State) :=
  if isBlank c then some ([], .between)
  else if c = '\x22' then some ([], .quoted [] none)
  else
    match mark? c with
    | some t => some ([t], .between)
    | none => if isWordChar c then some ([], .word [c]) else none

/-- Read one character: the tokens that are complete, and where the machine
stands then. -/
def step (longest : Option Nat) : State → Char → Option (List Token × State)
  | .between, c => openWith c
  | .word letters, c =>
      if isWordChar c then some ([], .word (c :: letters))
      else do
        let t ← word? longest letters.reverse
        let (tokens, state) ← openWith c
        return (t :: tokens, state)
  | .quoted chars none, c =>
      if c = '\x22' then some ([.scalar (.text (String.ofList chars.reverse))], .between)
      else if c = '\\' then some ([], .escaped chars none)
      else if c.toNat < 0x20 then none
      else some ([], .quoted (c :: chars) none)
  | .quoted chars (some h), c => if c = '\\' then some ([], .escaped chars (some h)) else none
  | .escaped chars high, c =>
      if c = 'u' then some ([], .unit chars high [])
      else if high.isSome then none
      else (escape? c).map fun e => ([], .quoted (e :: chars) none)
  | .unit chars high digits, c => do
      let _ ← Hex.value? c
      let digits := c :: digits
      if digits.length < 4 then return ([], .unit chars high digits)
      else
        let n := Numeral.valueIn 16 digits.reverse
        return ([], ← State.afterUnit chars high n)

/-- The tokens read so far, in reverse, and where the machine stands. -/
structure Progress where
  tokens : List Token
  state : State

/-- Read one more character. -/
def Progress.read (longest : Option Nat) (p : Progress) (c : Char) : Option Progress := do
  let (tokens, state) ← step longest p.state c
  return ⟨tokens.reverse ++ p.tokens, state⟩

/-- The tokens at the end of a text: a word ends there, a string may not. -/
def Progress.finish? (longest : Option Nat) (p : Progress) : Option (List Token) :=
  match p.state with
  | .between => some p.tokens.reverse
  | .word letters => (word? longest letters.reverse).map fun t => (t :: p.tokens).reverse
  | _ => none

/-- The tokens of a text, if every character belongs to one and no number is
longer than allowed. -/
def scan? (longest : Option Nat) (text : List Char) : Option (List Token) := do
  let p ← text.foldlM (Progress.read longest) ⟨[], .between⟩
  p.finish? longest

end Token

end StakeLedger.Json
