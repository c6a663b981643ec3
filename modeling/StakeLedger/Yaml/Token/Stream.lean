import StakeLedger.Yaml.Scalar.Plain
import StakeLedger.Yaml.Scalar.Quoted
import StakeLedger.Yaml.Scalar.Block
import StakeLedger.Yaml.Token.Property

/-!
# The tokens of a text

Tokens are cut one after the other.  Whether a scalar is a key shows only at the
colon behind it, so its place is kept as a candidate, and the tokens that open the
mapping are put in there later.  A candidate is given up at the end of its line.

Nothing behind a candidate can be used before it is settled.  When the text turns
out to be at fault, the tokens before the first open candidate are still the
beginning of the document, and the fault follows them.

Main definitions:

- {lit}`Yaml.Candidate`: where a key may begin.
- {lit}`Yaml.Cutter`: how far the text is cut into tokens.
- {lit}`Yaml.TokenStream.ofText`: all tokens of a text, and the fault after them.
-/

namespace StakeLedger.Yaml

/-- Where a key may begin: how many tokens stand before it, its spot, and whether
the indentation leaves nothing else for it to be. -/
structure Candidate where
  token : Nat
  required : Bool
  spot : Spot
deriving DecidableEq, Repr

/-- How far a text is cut: what is left of it, the tokens so far, the open block
collections by their columns, and the candidates of the flow collections around. -/
structure Cutter where
  rest : List Char
  spot : Spot := {}
  tokens : List Token := []
  indent : Int := -1
  outerIndents : List Int := []
  /-- Whether a key may begin here. -/
  keyAllowed : Bool := true
  candidate : Option Candidate := none
  outerCandidates : List (Option Candidate) := []
  finished : Bool := false

namespace Cutter

/-- Whether the text is inside of a flow collection. -/
def inFlow (c : Cutter) : Bool :=
  !c.outerCandidates.isEmpty

/-- The column as a number that can be compared with that of no collection. -/
def column (c : Cutter) : Int :=
  c.spot.column

/-- One more token. -/
def emit (c : Cutter) (t : Token) : Cutter :=
  { c with tokens := c.tokens ++ [t] }

/-- The text behind what was read. -/
def goOn {α : Type} (c : Cutter) (s : Scanned α) : Cutter :=
  { c with rest := s.rest, spot := s.spot }

/-- The text behind some of its characters. -/
def skip (c : Cutter) (n : Nat) : Cutter :=
  { c with rest := c.rest.drop n, spot := c.spot.past (c.rest.take n) }

/-! ## Candidates -/

/-- Whether a candidate is given up: on another line, or too far away. -/
def isStale (c : Cutter) (k : Candidate) : Bool :=
  k.spot.line ≠ c.spot.line || 1024 < c.spot.index - k.spot.index

/-- A candidate unless it is given up; a required one must not be. -/
def settle (c : Cutter) : Option Candidate → Except Fault (Option Candidate)
  | none => .ok none
  | some k =>
      if c.isStale k then if k.required then refuse .simpleKey else .ok none
      else .ok (some k)

/-- The text without the candidates that are given up. -/
def settled (c : Cutter) : Except Fault Cutter := do
  let candidate ← c.settle c.candidate
  let outer ← c.outerCandidates.mapM c.settle
  return { c with candidate, outerCandidates := outer }

/-- How many tokens stand before the first candidate. -/
def usable (c : Cutter) : Nat :=
  ((c.candidate :: c.outerCandidates).filterMap id).foldl (fun n k => min n k.token)
    c.tokens.length

/-- Give up the candidate of this collection; a required one must not be. -/
def forget (c : Cutter) : Except Fault Cutter :=
  match c.candidate with
  | none => .ok c
  | some k => if k.required then refuse .simpleKey else .ok { c with candidate := none }

/-- Note that a key may begin here. -/
def propose (c : Cutter) : Except Fault Cutter :=
  if c.keyAllowed then do
    let c ← c.forget
    let required := !c.inFlow && c.indent == c.column
    return { c with candidate := some ⟨c.tokens.length, required, c.spot⟩ }
  else .ok c

/-! ## Indentation -/

/-- The collections that stay open at a column: the innermost and the others, and
how many are closed. -/
def closing (column : Int) : Int → List Int → Int × List Int × Nat
  | indent, [] => (indent, [], 0)
  | indent, outer :: others =>
      if column < indent then
        let (i, rest, n) := closing column outer others
        (i, rest, n + 1)
      else (indent, outer :: others, 0)

/-- Close the block collections that are indented beyond a column. -/
def unwind (c : Cutter) (column : Int) : Cutter :=
  if c.inFlow then c
  else
    let (indent, outer, n) := closing column c.indent c.outerIndents
    { c with
      indent := indent
      outerIndents := outer
      tokens := c.tokens ++ List.replicate n .blockEnd }

/-- Open a block collection at a column if it lies beyond the innermost one: at a
place among the tokens its opening token is put in. -/
def openAt (c : Cutter) (column : Int) (place : Nat) (t : Token) : Cutter :=
  if c.indent < column then
    { c with
      indent := column
      outerIndents := c.indent :: c.outerIndents
      tokens := c.tokens.take place ++ t :: c.tokens.drop place }
  else c

/-- Open a block collection here. -/
def openHere (c : Cutter) (t : Token) : Cutter :=
  c.openAt c.column c.tokens.length t

/-! ## Single tokens -/

/-- Blanks, breaks and comments before a token.  Behind a break a key may begin in
block collections. -/
def scanGap (flow : Bool) : Bool → List Char → Spot → Bool → Scanned Bool
  | _, [], spot, allowed => ⟨allowed, [], spot⟩
  | comment, c :: rest, spot, allowed =>
      if isBreak c then scanGap flow false rest (spot.next c) (allowed || !flow)
      else if comment || c = '#' then scanGap flow true rest (spot.next c) allowed
      else if c = ' ' then scanGap flow false rest (spot.next c) allowed
      else ⟨allowed, c :: rest, spot⟩

/-- The text behind the gap before a token. -/
def afterGap (c : Cutter) : Cutter :=
  let c := if c.spot.index = 0 ∧ c.rest.head? = some orderMark then c.skip 1 else c
  let gap := scanGap c.inFlow false c.rest c.spot c.keyAllowed
  { c.goOn gap with keyAllowed := gap.value }

/-- The end of the text. -/
def atEnd (c : Cutter) : Except Fault Cutter := do
  let c ← (c.unwind (-1)).forget
  return { c.emit .streamEnd with
    keyAllowed := false, candidate := none, outerCandidates := [], finished := true }

/-- A directive. -/
def atDirective (c : Cutter) : Except Fault Cutter := do
  let c ← (c.unwind (-1)).forget
  let s ← scanDirective (c.rest.drop 1) (c.spot.next '%')
  return { (c.goOn s).emit s.value with keyAllowed := false }

/-- A document marker. -/
def atMarker (c : Cutter) (t : Token) : Except Fault Cutter := do
  let c ← (c.unwind (-1)).forget
  return { (c.skip 3).emit t with keyAllowed := false }

/-- The beginning of a flow collection. -/
def atFlowStart (c : Cutter) (t : Token) : Except Fault Cutter := do
  let c ← c.propose
  return { (c.skip 1).emit t with
    keyAllowed := true
    candidate := none
    outerCandidates := c.candidate :: c.outerCandidates }

/-- The end of a flow collection. -/
def atFlowEnd (c : Cutter) (t : Token) : Except Fault Cutter := do
  let c ← c.forget
  let c := { (c.skip 1).emit t with keyAllowed := false }
  match c.outerCandidates with
  | [] => return c
  | k :: others => return { c with candidate := k, outerCandidates := others }

/-- A comma of a flow collection. -/
def atFlowEntry (c : Cutter) : Except Fault Cutter := do
  let c ← c.forget
  return { (c.skip 1).emit .flowEntry with keyAllowed := true }

/-- A hyphen before an item. -/
def atBlockEntry (c : Cutter) : Except Fault Cutter := do
  if !c.inFlow && !c.keyAllowed then .error .sequenceEntry
  else
    let c := if c.inFlow then c else c.openHere .blockSequence
    let c ← c.forget
    return { (c.skip 1).emit .blockEntry with keyAllowed := true }

/-- A question mark before a key. -/
def atKey (c : Cutter) : Except Fault Cutter := do
  if !c.inFlow && !c.keyAllowed then .error .mappingKey
  else
    let c := if c.inFlow then c else c.openHere .blockMapping
    let c ← c.forget
    return { (c.skip 1).emit .key with keyAllowed := !c.inFlow }

/-- A colon behind a candidate, which is a key now. -/
def atValueOf (c : Cutter) (k : Candidate) : Cutter :=
  let c := { c with
    candidate := none
    tokens := c.tokens.take k.token ++ Token.key :: c.tokens.drop k.token }
  let c := if c.inFlow then c else c.openAt k.spot.column k.token .blockMapping
  { (c.skip 1).emit .value with keyAllowed := false }

/-- A colon before a value. -/
def atValue (c : Cutter) : Except Fault Cutter :=
  match c.candidate with
  | some k => .ok (c.atValueOf k)
  | none =>
      if !c.inFlow && !c.keyAllowed then .error .mappingValue
      else
        let c := if c.inFlow then c else c.openHere .blockMapping
        .ok { (c.skip 1).emit .value with keyAllowed := !c.inFlow }

/-- An anchor or an alias. -/
def atName (c : Cutter) (context : Context) (token : String → Token) : Except Fault Cutter := do
  let c ← c.propose
  let s ← scanName context (c.rest.drop 1) (c.spot.past (c.rest.take 1))
  return { (c.goOn s).emit (token s.value) with keyAllowed := false }

/-- A tag. -/
def atTag (c : Cutter) : Except Fault Cutter := do
  let c ← c.propose
  let s ← scanTag c.rest c.spot
  return { (c.goOn s).emit s.value with keyAllowed := false }

/-- A block scalar; behind it a key may begin. -/
def atBlock (c : Cutter) (folded : Bool) : Except Fault Cutter := do
  let c ← c.forget
  let s ← scanBlock folded c.indent (c.rest.drop 1) (c.spot.past (c.rest.take 1))
  return { (c.goOn s).emit (.scalar (String.ofList s.value) false) with keyAllowed := true }

/-- A quoted scalar. -/
def atQuoted (c : Cutter) (double : Bool) : Except Fault Cutter := do
  let c ← c.propose
  let s ← scanQuoted double (c.rest.drop 1) (c.spot.past (c.rest.take 1))
  return { (c.goOn s).emit (.scalar (String.ofList s.value) false) with keyAllowed := false }

/-- A plain scalar; a key may begin behind it only on a line of its own. -/
def atPlain (c : Cutter) : Except Fault Cutter := do
  let c ← c.propose
  let s := scanPlain c.inFlow (c.indent + 1) c.rest c.spot
  return { (c.goOn s).emit (.scalar (String.ofList s.value.chars) true) with
    keyAllowed := s.value.crossed }

/-! ## All tokens -/

/-- The characters that begin something else than a plain scalar. -/
def indicators : List Char :=
  "-?:,[]\x7b\x7d#&*!|>'\x22%@`".toList

/-- Whether a plain scalar begins with a character, given the one behind it. -/
def beginsPlain (flow : Bool) (c : Char) (next : Option Char) : Bool :=
  (!endsWord (some c) && !indicators.contains c) ||
    (!endsWord next && (c == '-' || (!flow && (c == '?' || c == ':'))))

/-- The next token, by its first character. -/
def cut (c : Cutter) : Except Fault Cutter :=
  match c.rest with
  | [] => c.atEnd
  | first :: rest =>
      let next := rest.head?
      let marker := c.spot.column == 0 && isMarker c.rest
      if first = '%' ∧ c.spot.column = 0 then c.atDirective
      else if first = '-' ∧ marker then c.atMarker .documentStart
      else if first = '.' ∧ marker then c.atMarker .documentEnd
      else if first = '[' then c.atFlowStart .flowSequence
      else if first = '\x7b' then c.atFlowStart .flowMapping
      else if first = ']' then c.atFlowEnd .flowSequenceEnd
      else if first = '\x7d' then c.atFlowEnd .flowMappingEnd
      else if first = ',' then c.atFlowEntry
      else if first = '-' ∧ endsWord next then c.atBlockEntry
      else if first = '?' ∧ (c.inFlow ∨ endsWord next) then c.atKey
      else if first = ':' ∧ (c.inFlow ∨ endsWord next) then c.atValue
      else if first = '*' then c.atName .alias .alias
      else if first = '&' then c.atName .anchor .anchor
      else if first = '!' then c.atTag
      else if first = '|' ∧ !c.inFlow then c.atBlock false
      else if first = '>' ∧ !c.inFlow then c.atBlock true
      else if first = '\'' then c.atQuoted false
      else if first = '"' then c.atQuoted true
      else if beginsPlain c.inFlow first next then c.atPlain
      else refuse .nextToken

/-- The gap before a token and the token itself. -/
def step (c : Cutter) : Except Fault Cutter := do
  let c ← c.afterGap.settled
  (c.unwind c.column).cut

end Cutter

/-- Tokens, and the fault that follows them if they do not end the text. -/
structure TokenStream where
  tokens : List Token
  fault : Option Fault := none

namespace TokenStream

/-- The tokens in front of a fault: only some of those that were cut can be used. -/
def broken (c : Cutter) (used : Nat) (fault : Fault) : TokenStream :=
  ⟨c.tokens.take used, some fault⟩

/-- Cut on, for at most a number of tokens.  Some tokens were used before the latest
one was cut; no more are used until its candidate is settled. -/
def ofCutter : Nat → Nat → Cutter → TokenStream
  | 0, used, c => broken c used (.within .nextToken)
  | n + 1, used, c =>
      match c.settled with
      | .error fault => broken c used fault
      | .ok c =>
          match c.step with
          | .error fault => broken c c.usable fault
          | .ok next => if next.finished then ⟨next.tokens, none⟩ else ofCutter n c.usable next

/-- The characters that a text may hold. -/
def isAllowed (c : Char) : Bool :=
  let n := c.toNat
  n == 9 || n == 10 || n == 13 || (0x20 ≤ n && n ≤ 0x7E) || n == 0x85 ||
    (0xA0 ≤ n && n ≤ 0xFFFD) || 0x10000 ≤ n

/-- The tokens of a text, and the fault after them.  Each takes a character at
least, and the end of the text takes one more step. -/
def ofText (text : List Char) : TokenStream :=
  match text.find? fun c => !isAllowed c with
  | some c => ⟨[], some (.unprintable c)⟩
  | none => ofCutter (text.length + 2) 0 { rest := text }

end TokenStream

end StakeLedger.Yaml
