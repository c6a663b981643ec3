import StakeLedger.Yaml.Fault

/-!
# Spots in a text

Layout carries meaning in YAML, so what is read keeps the spot where it stands:
its index, its line and its column.  A text has line breaks of one kind and three
rarer ones; its end counts as a break where words end.

Main definitions:

- {lit}`Yaml.Spot`: an index, a line and a column, with {lit}`Yaml.Spot.next`.
- {lit}`Yaml.Scanned`: something that was read, and what follows it.
- {lit}`Yaml.isBreak`, {lit}`Yaml.endsWord`: the characters that matter for layout.

Main results:

- Theorem {lit}`Yaml.Spot.past_append`: going on from where a first part ends.
-/

namespace StakeLedger.Yaml

/-- Line breaks. -/
def isBreak (c : Char) : Bool :=
  c == '\n' || c == '\u0085' || c == '\u2028' || c == '\u2029'

/-- A line break as it is kept in scalars: the usual ones are all alike. -/
def breakText (c : Char) : Char :=
  if c == '\u2028' || c == '\u2029' then c else '\n'

/-- Whether a line is over: at a break or at the end. -/
def endsLine : Option Char → Bool
  | none => true
  | some c => isBreak c

/-- Whether a field is over: at a blank, a break or the end. -/
def endsField : Option Char → Bool
  | some ' ' => true
  | c => endsLine c

/-- Whether a word is over: at a blank, a tabulator, a break or the end. -/
def endsWord : Option Char → Bool
  | some '\t' => true
  | c => endsField c

/-- The mark that may stand at the beginning of a text without taking room. -/
def orderMark : Char := '\uFEFF'

/-- A spot in a text. -/
structure Spot where
  index : Nat := 0
  line : Nat := 0
  column : Nat := 0
deriving DecidableEq, Repr

namespace Spot

/-- The spot behind a character. -/
def next (s : Spot) (c : Char) : Spot :=
  if isBreak c then ⟨s.index + 1, s.line + 1, 0⟩
  else if c = orderMark then ⟨s.index + 1, s.line, s.column⟩
  else ⟨s.index + 1, s.line, s.column + 1⟩

/-- The spot behind some characters. -/
def past (s : Spot) (cs : List Char) : Spot :=
  cs.foldl next s

/-- Going on from where a first part ends. -/
theorem past_append (s : Spot) (xs ys : List Char) :
    s.past (xs ++ ys) = (s.past xs).past ys := by
  simp [past]

end Spot

/-- Something that was read, and the text and spot that follow it. -/
structure Scanned (α : Type) where
  value : α
  rest : List Char
  spot : Spot

namespace Scanned

/-- The same with another value. -/
def map {α β : Type} (f : α → β) (s : Scanned α) : Scanned β :=
  ⟨f s.value, s.rest, s.spot⟩

end Scanned

/-- The characters of a text up to the first one that fails a test. -/
def scanWhile (test : Char → Bool) (text : List Char) (spot : Spot) : Scanned (List Char) :=
  let taken := text.takeWhile test
  ⟨taken, text.dropWhile test, spot.past taken⟩

/-- A fault within a context. -/
def refuse {α : Type} (context : Context) : Except Fault α :=
  .error (.within context)

/-- Characters before those that are read next. -/
def before (chars : List Char) (next : Except Fault (Scanned (List Char))) :
    Except Fault (Scanned (List Char)) :=
  next.map fun s => s.map (chars ++ ·)

/-- Whether a text begins with a document marker. -/
def isMarker (text : List Char) : Bool :=
  (text.take 3 == ['-', '-', '-'] || text.take 3 == ['.', '.', '.']) && endsWord (text.drop 3).head?

/-- The characters of names. -/
def isNameChar (c : Char) : Bool :=
  c.isAlphanum || c == '-' || c == '_'

/-- A break and what follows it, if a break comes next. -/
def scanBreak (text : List Char) (spot : Spot) : Scanned (List Char) :=
  match text with
  | [] => ⟨[], [], spot⟩
  | c :: rest => if isBreak c then ⟨[breakText c], rest, spot.next c⟩ else ⟨[], text, spot⟩

/-- Blanks, then a comment if there is one, up to the end of the line. -/
def scanComment (text : List Char) (spot : Spot) : Scanned Unit :=
  let blanks := scanWhile (· == ' ') text spot
  if blanks.rest.head? = some '#' then
    (scanWhile (fun c => !isBreak c) blanks.rest blanks.spot).map fun _ => ()
  else blanks.map fun _ => ()

end StakeLedger.Yaml
