import StakeLedger.Yaml.Kind
import StakeLedger.Yaml.Scalar.Quoted

/-!
# Spelling of texts

A text is spelled plainly if it then reads as the same text, else between single
marks, and where these cannot hold it between double ones.  Long lines are folded:
at single blanks, or between double marks also behind escapes.

Main definitions:

- {lit}`Yaml.Style.ofText`: how a text is spelled.
- {lit}`Yaml.Style.runs`, {lit}`Yaml.Style.foldRuns`: words on lines of limited width.
- {lit}`Yaml.Style.escapeFrom`: what stands between double marks.
- {lit}`Yaml.Style.spell`: the spelling of a text that begins in a column.

Main results:

- Theorem {lit}`Yaml.Style.flatten_runs`: the runs of a text make up the text.
-/

namespace StakeLedger.Yaml

/-- How a text is spelled. -/
inductive Style where
  | plain
  | single
  | double
deriving DecidableEq, Repr

namespace Style

/-! ## The choice of a style -/

/-- Characters that only double marks can hold: all but the usual break and the
visible ASCII characters with the blank. -/
def isForeign (c : Char) : Bool :=
  c ≠ '\n' && !(' ' ≤ c && c ≤ '~')

/-- Whether a blank stands beside a break, where folding would lose it. -/
def hasBlankAtBreak : List Char → Bool
  | a :: b :: rest =>
      (a == ' ' && b == '\n') || (a == '\n' && b == ' ') || hasBlankAtBreak (b :: rest)
  | _ => false

/-- The indicators that cannot begin a plain text. -/
def openers : List Char :=
  ['#', ',', '[', ']', '\x7b', '\x7d', '&', '*', '!', '|', '>', '\'', '"', '%', '@', '\x60']

/-- Whether a text begins like something else: with an indicator, or like a
document marker. -/
def beginsOtherwise (text : List Char) : Bool :=
  text.take 3 == ['-', '-', '-'] || text.take 3 == ['.', '.', '.'] ||
    match text with
    | [] => false
    | c :: rest =>
        openers.contains c || ((c == '?' || c == ':' || c == '-') && endsWord rest.head?)

/-- Whether a text would end early: at a comment or at a colon behind a word. -/
def endsEarly : List Char → Bool
  | a :: b :: rest =>
      (a == ' ' && b == '#') || (b == ':' && endsWord rest.head?) || endsEarly (b :: rest)
  | _ => false

/-- Whether a text reads as the same text where it is spelled plainly on lines of
any width. -/
def isPlain (text : List Char) : Bool :=
  Kind.ofPlain text == .text && !text.any isForeign && !text.contains '\n' &&
    text.head? ≠ some ' ' && text.getLast? ≠ some ' ' &&
    !beginsOtherwise text && !endsEarly text

/-- How a text is spelled. -/
def ofText (text : List Char) : Style :=
  if isPlain text then .plain
  else if text.any isForeign || hasBlankAtBreak text then .double
  else .single

/-! ## Lines of limited width -/

/-- A line that is longer is folded where that is possible. -/
def width : Nat := 80

/-- The column where the lines of a folded text begin. -/
def margin : Nat := 4

/-- A new line up to the margin. -/
def newLine : List Char :=
  '\n' :: List.replicate margin ' '

/-- Whether two characters belong to one run of blanks, of breaks or of others. -/
def sameRun (a b : Char) : Bool :=
  (a == ' ') == (b == ' ') && (a == '\n') == (b == '\n')

/-- The longest runs of blanks, of breaks and of other characters. -/
def runs : List Char → List (List Char)
  | [] => []
  | c :: rest =>
      match runs rest with
      | [] => [[c]]
      | run :: others =>
          if (run.head?.map (sameRun c)).getD true then (c :: run) :: others
          else [c] :: run :: others

/-- The runs of a text make up the text. -/
theorem flatten_runs (text : List Char) : (runs text).flatten = text := by
  induction text with
  | nil => rfl
  | cons c rest ih =>
      rw [runs]
      split
      · next h =>
        rw [h] at ih
        simpa using ih
      · next run others h =>
        rw [h] at ih
        split <;> simpa using ih

/-- Runs from a column on.  A single blank within the text can become a new line;
breaks are written once more than they are, and go on at the margin. -/
def foldRuns : Bool → Nat → List (List Char) → List Char
  | _, _, [] => []
  | first, column, run :: rest =>
      if run = [' '] && !first && !rest.isEmpty && width < column then
        newLine ++ foldRuns false margin rest
      else if run.head? = some '\n' then
        '\n' :: run ++ List.replicate margin ' ' ++ foldRuns false margin rest
      else run ++ foldRuns false (column + run.length) rest

/-! ## Double marks -/

/-- Whether a character is escaped between double marks. -/
def isEscaped (c : Char) : Bool :=
  c == '"' || c == '\\' || !(' ' ≤ c && c ≤ '~')

/-- A number in upper-case hexadecimal digits. -/
def upperHex (digits n : Nat) : List Char :=
  (Hex.padded digits n).map Char.toUpper

/-- The escape of a character: by a letter if it has one, else by its number. -/
def escape (c : Char) : List Char :=
  match escapes.find? fun pair => pair.2 == c with
  | some (letter, _) => ['\\', letter]
  | none =>
      if c.toNat < 0x100 then '\\' :: 'x' :: upperHex 2 c.toNat
      else if c.toNat < 0x10000 then '\\' :: 'u' :: upperHex 4 c.toNat
      else '\\' :: 'U' :: upperHex 8 c.toNat

/-- A new line that is left out when it is read; a blank behind it is kept by a
backslash. -/
def splice (next : Option Char) : List Char :=
  '\\' :: newLine ++ (if next = some ' ' then ['\\'] else [])

/-- The column behind a spliced line. -/
def spliceColumn (next : Option Char) : Nat :=
  if next = some ' ' then margin + 1 else margin

/-- A text between double marks, from a column on.  Within the text, lines that
are too long are spliced behind an escape, before a blank, and before what follows
an escape. -/
def escapeFrom (first afterEscape : Bool) (column : Nat) : List Char → List Char
  | [] => []
  | c :: rest =>
      let inner := !first && !rest.isEmpty
      if isEscaped c then
        let column := column + (escape c).length
        if inner && width + 1 < column then
          escape c ++ splice rest.head? ++ escapeFrom false true (spliceColumn rest.head?) rest
        else escape c ++ escapeFrom false true column rest
      else if inner && (c == ' ' || afterEscape) && width < column then
        splice (some c) ++ c :: escapeFrom false false (spliceColumn (some c) + 1) rest
      else c :: escapeFrom false false (column + 1) rest

/-! ## Spelling -/

/-- A text with its single marks written twice. -/
def doubled (text : List Char) : List Char :=
  text.flatMap fun c => if c = '\'' then ['\'', '\''] else [c]

/-- The spelling of a text that begins in a column. -/
def spell (column : Nat) (text : List Char) : List Char :=
  match ofText text with
  | .plain => foldRuns true column (runs text)
  | .single => '\'' :: foldRuns true (column + 1) (runs (doubled text)) ++ ['\'']
  | .double => '"' :: escapeFrom true true (column + 1) text ++ ['"']

end Style

end StakeLedger.Yaml
