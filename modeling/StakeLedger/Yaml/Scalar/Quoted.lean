import StakeLedger.Yaml.Spot

/-!
# Quoted scalars

Between single marks only the mark itself is special: it is written twice.
Between double marks a backslash begins an escape.  Breaks are folded in both,
and a document marker may not begin a line.

Main definitions:

- {lit}`Yaml.scanFlowFold`: blanks and breaks between two words.
- {lit}`Yaml.scanEscape`: what a backslash begins.
- {lit}`Yaml.scanQuoted`: a scalar behind its opening mark.
-/

namespace StakeLedger.Yaml

/-- Whether a character is a blank or a tabulator. -/
def isTabOrBlank (c : Char) : Bool :=
  c == ' ' || c == '\t'

/-- Breaks with the blanks around them; a document marker at the beginning of a
line is a fault. -/
def scanFlowBreaks : Bool → List Char → Spot → Except Fault (Scanned (List Char))
  | atStart, text, spot =>
      if atStart && isMarker text then refuse .quotedScalar
      else
        match text with
        | [] => .ok ⟨[], [], spot⟩
        | c :: rest =>
            if isTabOrBlank c then scanFlowBreaks false rest (spot.next c)
            else if isBreak c then
              before [breakText c] (scanFlowBreaks true rest (spot.next c))
            else .ok ⟨[], c :: rest, spot⟩

/-- Blanks and breaks between two words: blanks on one line are kept, a usual
break alone is a blank, and others stay breaks. -/
def scanFlowFold (text : List Char) (spot : Spot) : Except Fault (Scanned (List Char)) :=
  let blanks := scanWhile isTabOrBlank text spot
  match blanks.rest with
  | [] => refuse .quotedScalar
  | c :: rest =>
      if isBreak c then
        (scanFlowBreaks true rest (blanks.spot.next c)).map fun more => more.map fun breaks =>
          (if breakText c ≠ '\n' then [breakText c]
            else if breaks.isEmpty then [' '] else []) ++ breaks
      else .ok blanks

/-- The characters that have an escape of one letter, with their letters. -/
def escapes : List (Char × Char) :=
  [('0', '\x00'), ('a', '\x07'), ('b', '\x08'), ('t', '\t'), ('\t', '\t'), ('n', '\n'),
    ('v', '\x0b'), ('f', '\x0c'), ('r', '\r'), ('e', '\x1b'), (' ', ' '), ('"', '"'),
    ('\\', '\\'), ('/', '/'), ('N', '\u0085'), ('_', '\u00a0'), ('L', '\u2028'),
    ('P', '\u2029')]

/-- How many hexadecimal digits follow a letter. -/
def escapeWidth? : Char → Option Nat
  | 'x' => some 2
  | 'u' => some 4
  | 'U' => some 8
  | _ => none

/-- The character of a code; a surrogate has none of its own and reads as
U+FFFD. -/
def characterOf (code : Nat) : Except Fault Char :=
  if 0x10FFFF < code then .error (.scalar (.character code))
  else if 0xD800 ≤ code ∧ code < 0xE000 then .ok '\uFFFD'
  else .ok (Char.ofNat code)

/-- A character given by some hexadecimal digits. -/
def scanNumbered (width : Nat) (text : List Char) (spot : Spot) :
    Except Fault (Scanned (List Char)) :=
  let digits := text.take width
  match digits.mapM Hex.value? with
  | none => refuse .doubleQuotedScalar
  | some values =>
      if values.length = width then
        (characterOf (values.foldl (fun n d => 16 * n + d) 0)).map fun c =>
          ⟨[c], text.drop width, spot.past digits⟩
      else refuse .doubleQuotedScalar

/-- What a backslash begins: a letter, a number, or a break that is left out. -/
def scanEscape (text : List Char) (spot : Spot) : Except Fault (Scanned (List Char)) :=
  match text with
  | [] => refuse .doubleQuotedScalar
  | c :: rest =>
      match escapes.lookup c with
      | some d => .ok ⟨[d], rest, spot.next c⟩
      | none =>
          match escapeWidth? c with
          | some width => scanNumbered width rest (spot.next c)
          | none =>
              if isBreak c then scanFlowBreaks true rest (spot.next c)
              else refuse .doubleQuotedScalar

/-- A scalar behind its opening mark, with double marks or with single ones. -/
def quotedFrom (double : Bool) : Nat → List Char → Spot → Except Fault (Scanned (List Char))
  | 0, _, _ => refuse .quotedScalar
  | n + 1, text, spot =>
      match text with
      | [] => refuse .quotedScalar
      | c :: rest =>
          if isTabOrBlank c || isBreak c then do
            let fold ← scanFlowFold text spot
            before fold.value (quotedFrom double n fold.rest fold.spot)
          else if double then
            if c = '"' then .ok ⟨[], rest, spot.next c⟩
            else if c = '\\' then do
              let escaped ← scanEscape rest (spot.next c)
              before escaped.value (quotedFrom double n escaped.rest escaped.spot)
            else before [c] (quotedFrom double n rest (spot.next c))
          else if c = '\'' then
            match rest with
            | '\'' :: rest =>
                before [c] (quotedFrom double n rest ((spot.next c).next c))
            | _ => .ok ⟨[], rest, spot.next c⟩
          else before [c] (quotedFrom double n rest (spot.next c))

/-- A scalar behind its opening mark. -/
def scanQuoted (double : Bool) (text : List Char) (spot : Spot) :
    Except Fault (Scanned (List Char)) :=
  quotedFrom double (text.length + 1) text spot

end StakeLedger.Yaml
