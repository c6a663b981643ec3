import StakeLedger.Yaml.Spot

/-!
# Plain scalars

A scalar without quotation marks goes on over blanks and line breaks, as long as
it stays indented and no indicator ends it.  A single break between two lines is
folded into a blank.

Main definitions:

- {lit}`Yaml.plainRun`: the characters up to the next blank or indicator.
- {lit}`Yaml.Fold`: what lies between two runs.
- {lit}`Yaml.scanPlain`: a plain scalar.
-/

namespace StakeLedger.Yaml

/-- The indicators of flow collections that end a plain scalar inside of them. -/
def flowEnders : List Char :=
  [',', '?', '[', ']', '\x7b', '\x7d']

/-- Whether a character ends a run, given the one behind it. -/
def endsPlain (flow : Bool) (c : Char) (next : Option Char) : Bool :=
  endsWord (some c) ||
    (c == ':' && (endsWord next ||
      (flow && (next.map fun d => d ≠ '?' && flowEnders.contains d).getD false))) ||
    (flow && flowEnders.contains c)

/-- The characters up to the next blank or indicator. -/
def plainRun (flow : Bool) : List Char → List Char
  | [] => []
  | c :: rest => if endsPlain flow c rest.head? then [] else c :: plainRun flow rest

/-- What lies between two runs: the characters that it is folded into, none if
nothing joins the runs, and whether a line was ended. -/
structure Fold where
  chars : List Char
  crossed : Bool

/-- Breaks and blanks up to the next line with content; a document marker at the
beginning of a line ends them. -/
def scanFold : List Char → Spot → Scanned (Option (List Char))
  | [], spot => ⟨some [], [], spot⟩
  | c :: rest, spot =>
      if c = ' ' then scanFold rest (spot.next c)
      else if isBreak c then
        if isMarker rest then ⟨none, rest, spot.next c⟩
        else (scanFold rest (spot.next c)).map fun more => more.map (breakText c :: ·)
      else ⟨some [], c :: rest, spot⟩

/-- Breaks as a scalar keeps them: a usual break alone is a blank, and with
others after it it is nothing. -/
def foldBreaks (first : Char) (others : List Char) : List Char :=
  (if first ≠ '\n' then [first] else if others.isEmpty then [' '] else []) ++ others

/-- Blanks, and the breaks after them, behind a run. -/
def scanBetween (text : List Char) (spot : Spot) : Scanned Fold :=
  let blanks := scanWhile (· == ' ') text spot
  match blanks.rest with
  | [] => ⟨⟨blanks.value, false⟩, [], blanks.spot⟩
  | c :: rest =>
      if isBreak c then
        if isMarker rest then ⟨⟨[], true⟩, rest, blanks.spot.next c⟩
        else
          (scanFold rest (blanks.spot.next c)).map fun others =>
            ⟨(others.map (foldBreaks (breakText c))).getD [], true⟩
      else ⟨⟨blanks.value, false⟩, c :: rest, blanks.spot⟩

/-- A plain scalar and whether a line was ended behind it. -/
structure Plain where
  chars : List Char
  crossed : Bool

/-- Whether a plain scalar goes on behind a fold. -/
def goesOn (flow : Bool) (indent : Int) (s : Scanned Fold) : Bool :=
  !s.value.chars.isEmpty && s.rest.head? ≠ some '#' && (flow || indent ≤ s.spot.column)

/-- Runs with what lies between them. -/
def plainFrom (flow : Bool) (indent : Int) : Nat → List Char → Spot → Scanned Plain
  | 0, text, spot => ⟨⟨[], false⟩, text, spot⟩
  | n + 1, text, spot =>
      let run := plainRun flow text
      if run.isEmpty then ⟨⟨[], false⟩, text, spot⟩
      else
        let fold := scanBetween (text.drop run.length) (spot.past run)
        if goesOn flow indent fold && !(plainRun flow fold.rest).isEmpty then
          (plainFrom flow indent n fold.rest fold.spot).map fun more =>
            ⟨run ++ fold.value.chars ++ more.chars, more.crossed⟩
        else fold.map fun f => ⟨run, f.crossed⟩

/-- A plain scalar whose lines are indented by at least a number of columns. -/
def scanPlain (flow : Bool) (indent : Int) (text : List Char) (spot : Spot) : Scanned Plain :=
  plainFrom flow indent text.length text spot

end StakeLedger.Yaml
