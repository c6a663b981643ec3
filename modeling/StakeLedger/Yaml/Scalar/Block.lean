import StakeLedger.Yaml.Spot

/-!
# Block scalars

A block scalar is everything that is indented below its header.  The header says
how breaks at the end are treated and may give the indentation; a folded scalar
joins lines that begin with content.

Main definitions:

- {lit}`Yaml.BlockHeader`: what stands behind the indicator.
- {lit}`Yaml.scanBlock`: a block scalar behind its indicator.
-/

namespace StakeLedger.Yaml

/-- What becomes of the breaks at the end. -/
inductive Chomping where
  | clip
  | strip
  | keep
deriving DecidableEq, Repr

/-- The treatment of breaks at the end, and an indentation if one is given. -/
structure BlockHeader where
  chomping : Chomping := .clip
  increment : Option Nat := none

/-- The chomping of an indicator. -/
def chomping? : Char → Option Chomping
  | '+' => some .keep
  | '-' => some .strip
  | _ => none

/-- A chomping indicator if one comes next. -/
def scanChomping (text : List Char) (spot : Spot) : Scanned (Option Chomping) :=
  match text with
  | [] => ⟨none, [], spot⟩
  | c :: rest =>
      match chomping? c with
      | some chomping => ⟨some chomping, rest, spot.next c⟩
      | none => ⟨none, text, spot⟩

/-- An indentation from one to nine if a digit comes next. -/
def scanIncrement (text : List Char) (spot : Spot) : Except Fault (Scanned (Option Nat)) :=
  match text with
  | [] => .ok ⟨none, [], spot⟩
  | c :: rest =>
      if c = '0' then refuse .blockScalar
      else if c.isDigit then .ok ⟨some (c.toNat - 48), rest, spot.next c⟩
      else .ok ⟨none, text, spot⟩

/-- The header with its indicators in either order, up to the end of its line. -/
def scanHeader (text : List Char) (spot : Spot) : Except Fault (Scanned BlockHeader) := do
  let first := scanChomping text spot
  let increment ← scanIncrement first.rest first.spot
  let second :=
    if first.value.isSome || increment.value.isNone then
      (⟨none, increment.rest, increment.spot⟩ : Scanned (Option Chomping))
    else scanChomping increment.rest increment.spot
  if !endsField second.rest.head? then refuse .blockScalar
  else
    let comment := scanComment second.rest second.spot
    if !endsLine comment.rest.head? then refuse .blockScalar
    else
      let ended := scanBreak comment.rest comment.spot
      return ended.map fun _ =>
        { chomping := (first.value.or second.value).getD .clip, increment := increment.value }

/-- Breaks before the first line with content, and the widest indentation on the
way. -/
def scanIndentation : Nat → List Char → Spot → Scanned (List Char × Nat)
  | widest, [], spot => ⟨([], widest), [], spot⟩
  | widest, c :: rest, spot =>
      let after := spot.next c
      if c = ' ' then scanIndentation (max widest after.column) rest after
      else if isBreak c then
        (scanIndentation widest rest after).map fun (breaks, n) => (breakText c :: breaks, n)
      else ⟨([], widest), c :: rest, spot⟩

/-- Breaks, with the blanks of the indentation before and between them. -/
def scanBlockBreaks (indent : Nat) : List Char → Spot → Scanned (List Char)
  | [], spot => ⟨[], [], spot⟩
  | c :: rest, spot =>
      if c = ' ' ∧ spot.column < indent then scanBlockBreaks indent rest (spot.next c)
      else if isBreak c then
        (scanBlockBreaks indent rest (spot.next c)).map (breakText c :: ·)
      else ⟨[], c :: rest, spot⟩

/-- Whether a line begins with content. -/
def beginsWithContent (text : List Char) : Bool :=
  match text with
  | [] => true
  | c :: _ => c ≠ ' ' && c ≠ '\t'

/-- The lines of a scalar from one on, after the breaks before it. -/
def blockLines (folded : Bool) (header : BlockHeader) (indent : Nat) :
    Nat → List Char → List Char → Spot → Scanned (List Char)
  | 0, _, text, spot => ⟨[], text, spot⟩
  | n + 1, breaks, text, spot =>
      let line := scanWhile (fun c => !isBreak c) text spot
      let ended := scanBreak line.rest line.spot
      let next := scanBlockBreaks indent ended.rest ended.spot
      let chars := breaks ++ line.value
      if next.spot.column = indent ∧ next.rest ≠ [] then
        let joint :=
          if folded && ended.value == ['\n'] && beginsWithContent text &&
              beginsWithContent next.rest then
            if next.value.isEmpty then [' '] else []
          else ended.value
        (blockLines folded header indent n next.value next.rest next.spot).map fun more =>
          chars ++ joint ++ more
      else
        next.map fun tail =>
          chars ++ (if header.chomping = .strip then [] else ended.value) ++
            (if header.chomping = .keep then tail else [])

/-- A block scalar behind its indicator, in a collection indented by a number of
columns. -/
def scanBlock (folded : Bool) (parent : Int) (text : List Char) (spot : Spot) :
    Except Fault (Scanned (List Char)) := do
  let header ← scanHeader text spot
  let least := (max 1 (parent + 1)).toNat
  let (indent, first) :=
    match header.value.increment with
    | none =>
        let found := scanIndentation 0 header.rest header.spot
        (max least found.value.2, found.map Prod.fst)
    | some n =>
        let indent := least + n - 1
        (indent, scanBlockBreaks indent header.rest header.spot)
  if first.spot.column = indent ∧ first.rest ≠ [] then
    return blockLines folded header.value indent (first.rest.length + 1) first.value first.rest
      first.spot
  else return first.map fun breaks => if header.value.chomping = .keep then breaks else []

end StakeLedger.Yaml
