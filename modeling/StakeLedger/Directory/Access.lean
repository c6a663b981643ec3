import StakeLedger.Directory.Basic

/-!
# Access to directories

Directories are made with those around them, texts are read and written, and
ledgers are opened.  A ledger without a name is private and is kept nowhere.  A disk may
refuse a text, and may be full before all of it is written.

Main definitions:

- {lit}`Disk`: how texts are taken.
- {lit}`Directory.makeAll`: make a directory and those around it.
- {lit}`Directory.read`, {lit}`Directory.write`: the text at a path.
- {lit}`Directory.openLedger`: the ledger at a path.

Main results:

- Theorem {lit}`Directory.find?_make`: making a directory leaves what is there.
-/

namespace StakeLedger

/-- Why a ledger cannot be opened. -/
inductive OpenFault where
  | noPlace
  | notLedger
  | endMark
deriving DecidableEq, Repr

/-- What is said of a ledger that cannot be opened. -/
def OpenFault.message : OpenFault → String
  | .noPlace => "unable to open database file"
  | .notLedger => "file is not a database"
  | .endMark => "embedded null byte"

/-- What becomes of a text that is to be written: all of it is stored, it is cut after so many
characters, or nothing is written at all.  In the last two cases something is said. -/
inductive Disk.Fate where
  | stored
  | cut (count : Nat) (message : String)
  | refused (message : String)

/-- How the texts at paths are taken: what is said against reading one, if it cannot be read, and
what becomes of one that is to be written. -/
structure Disk where
  refusal? : String → Option String := fun _ => none
  fate : String → Disk.Fate := fun _ => .stored

/-- An open ledger and the place where it is kept, if it is. -/
structure OpenLedger where
  ledger : Ledger
  place : Option (List String) := none

namespace Directory

/-! ## Making directories -/

/-- Make a single directory. -/
def make (d : Directory) (path : String) : Directory × Option PathFault :=
  match d.follow (String.ofList (Path.withoutSlashes path.toList)) with
  | .error cause => (d, some ⟨cause, path⟩)
  | .ok ⟨names, none⟩ => (d.put names .directory, none)
  | .ok ⟨_, some .directory⟩ => (d, none)
  | .ok ⟨_, some _⟩ => (d, some ⟨.present, path⟩)

/-- Make a directory and those around it that are not there.  One that is there
already is fine; what was made before a fault stays. -/
def makeAllAt (d : Directory) (path : List Char) : Directory × Option PathFault :=
  let (around, name) := Path.split path
  if h : (Path.split path).2 ≠ [] ∧ around ≠ [] ∧ (d.at? (String.ofList around)).isNone then
    have := Path.length_split_lt path h.1
    match makeAllAt d (Path.split path).1 with
    | (d, none) => if name = ['.'] then (d, none) else d.make (String.ofList path)
    | failed => failed
  else d.make (String.ofList path)
termination_by path.length

/-- Make the directory at a path and those around it. -/
def makeAll (d : Directory) (path : String) : Directory × Option PathFault :=
  d.makeAllAt path.toList

/-- Making a directory leaves what is there. -/
theorem find?_make {d : Directory} {names : List String} {item : Item}
    (h : d.find? names = some item) (path : String) :
    (d.make path).1.find? names = some item := by
  unfold make
  split
  · exact h
  · next made hplace => exact find?_put_of_none (item_of_follow hplace).symm h .directory
  · exact h
  · exact h

/-! ## Texts -/

/-- The text at a path. -/
def read (d : Directory) (path : String) : Except PathFault String :=
  match d.follow path with
  | .error cause => .error ⟨cause, path⟩
  | .ok ⟨_, none⟩ => .error ⟨.missing, path⟩
  | .ok ⟨_, some .directory⟩ => .error ⟨.isDirectory, path⟩
  | .ok ⟨_, some (.garbled _)⟩ => .error ⟨.notText, path⟩
  | .ok ⟨_, some (.ledger _)⟩ => .error ⟨.notText, path⟩
  | .ok ⟨_, some (.text s)⟩ => .ok s

/-- Write a text at a path, as far as the disk takes it. -/
def write (disk : Disk) (d : Directory) (path text : String) : Directory × Option PathFault :=
  match d.follow path with
  | .error cause => (d, some ⟨cause, path⟩)
  | .ok ⟨_, some .directory⟩ => (d, some ⟨.isDirectory, path⟩)
  | .ok ⟨names, _⟩ =>
      match disk.fate path with
      | .stored => (d.put names (.text text), none)
      | .cut count message =>
          (d.put names (.text (String.ofList (text.toList.take count))),
            some ⟨.refused message, path⟩)
      | .refused message => (d, some ⟨.refused message, path⟩)

/-! ## Ledgers -/

/-- The path of a ledger that is kept only as long as it is open. -/
def fleeting : String := ":memory:"

/-- The names that lead to a ledger: a step up takes the name before it away, even
where that leads nowhere, but nothing lies below what is no directory. -/
def shorten (d : Directory) : List String → List String → Option (List String)
  | here, [] => some here
  | here, name :: rest =>
      if name = "." then shorten d here rest
      else if name = ".." then shorten d (Path.up here) rest
      else
        match d.find? here with
        | none => shorten d (here ++ [name]) rest
        | some .directory =>
            if longestName < (Utf8.encode name.toList).length then none
            else shorten d (here ++ [name]) rest
        | some _ => none

/-- The place that leads to a ledger. -/
def ledgerPlace? (d : Directory) (path : String) : Option Place := do
  (d.walk [] (← d.shorten [] (Path.names path))).toOption

/-- The ledger at a path.  An empty file becomes a ledger, any other text is
none. -/
def openLedger (d : Directory) (path : String) : Except OpenFault OpenLedger :=
  if path.toList.contains '\x00' then .error .endMark
  else if path = "" ∨ path = fleeting then .ok { ledger := .empty }
  else
    match d.ledgerPlace? path with
    | none => .error .noPlace
    | some ⟨_, some .directory⟩ => .error .noPlace
    | some ⟨names, none⟩ => .ok { ledger := .empty, place := some names }
    | some ⟨names, some (.text text)⟩ =>
        if text = "" then .ok { ledger := .empty, place := some names }
        else .error .notLedger
    | some ⟨_, some (.garbled _)⟩ => .error .notLedger
    | some ⟨names, some (.ledger l)⟩ => .ok { ledger := l.reopen, place := some names }

/-- Keep a ledger in its place, if it has one. -/
def keep (d : Directory) (opened : OpenLedger) : Directory :=
  match opened.place with
  | none => d
  | some names => d.put names (.ledger opened.ledger)

end Directory

end StakeLedger
