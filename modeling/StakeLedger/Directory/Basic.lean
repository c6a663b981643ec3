import StakeLedger.Directory.Path
import StakeLedger.Ledger.Basic
import StakeLedger.Text.Printable
import StakeLedger.Text.Utf8

/-!
# Directories

What is kept between runs: texts, other files and ledgers in directories.  A path is followed
name by name from the working directory on, or from the root.  There are no links.

Main definitions:

- {lit}`Item`: what can stand at a place.
- {lit}`Directory`: the items below the outermost directory, with
  {lit}`Directory.find?` and {lit}`Directory.put`.
- {lit}`PathFault`: why a path cannot be used.
- {lit}`Directory.follow`: the place that a path leads to.

Main results:

- Theorems {lit}`Directory.find?_put`, {lit}`Directory.find?_put_of_none` and
  {lit}`Directory.find?_put_cases`: what is found after an item was put in.
- Theorem {lit}`Directory.item_of_follow`: the place of a path is shown with what stands
  there.
-/

namespace StakeLedger

/-- What can stand at a place. -/
inductive Item where
  | directory
  | text (s : String)
  /-- Octets that spell no text and are no ledger. -/
  | garbled (g : Utf8.Garbled)
  | ledger (l : Ledger)
deriving DecidableEq

/-- The items by the names that lead to them, from the working directory or from the
root. -/
structure Directory where
  items : List (List String × Item) := []

/-- Why something cannot be done at a path. -/
inductive PathFault.Cause where
  | missing
  | present
  | notDirectory
  | isDirectory
  | nameTooLong
  /-- A path holds the character that ends paths. -/
  | endMark
  /-- Something else than a text was to be read. -/
  | notText
  /-- The disk refused, with a message. -/
  | refused (message : String)
deriving DecidableEq, Repr

/-- A path that cannot be used, and why. -/
structure PathFault where
  cause : PathFault.Cause
  path : String
deriving DecidableEq, Repr

/-- What is said of a path that cannot be used. -/
def PathFault.message (f : PathFault) : String :=
  let path := Printable.quoted f.path
  match f.cause with
  | .missing => s!"[Errno 2] No such file or directory: {path}"
  | .present => s!"[Errno 17] File exists: {path}"
  | .notDirectory => s!"[Errno 20] Not a directory: {path}"
  | .isDirectory => s!"[Errno 21] Is a directory: {path}"
  | .nameTooLong => s!"[Errno 36] File name too long: {path}"
  | .endMark => "embedded null byte"
  | .notText => "'utf-8' codec can't decode the file: invalid start byte"
  | .refused message => message

namespace Directory

/-- What stands at a place; the directories where paths begin are always there. -/
def find? (d : Directory) (names : List String) : Option Item :=
  if Path.isStart names then some .directory else d.items.lookup names

/-- A directory with an item at a place, in place of what stood there. -/
def put (d : Directory) (names : List String) (item : Item) : Directory where
  items := (names, item) :: d.items.filter fun pair => pair.1 ≠ names

/-- Leaving out the items of one place does not change what stands at others. -/
theorem lookup_filter_ne (items : List (List String × Item)) {names others : List String}
    (h : others ≠ names) :
    (items.filter fun pair => pair.1 ≠ names).lookup others = items.lookup others := by
  induction items with
  | nil => rfl
  | cons pair rest ih =>
      obtain ⟨key, item⟩ := pair
      by_cases hkey : key = names
      · have hne : (others == key) = false := by simpa [hkey] using h
        rw [List.filter_cons_of_neg (by simp [hkey]), List.lookup_cons, hne]
        exact ih
      · rw [List.filter_cons_of_pos (by simp [hkey]), List.lookup_cons, List.lookup_cons, ih]

/-- What is found after an item was put in. -/
theorem find?_put (d : Directory) (names others : List String) (item : Item) :
    (d.put names item).find? others =
      if Path.isStart others then some .directory
      else if others = names then some item
      else d.find? others := by
  unfold find?
  by_cases hstart : Path.isStart others
  · simp [hstart]
  · simp only [hstart, put, List.lookup_cons]
    by_cases h : others = names
    · simp [h]
    · have hne : (others == names) = false := by simpa using h
      rw [hne, if_neg h]
      exact lookup_filter_ne d.items h

/-- What stands at other places is still found after an item was put in. -/
theorem find?_put_of_ne {d : Directory} {names others : List String} {found : Item}
    (hne : others ≠ names) (h : d.find? others = some found) (item : Item) :
    (d.put names item).find? others = some found := by
  rw [find?_put, if_neg hne, h]
  split
  · next hstart => rw [← h, find?, if_pos hstart]
  · rfl

/-- What is there is still found after an item was put where nothing was. -/
theorem find?_put_of_none {d : Directory} {names others : List String} {found : Item}
    (hnone : d.find? names = none) (h : d.find? others = some found) (item : Item) :
    (d.put names item).find? others = some found := by
  refine find?_put_of_ne ?_ h item
  rintro rfl
  rw [h] at hnone
  cases hnone

/-- What is found after an item was put in was there before, or is that item. -/
theorem find?_put_cases {d : Directory} {names others : List String} {item found : Item}
    (h : (d.put names item).find? others = some found) :
    d.find? others = some found ∨ others = names ∧ found = item := by
  rw [find?_put] at h
  split at h
  · next hstart =>
    left
    rw [find?, if_pos hstart]
    exact h
  · split at h
    · next hnames => exact Or.inr ⟨hnames, (Option.some.inj h).symm⟩
    · exact Or.inl h

/-- How many octets a name may have. -/
def longestName : Nat := 255

/-- A place, and what stands there. -/
structure Place where
  names : List String
  item : Option Item

/-- The place that some names lead to from a directory on.  All but the last name
must lead to directories. -/
def walk (d : Directory) : List String → List String → Except PathFault.Cause Place
  | here, [] => .ok ⟨here, d.find? here⟩
  | here, name :: rest =>
      if name = "." then walk d here rest
      else if name = ".." then walk d (Path.up here) rest
      else if longestName < (Utf8.encode name.toList).length then .error .nameTooLong
      else
        match d.find? (here ++ [name]), rest with
        | some .directory, _ => walk d (here ++ [name]) rest
        | item, [] => .ok ⟨here ++ [name], item⟩
        | none, _ => .error .missing
        | some _, _ => .error .notDirectory

/-- A place is shown with what stands there. -/
theorem item_of_walk {d : Directory} {here rest : List String} {place : Place}
    (h : d.walk here rest = .ok place) : place.item = d.find? place.names := by
  induction rest generalizing here with
  | nil =>
      cases h
      rfl
  | cons name rest ih =>
      unfold walk at h
      split at h
      · exact ih h
      · split at h
        · exact ih h
        · split at h
          · cases h
          · split at h
            · exact ih h
            · cases h
              rfl
            · cases h
            · cases h

/-- The place that a path leads to. -/
def follow (d : Directory) (path : String) : Except PathFault.Cause Place :=
  if path.toList.contains '\x00' then .error .endMark
  else if path = "" then .error .missing
  else d.walk [] (Path.names path)

/-- The place of a path is shown with what stands there. -/
theorem item_of_follow {d : Directory} {path : String} {place : Place}
    (h : d.follow path = .ok place) : place.item = d.find? place.names := by
  unfold follow at h
  split at h
  · cases h
  · split at h
    · cases h
    · exact item_of_walk h

/-- What stands at a path, if it leads to anything. -/
def at? (d : Directory) (path : String) : Option Item :=
  match d.follow path with
  | .ok place => place.item
  | .error _ => none

/-- The directory with some texts in it, and the directories around them. -/
def ofTexts (texts : List (String × String)) : Directory :=
  texts.foldl (fun d (path, text) =>
    let names := Path.plainNames path
    let around := (List.range names.length).filterMap fun n =>
      if 0 < n && (d.find? (names.take n)).isNone then some (names.take n) else none
    (around.foldl (fun d names => d.put names .directory) d).put names (.text text)) {}

end Directory

end StakeLedger
