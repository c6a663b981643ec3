import StakeLedger.Directory.Access

/-!
# Places that stay

A path leads to a place through directories, so it still leads there as long as these stay.  Making
the directories of a path changes nothing that is there, and what is new lies where the path or its
beginning leads.  A ledger is opened where nothing is yet, in an empty file, or where there is a
ledger, and lies in a directory under the name that its path ends with.

Main definitions:

- {lit}`Path.IsPlain`, {lit}`Path.IsFileName`: names that lead further down, and those of files.
- {lit}`Directory.Leads`: the place that a path leads to.
- {lit}`Directory.SameFiles`: directories with the same files in them.
- {lit}`Directory.OnlyMade`: what making the directories of a path may change.
- {lit}`Directory.GivesWay`: what a ledger may be opened in place of.

Main results:

- Theorem {lit}`Path.names_join`: the path of a file in a directory ends with its name.
- Theorem {lit}`Directory.Leads.of_kept`: paths lead where they led as long as directories stay.
- Theorem {lit}`Directory.write_cases`: what writing a text changes.
- Theorem {lit}`Directory.onlyMade_makeAll`: what making the directories of a path changes.
- Theorem {lit}`Directory.givesWay_of_openLedger`: the places where ledgers are opened.
- Theorem {lit}`Directory.exists_last_of_openLedger`: the name under which a ledger is kept.
-/

namespace StakeLedger

/-! ## Paths -/

namespace Path

/-- A name that leads further down: no step to the same directory and no step up. -/
structure IsPlain (name : String) : Prop where
  notHere : name ≠ "."
  notUp : name ≠ ".."

/-- A name that a file may have. -/
structure IsFileName (name : String) : Prop extends IsPlain name where
  nonempty : name ≠ ""
  unbroken : '/' ∉ name.toList

instance (name : String) : Decidable (IsPlain name) :=
  decidable_of_iff (name ≠ "." ∧ name ≠ "..")
    ⟨fun h => ⟨h.1, h.2⟩, fun h => ⟨h.notHere, h.notUp⟩⟩

instance (name : String) : Decidable (IsFileName name) :=
  decidable_of_iff (IsPlain name ∧ name ≠ "" ∧ '/' ∉ name.toList)
    ⟨fun h => ⟨h.1, h.2.1, h.2.2⟩, fun h => ⟨h.toIsPlain, h.nonempty, h.unbroken⟩⟩

/-- The path of a file is its name behind a path that is empty or ends with a slash. -/
theorem exists_join (directory file : String) :
    ∃ stem, join directory file = stem ++ file ∧
      (stem = "" ∨ ∃ front, stem.toList = front ++ ['/']) := by
  unfold join
  split
  · next h =>
    refine ⟨directory, rfl, ?_⟩
    rw [Bool.or_eq_true, decide_eq_true_eq] at h
    rcases h with hempty | hslash
    · exact Or.inl hempty
    · right
      rw [String.endsWith_eq_endsWith_toSlice, String.Slice.endsWith_string_iff] at hslash
      rcases hslash with ⟨front, hfront⟩
      exact ⟨front, by simpa using hfront.symm⟩
  · refine ⟨directory ++ "/", rfl, Or.inr ⟨directory.toList, ?_⟩⟩
    exact String.toList_append

/-- What ends with the name of a file does not end with a slash. -/
theorem endsWith_slash_eq_false {file : String} (h : IsFileName file) (stem : String) :
    (stem ++ file).endsWith "/" = false := by
  rw [Bool.eq_false_iff]
  intro hslash
  rw [String.endsWith_eq_endsWith_toSlice, String.Slice.endsWith_string_iff, String.copy_toSlice,
    String.toList_append] at hslash
  have hfile : file.toList <:+ stem.toList ++ file.toList := List.suffix_append _ _
  have hlength : 1 ≤ file.toList.length := by
    rw [Nat.one_le_iff_ne_zero, Ne, List.length_eq_zero_iff, String.toList_eq_nil_iff]
    exact h.nonempty
  have hlast : ['/'] <:+ file.toList := List.suffix_of_suffix_length_le hslash hfile hlength
  exact h.unbroken (hlast.subset List.mem_cons_self)

/-- The path of a file in a directory ends with its name. -/
theorem names_join (directory : String) {file : String} (h : IsFileName file) :
    ∃ before, names (join directory file) = before ++ [file] := by
  rcases exists_join directory file with ⟨stem, hjoin, hstem⟩
  have hpieces : ∃ others, pieces '/' (stem ++ file).toList = others ++ [file.toList] := by
    rw [String.toList_append]
    rcases hstem with rfl | ⟨front, hfront⟩
    · exact ⟨[], pieces_of_notMem h.unbroken⟩
    · refine ⟨pieces '/' front, ?_⟩
      rw [hfront, List.append_assoc, List.singleton_append, pieces_append,
        pieces_of_notMem h.unbroken]
  rcases hpieces with ⟨others, hpieces⟩
  have hkept : ([file.toList].map String.ofList).filter (· ≠ "") = [file] := by
    simp [h.nonempty]
  rw [hjoin, names, hpieces, endsWith_slash_eq_false h, List.map_append, List.filter_append, hkept,
    if_neg Bool.false_ne_true, List.append_nil, ← List.append_assoc]
  exact ⟨_, rfl⟩

/-- A path without the slashes at its end is a beginning of it. -/
theorem isPrefix_withoutSlashes (path : List Char) : withoutSlashes path <+: path := by
  rw [← List.reverse_suffix, withoutSlashes, List.reverse_reverse]
  exact List.dropWhile_suffix _

/-- The path of the directory around is a beginning of a path. -/
theorem isPrefix_split (path : List Char) : (split path).1 <+: path := by
  have haround := isPrefix_withoutSlashes
    ((withoutSlashes path).take ((withoutSlashes path).length - (split path).2.length))
  exact (haround.trans (List.take_prefix _ _)).trans (isPrefix_withoutSlashes path)

end Path

namespace Directory

/-! ## Where paths lead -/

/-- A path leads to a place, whatever stands there. -/
def Leads (d : Directory) (path : String) (names : List String) : Prop :=
  d.follow path = .ok ⟨names, d.find? names⟩

/-- What a path is followed to is where it leads. -/
theorem leads_of_follow {d : Directory} {path : String} {names : List String} {item : Option Item}
    (h : d.follow path = .ok ⟨names, item⟩) : d.Leads path names := by
  have hitem := item_of_follow h
  rw [Leads, h, ← hitem]

/-- What stands at a path stands at the place that it leads to. -/
theorem at?_eq_some_iff {d : Directory} {path : String} {item : Item} :
    d.at? path = some item ↔ ∃ names, d.Leads path names ∧ d.find? names = some item := by
  constructor
  · intro h
    unfold at? at h
    split at h
    · next place hplace =>
      exact ⟨place.names, leads_of_follow hplace, (item_of_follow hplace).symm.trans h⟩
    · cases h
  · intro h
    rcases h with ⟨names, hleads, hitem⟩
    rw [at?, hleads, hitem]

/-- Nothing is found where a path leads if nothing stands at it. -/
theorem Leads.find?_eq_none {d : Directory} {path : String} {names : List String}
    (h : d.Leads path names) (hnone : ¬(d.at? path).isSome) : d.find? names = none := by
  rw [at?, h] at hnone
  exact Option.not_isSome_iff_eq_none.mp hnone

/-- A plain name leads into a directory. -/
theorem walk_into {d : Directory} {here : List String} {name : String} (hname : Path.IsPlain name)
    (hshort : ¬longestName < (Utf8.encode name.toList).length)
    (hfind : d.find? (here ++ [name]) = some .directory) (rest : List String) :
    d.walk here (name :: rest) = d.walk (here ++ [name]) rest := by
  rw [walk.eq_2 d here name rest hfind, if_neg hname.notHere, if_neg hname.notUp, if_neg hshort]

/-- The last name leads to whatever has it. -/
theorem walk_last {d : Directory} {name : String} (hname : Path.IsPlain name)
    (hshort : ¬longestName < (Utf8.encode name.toList).length) (here : List String) :
    d.walk here [name] = .ok ⟨here ++ [name], d.find? (here ++ [name])⟩ := by
  unfold walk
  rw [if_neg hname.notHere, if_neg hname.notUp, if_neg hshort]
  cases hfind : d.find? (here ++ [name]) with
  | none => rfl
  | some item =>
      cases item with
      | directory => simp only [walk, hfind]
      | text s => rfl
      | garbled g => rfl
      | ledger l => rfl

/-- Names lead on from a directory in one of four ways. -/
theorem walk_cons_cases {d : Directory} {here rest : List String} {name : String} {place : Place}
    (h : d.walk here (name :: rest) = .ok place) :
    name = "." ∧ d.walk here rest = .ok place ∨
      name = ".." ∧ d.walk (Path.up here) rest = .ok place ∨
      Path.IsPlain name ∧ ¬longestName < (Utf8.encode name.toList).length ∧
        (d.find? (here ++ [name]) = some .directory ∧ d.walk (here ++ [name]) rest = .ok place ∨
          rest = [] ∧ place = ⟨here ++ [name], d.find? (here ++ [name])⟩) := by
  unfold walk at h
  split at h
  · next hhere => exact Or.inl ⟨hhere, h⟩
  · next hhere =>
    right
    split at h
    · next hup => exact Or.inl ⟨hup, h⟩
    · next hup =>
      right
      split at h
      · cases h
      · next hshort =>
        refine ⟨⟨hhere, hup⟩, hshort, ?_⟩
        split at h
        · next hfind => exact Or.inl ⟨hfind, h⟩
        · exact Or.inr ⟨rfl, (Except.ok.inj h).symm⟩
        · cases h
        · cases h

/-- A text that is read at a path stands at the place that it leads to. -/
theorem find?_of_read {d : Directory} {path text : String} {names : List String}
    (h : d.read path = .ok text) (hleads : d.Leads path names) :
    d.find? names = some (.text text) := by
  unfold read at h
  rw [hleads] at h
  split at h
  · cases h
  · cases h
  · cases h
  · cases h
  · cases h
  · next hplace =>
    cases h
    exact congrArg Place.item (Except.ok.inj hplace)

section

variable {d e : Directory}
  (hkept : ∀ names, d.find? names = some .directory → e.find? names = some .directory)
include hkept

/-- Names lead where they led as long as directories stay. -/
theorem walk_of_kept {here rest : List String} {place : Place} (h : d.walk here rest = .ok place) :
    e.walk here rest = .ok ⟨place.names, e.find? place.names⟩ := by
  induction rest generalizing here with
  | nil =>
      cases h
      rfl
  | cons name rest ih =>
      rcases walk_cons_cases h with ⟨rfl, hrest⟩ | ⟨rfl, hrest⟩ | ⟨hname, hshort, hcase⟩
      · exact ih hrest
      · exact ih hrest
      · rcases hcase with ⟨hfind, hrest⟩ | ⟨rfl, rfl⟩
        · rw [walk_into hname hshort (hkept _ hfind)]
          exact ih hrest
        · exact walk_last hname hshort here

/-- A path leads where it led as long as directories stay. -/
theorem Leads.of_kept {path : String} {names : List String} (h : d.Leads path names) :
    e.Leads path names := by
  unfold Leads follow at h ⊢
  split at h
  · cases h
  · next hmark =>
    rw [if_neg hmark]
    split at h
    · cases h
    · next hempty =>
      rw [if_neg hempty]
      exact walk_of_kept hkept h

end

/-! ## Writing texts -/

/-- Writing a text at a path does nothing, stores it where the path leads, or stores the beginning
of it there. -/
theorem write_cases (disk : Disk) (d : Directory) (path text : String) :
    (∃ fault, d.write disk path text = (d, some fault)) ∨
      ∃ names, d.Leads path names ∧
        (d.write disk path text = (d.put names (.text text), none) ∨
          ∃ count message, disk.fate path = .cut count message ∧
            d.write disk path text = (d.put names (.text (String.ofList (text.toList.take count))),
              some ⟨.refused message, path⟩)) := by
  unfold write
  split
  · exact Or.inl ⟨_, rfl⟩
  · exact Or.inl ⟨_, rfl⟩
  · next names _ _ hplace =>
    have hleads : d.Leads path names := leads_of_follow hplace
    split
    · exact Or.inr ⟨names, hleads, Or.inl rfl⟩
    · next count message hfate =>
      exact Or.inr ⟨names, hleads, Or.inr ⟨count, message, hfate, rfl⟩⟩
    · exact Or.inl ⟨_, rfl⟩

/-! ## Making directories -/

/-- The same files stand at the same places, with the same contents. -/
def SameFiles (d e : Directory) : Prop :=
  ∀ names item, item ≠ .directory → (d.find? names = some item ↔ e.find? names = some item)

namespace SameFiles

/-- A directory has the same files as itself. -/
theorem refl (d : Directory) : d.SameFiles d :=
  fun _ _ _ => Iff.rfl

/-- The files stay the same if they do so one time after the other. -/
theorem trans {d e f : Directory} (h : d.SameFiles e) (hnext : e.SameFiles f) : d.SameFiles f :=
  fun names item hfile => (h names item hfile).trans (hnext names item hfile)

end SameFiles

/-- What making the directories of a path may change: whatever is there stays, and what is new are
directories where the path or a beginning of it leads. -/
structure OnlyMade (path : List Char) (before after : Directory) : Prop where
  kept : ∀ names item, before.find? names = some item → after.find? names = some item
  made : ∀ names item, after.find? names = some item → before.find? names = some item ∨
    item = .directory ∧ ∃ part, part <+: path ∧ after.Leads (String.ofList part) names

namespace OnlyMade

variable {path : List Char} {before between after : Directory}

/-- Paths lead where they led before directories were made. -/
theorem leads (h : OnlyMade path before after) {other : String} {names : List String}
    (hleads : before.Leads other names) : after.Leads other names :=
  hleads.of_kept fun names hfind => h.kept names _ hfind

/-- Directories of a path may be made one after the other. -/
theorem trans (h : OnlyMade path before between) (hnext : OnlyMade path between after) :
    OnlyMade path before after := by
  constructor
  · intro names item hfind
    exact hnext.kept names item (h.kept names item hfind)
  · intro names item hfind
    rcases hnext.made names item hfind with hbetween | hmade
    · rcases h.made names item hbetween with hbefore | ⟨hitem, part, hpart, hleads⟩
      · exact Or.inl hbefore
      · exact Or.inr ⟨hitem, part, hpart, hnext.leads hleads⟩
    · exact Or.inr hmade

/-- The directories of a beginning of a path are directories of the path. -/
theorem mono (h : OnlyMade path before after) {longer : List Char} (hpath : path <+: longer) :
    OnlyMade longer before after := by
  refine ⟨h.kept, ?_⟩
  intro names item hfind
  rcases h.made names item hfind with hbefore | ⟨hitem, part, hpart, hleads⟩
  · exact Or.inl hbefore
  · exact Or.inr ⟨hitem, part, hpart.trans hpath, hleads⟩

/-- Making directories leaves the files as they are. -/
theorem sameFiles (h : OnlyMade path before after) : before.SameFiles after := by
  intro names item hfile
  constructor
  · exact h.kept names item
  · intro hfind
    rcases h.made names item hfind with hbefore | ⟨hitem, -⟩
    · exact hbefore
    · exact absurd hitem hfile

end OnlyMade

/-- A directory is made if its path leads somewhere and nothing is there yet. -/
theorem make_cases (d : Directory) (path : List Char) :
    (d.make (String.ofList path)).1 = d ∨
      ∃ names, d.follow (String.ofList (Path.withoutSlashes path)) = .ok ⟨names, none⟩ ∧
        (d.make (String.ofList path)).1 = d.put names .directory := by
  unfold make
  rw [String.toList_ofList]
  split
  · exact Or.inl rfl
  · next names hplace => exact Or.inr ⟨names, hplace, rfl⟩
  · exact Or.inl rfl
  · exact Or.inl rfl

/-- Making a directory makes no other one. -/
theorem onlyMade_make (d : Directory) (path : List Char) :
    OnlyMade path d (d.make (String.ofList path)).1 := by
  have hkept : ∀ names item, d.find? names = some item →
      (d.make (String.ofList path)).1.find? names = some item :=
    fun _ _ hfind => find?_make hfind _
  refine ⟨hkept, ?_⟩
  intro names item hfind
  rcases make_cases d path with hsame | ⟨made, hplace, hput⟩
  · rw [hsame] at hfind
    exact Or.inl hfind
  · have hleads : (d.make (String.ofList path)).1.Leads
        (String.ofList (Path.withoutSlashes path)) made :=
      (leads_of_follow hplace).of_kept fun others => hkept others _
    rw [hput] at hfind
    rcases find?_put_cases hfind with hbefore | ⟨rfl, hitem⟩
    · exact Or.inl hbefore
    · exact Or.inr ⟨hitem, _, Path.isPrefix_withoutSlashes path, hleads⟩

/-- Making a directory and those around it makes no others. -/
theorem onlyMade_makeAllAt (d : Directory) (path : List Char) :
    OnlyMade path d (d.makeAllAt path).1 := by
  fun_induction makeAllAt d path with
  | case1 =>
      rename_i hmade _ ih
      rw [hmade] at ih
      exact ih.mono (Path.isPrefix_split _)
  | case2 =>
      rename_i hmade _ ih
      rw [hmade] at ih
      exact (ih.mono (Path.isPrefix_split _)).trans (onlyMade_make _ _)
  | case3 =>
      rename_i ih
      exact ih.mono (Path.isPrefix_split _)
  | case4 => exact onlyMade_make _ _

/-- Making the directories of a path makes no others. -/
theorem onlyMade_makeAll (d : Directory) (path : String) :
    OnlyMade path.toList d (d.makeAll path).1 :=
  onlyMade_makeAllAt d path.toList

/-! ## Where ledgers are opened -/

section

variable {d : Directory} {here before names : List String} {name : String} {place : Place}

/-- What names lead to has the last one of them as its name, if that is a plain one. -/
theorem exists_last_of_walk (hname : Path.IsPlain name)
    (h : d.walk here (before ++ [name]) = .ok place) :
    ∃ around, place.names = around ++ [name] := by
  induction before generalizing here with
  | nil =>
      rcases walk_cons_cases h with ⟨hhere, -⟩ | ⟨hup, -⟩ | ⟨-, hshort, -⟩
      · exact absurd hhere hname.notHere
      · exact absurd hup hname.notUp
      · have hplace := h.symm.trans (walk_last hname hshort here)
        refine ⟨here, ?_⟩
        rw [Except.ok.inj hplace]
  | cons other rest ih =>
      rcases walk_cons_cases h with ⟨-, hrest⟩ | ⟨-, hrest⟩ | ⟨-, -, ⟨-, hrest⟩ | ⟨hrest, -⟩⟩
      · exact ih hrest
      · exact ih hrest
      · exact ih hrest
      · exact absurd hrest (List.concat_ne_nil _ _)

/-- The place that a path leads to has its last name, if that is a plain one. -/
theorem Leads.exists_last {path : String} (h : d.Leads path names) (hname : Path.IsPlain name)
    (hpath : Path.names path = before ++ [name]) : ∃ around, names = around ++ [name] := by
  unfold Leads follow at h
  split at h
  · cases h
  · split at h
    · cases h
    · rw [hpath] at h
      exact exists_last_of_walk hname h

/-- Shortened names end with the last one of them, if that is a plain one. -/
theorem exists_last_of_shorten (hname : Path.IsPlain name)
    (h : d.shorten here (before ++ [name]) = some names) : ∃ around, names = around ++ [name] := by
  induction before generalizing here with
  | nil =>
      rw [List.nil_append] at h
      unfold shorten at h
      rw [if_neg hname.notHere, if_neg hname.notUp] at h
      split at h
      · cases h
        exact ⟨here, rfl⟩
      · split at h
        · cases h
        · cases h
          exact ⟨here, rfl⟩
      · cases h
  | cons other rest ih =>
      rw [List.cons_append] at h
      unfold shorten at h
      split at h
      · exact ih h
      · split at h
        · exact ih h
        · split at h
          · exact ih h
          · split at h
            · cases h
            · exact ih h
          · cases h

end

/-- What a ledger may be opened in place of: nothing, an empty file, or a ledger. -/
def GivesWay : Option Item → Prop
  | none => True
  | some .directory => False
  | some (.text text) => text = ""
  | some (.garbled _) => False
  | some (.ledger _) => True

section

variable {d : Directory} {path name : String} {before names : List String} {place : Place}
  {opened : OpenLedger}

/-- The names of a ledger's path are shortened before they are followed. -/
theorem exists_walk_of_ledgerPlace (h : d.ledgerPlace? path = some place) :
    ∃ shortened, d.shorten [] (Path.names path) = some shortened ∧
      d.walk [] shortened = .ok place := by
  rcases Option.bind_eq_some_iff.mp h with ⟨shortened, hshorten, hplace⟩
  refine ⟨shortened, hshorten, ?_⟩
  cases hwalk : d.walk [] shortened with
  | error cause =>
      rw [hwalk] at hplace
      cases hplace
  | ok found =>
      rw [hwalk] at hplace
      rw [Option.some.inj hplace]

/-- A ledger is kept where its path leads, in place of something that gives way. -/
theorem exists_place_of_openLedger (h : d.openLedger path = .ok opened)
    (hplace : opened.place = some names) :
    ∃ item, d.ledgerPlace? path = some ⟨names, item⟩ ∧ GivesWay item := by
  unfold openLedger at h
  split at h
  · cases h
  · split at h
    · cases h
      cases hplace
    · split at h
      · cases h
      · cases h
      · next hat =>
        cases h
        cases hplace
        exact ⟨_, hat, trivial⟩
      · next hat =>
        split at h
        · next hempty =>
          cases h
          cases hplace
          exact ⟨_, hat, hempty⟩
        · cases h
      · cases h
      · next hat =>
        cases h
        cases hplace
        exact ⟨_, hat, trivial⟩

/-- A ledger is kept in place of something that gives way. -/
theorem givesWay_of_openLedger (h : d.openLedger path = .ok opened)
    (hplace : opened.place = some names) : GivesWay (d.find? names) := by
  rcases exists_place_of_openLedger h hplace with ⟨item, hat, hitem⟩
  rcases exists_walk_of_ledgerPlace hat with ⟨shortened, -, hwalk⟩
  have hshown : item = d.find? names := item_of_walk hwalk
  rw [← hshown]
  exact hitem

/-- A ledger is kept under the last name of its path, if that is a plain one. -/
theorem exists_last_of_openLedger (hname : Path.IsPlain name)
    (hpath : Path.names path = before ++ [name]) (h : d.openLedger path = .ok opened)
    (hplace : opened.place = some names) : ∃ around, names = around ++ [name] := by
  rcases exists_place_of_openLedger h hplace with ⟨item, hat, -⟩
  rcases exists_walk_of_ledgerPlace hat with ⟨shortened, hshorten, hwalk⟩
  rw [hpath] at hshorten
  rcases exists_last_of_shorten hname hshorten with ⟨around, rfl⟩
  exact exists_last_of_walk hname hwalk

/-- Keeping a ledger leaves what stands at other places. -/
theorem find?_keep {item : Item} (hplace : opened.place ≠ some names) (l : Ledger)
    (h : d.find? names = some item) :
    (d.keep { opened with ledger := l }).find? names = some item := by
  unfold keep
  split
  · exact h
  · next other hother =>
    refine find?_put_of_ne ?_ h (.ledger l)
    rintro rfl
    exact hplace hother

/-- Keeping a ledger where it was opened leaves the directories. -/
theorem find?_keep_directory (hopened : d.openLedger path = .ok opened) (l : Ledger)
    (h : d.find? names = some .directory) :
    (d.keep { opened with ledger := l }).find? names = some .directory := by
  refine find?_keep ?_ l h
  intro hplace
  have hgives := givesWay_of_openLedger hopened hplace
  rw [h] at hgives
  exact hgives

end

end Directory

end StakeLedger
