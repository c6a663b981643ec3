import StakeLedger.Settings.File
import StakeLedger.Proofs.Settings.Checks
import StakeLedger.Proofs.Yaml.Document

/-!
# Settings written and read back

The text of a file of settings is that of a section.  It is read as the value of the
section, whose members are the settings.  A page size may be so large that there is no such text.

Main results:

- Theorem {lit}`Settings.ofValue_toValue`: the settings are read from their section.
- Theorem {lit}`Settings.ofFile_toFile`: settings that pass their checks are read back from
  the file that is written for them, if their page size can be written.
-/

namespace StakeLedger.Settings

open Schema Yaml

/-- The names in the file are names of sections and members. -/
theorem isName_of_mem {name : String} (h : name ∈ ["server", "host", "port", "write-timeout",
    "read-timeout", "idle-timeout", "allowed-origins", "log-level", "btc-net", "db-path",
    "max-page-size"]) : Cutter.IsName name.toList := by
  revert name
  have hall : ∀ name ∈ ["server", "host", "port", "write-timeout", "read-timeout", "idle-timeout",
      "allowed-origins", "log-level", "btc-net", "db-path", "max-page-size"],
      (name.toList.head?.any Char.isAlpha = true ∧ name.toList.all isNameChar = true) ∧
        Kind.ofPlain name.toList = .text ∧ name.toList.length ≤ 1024 := by
    decide
  intro name h
  obtain ⟨⟨hfirst, hchars⟩, hkind, hshort⟩ := hall name h
  refine ⟨?_, List.all_eq_true.mp hchars, hkind, hshort⟩
  obtain ⟨c, hc, halpha⟩ := Option.any_eq_true _ _ |>.mp hfirst
  obtain ⟨rest, hrest⟩ := List.head?_eq_some_iff.mp hc
  exact ⟨c, rest, hrest, halpha⟩

/-- The numbers of settings that pass their checks can be written if the page size can. -/
theorem isShort_of_fault? {s : Settings} (h : s.fault? = none)
    (hsize : Numeral.IsShort s.pageSize) : ∀ member ∈ s.toSection.members, member.2.IsShort := by
  have hport : Numeral.IsShort s.port := by
    have hbounds := ((fault?_eq_none_iff s).mp h).port
    have hsmall : s.port.natAbs < 10 ^ 5 := by omega
    have hpower : 10 ^ 5 ≤ 10 ^ Numeral.mostDigits := Nat.pow_le_pow_right (by omega) (by decide)
    exact (Numeral.isShort_iff _).mpr (hsmall.trans_le hpower)
  simp only [toSection, List.forall_mem_cons]
  exact ⟨trivial, hport, trivial, trivial, trivial, trivial, trivial, trivial, trivial, hsize,
    List.forall_mem_nil _⟩

/-- The section of settings can be written if their numbers can. -/
theorem wellFormed_toSection {s : Settings}
    (hnumbers : ∀ member ∈ s.toSection.members, member.2.IsShort) : s.toSection.WellFormed where
  name := isName_of_mem (by simp [toSection])
  keys := by
    intro member hmember
    have hkey := List.mem_map_of_mem (f := Prod.fst) hmember
    exact isName_of_mem (List.mem_cons_of_mem "server" hkey)
  distinct := by
    change ["host", "port", "write-timeout", "read-timeout", "idle-timeout", "allowed-origins",
      "log-level", "btc-net", "db-path", "max-page-size"].Nodup
    decide
  nonempty := List.cons_ne_nil _ _
  numbers := hnumbers

/-- Texts are read as they are. -/
theorem each_text (items : List String) (i : Nat) :
    Checked.each text i (items.map .text) = .ok items := by
  induction items generalizing i with
  | nil => rfl
  | cons item rest ih =>
      rw [List.map_cons, Checked.each, ih]
      rfl

/-- A list of texts, too. -/
theorem list_text (items : List String) : list text (.list (items.map .text)) = .ok items :=
  each_text items 0

/-- The settings are read from their section. -/
theorem ofValue_toValue (s : Settings) : ofValue s.toSection.toValue = .ok s := by
  have hserver : ofServer (.dict s.toSection.fields) = .ok s := by
    simp [ofServer, Schema.fields, toSection, Section.fields, member, withDefault, Fields.get?,
      List.lookup, Entry.toValue, Checked.ap, Checked.within, text, int, real, list_text]
  change Checked.within "server" (ofServer (.dict s.toSection.fields)) = .ok s
  rw [hserver, Checked.within]

/-- Settings that pass their checks are read back from the text of their section. -/
theorem ofFile_write {s : Settings} (h : s.fault? = none)
    (hnumbers : ∀ member ∈ s.toSection.members, member.2.IsShort) :
    ofFile s.toSection.write = .ok s := by
  have hread : Yaml.read s.toSection.write = .ok s.toSection.toValue :=
    Section.read_write (wellFormed_toSection hnumbers)
  have hsays : saysNothing s.toSection.toValue = false := rfl
  rw [ofFile, hread]
  dsimp only
  rw [checked, hsays, if_neg Bool.false_ne_true, ofValue_toValue]
  dsimp only
  rw [h]

/-- No file is written for settings with a page size that is too long. -/
theorem toFile?_of_long {s : Settings} (hlong : ¬Numeral.IsShort s.pageSize) :
    s.toFile? = none := by
  have hsome : ¬∀ member ∈ s.toSection.members, member.2.IsShort := by
    intro hall
    exact hlong (hall ("max-page-size", .int s.pageSize) (by simp [toSection]))
  rw [toFile?, Section.dump?, if_neg hsome]

/-- The file for settings that pass their checks has the text of their section, if their page size
is short enough. -/
theorem toFile?_of_short {s : Settings} (h : s.fault? = none) (hsize : Numeral.IsShort s.pageSize) :
    s.toFile? = some s.toSection.write := by
  rw [toFile?, Section.dump?, if_pos (isShort_of_fault? h hsize)]

/-- Settings that pass their checks are read back from the file that is written for them, if their
page size is short enough to be written.  If it is not, there is no file. -/
theorem ofFile_toFile (s : Settings) (h : s.fault? = none) :
    (Numeral.IsShort s.pageSize → ∃ text, s.toFile? = some text ∧ ofFile text = .ok s) ∧
      (¬Numeral.IsShort s.pageSize → s.toFile? = none) := by
  refine ⟨fun hsize => ?_, toFile?_of_long⟩
  exact ⟨_, toFile?_of_short h hsize, ofFile_write h (isShort_of_fault? h hsize)⟩

/-- An address with a zone, a time without end, a zero below zero, and texts that read as
other values where they stand plainly. -/
def zoned : Settings where
  host := "fe80::1%eth0"
  writeTimeout := .infinite false
  readTimeout := .zero true
  origins := ["no", "12:30:45", ""]
  databasePath := "null"

/-- Such settings are read back. -/
theorem ofFile_toFile_zoned :
    zoned.fault? = none ∧ ∃ text, zoned.toFile? = some text ∧ ofFile text = .ok zoned := by
  have h : zoned.fault? = none := by decide
  exact ⟨h, (ofFile_toFile zoned h).1 (by decide)⟩

/-- Settings with pages of so many delegations. -/
def withPages (pageSize : Int) : Settings :=
  { pageSize }

/-- Any page size that is positive passes its check. -/
theorem fault?_withPages {pageSize : Int} (h : 1 ≤ pageSize) :
    (withPages pageSize).fault? = none := by
  have hdefaults : Passes {} := (fault?_eq_none_iff {}).mp (by decide)
  exact (fault?_eq_none_iff _).mpr { hdefaults with pageSize := h }

/-- A page size of a one and as many zeros as a number may have digits passes its check, and
cannot be written. -/
theorem not_written_vast :
    (withPages (10 ^ Numeral.mostDigits)).fault? = none ∧
      (withPages (10 ^ Numeral.mostDigits)).toFile? = none := by
  have hpositive (n : Nat) : (1 : Int) ≤ 10 ^ n := one_le_pow₀ (by omega)
  have hlong : ¬Numeral.IsShort (10 ^ Numeral.mostDigits) := by
    rw [Numeral.isShort_iff, Int.natAbs_pow, show (10 : Int).natAbs = 10 from rfl]
    exact lt_irrefl _
  exact ⟨fault?_withPages (hpositive _), toFile?_of_long hlong⟩

end StakeLedger.Settings
