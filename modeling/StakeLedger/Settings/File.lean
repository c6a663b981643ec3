import StakeLedger.Settings.Document
import StakeLedger.Yaml.Document

/-!
# Settings in files

A file of settings is a document of YAML.  One that says nothing stands for the
defaults; any other is read as settings, which then must pass their checks.

Main definitions:

- {lit}`Settings.FileFault`: why a file has no settings, with the first line that is
  said of it.
- {lit}`Settings.ofFile`: the settings of the text of a file.
- {lit}`Settings.toFile?`: the text of a file of settings.

Main results:

- Theorem {lit}`Settings.fault?_of_ofFile`: settings from a file have no fault.
-/

namespace StakeLedger.Settings

/-- Why the text of a file has no settings: it is no document, it does not fit the
schema, or a setting is bad. -/
inductive FileFault where
  | document (fault : Yaml.Fault)
  | schema (faults : List Schema.Fault)
  | setting (fault : Fault)
deriving DecidableEq, Repr

/-- The first line that is said of a fault. -/
def FileFault.headline : FileFault → String
  | .document fault => fault.headline
  | .schema faults => Schema.headline schemaName faults
  | .setting fault => fault.message

/-- Whether a document says nothing: nothing at all, or what is empty or zero. -/
def saysNothing : Value → Bool
  | .null => true
  | .bool b => !b
  | .int n => n == 0
  | .real x => x.isZero
  | .text s => s.isEmpty
  | .list items => items.isEmpty
  | .dict fields => fields.isEmpty
  | .octets => false
  | .other => false

/-- The settings of a document, checked. -/
def checked (document : Value) : Except FileFault Settings :=
  match ofValue (if saysNothing document then .dict [] else document) with
  | .error faults => .error (.schema faults)
  | .ok s =>
      match s.fault? with
      | some fault => .error (.setting fault)
      | none => .ok s

/-- The settings of the text of a file. -/
def ofFile (text : String) : Except FileFault Settings :=
  match Yaml.read text with
  | .error fault => .error (.document fault)
  | .ok document => checked document

/-- The text of a file of settings, unless a number is too long to be written. -/
def toFile? (s : Settings) : Option String :=
  s.toSection.dump?

/-- Settings of a document have no fault. -/
theorem fault?_of_checked {document : Value} {s : Settings} (h : checked document = .ok s) :
    s.fault? = none := by
  unfold checked at h
  split at h
  · cases h
  · split at h
    · cases h
    · cases h
      assumption

/-- Settings from a file have no fault. -/
theorem fault?_of_ofFile {text : String} {s : Settings} (h : ofFile text = .ok s) :
    s.fault? = none := by
  unfold ofFile at h
  split at h
  · cases h
  · exact fault?_of_checked h

end StakeLedger.Settings
