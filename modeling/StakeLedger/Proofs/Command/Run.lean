import StakeLedger.Command.Run
import StakeLedger.Proofs.Directory.Walk
import StakeLedger.Proofs.Settings.File

/-!
# What the steps of a run change

Each step of a run changes little of what the run leaves behind: lines that are shown, the
directory, and how the run ended.  What a step may do to the directory is said here once; the
properties of whole runs follow from that.

Main definitions:

- {lit}`Command.Outside.Interrupts`: what can break off the writing of settings.

Main results:

- Theorem {lit}`Command.Run.exists_of_print`: lines change nothing else.
- Theorem {lit}`Command.fillLedger_cases`: what filling a ledger changes.
- Theorems {lit}`Command.ensureSettings_of_isSome` and {lit}`Command.ensureSettings_of_not_isSome`:
  what making sure of settings changes, where they are and where they are not.
-/

namespace StakeLedger.Command

open Journal

/-! ## Lines -/

namespace Run

variable (r : Run)

/-- Journal lines do not change what was served. -/
@[simp]
theorem log_served (entries : List Entry) : (r.log entries).served = r.served :=
  rfl

/-- Journal lines do not change the level. -/
@[simp]
theorem log_level (entries : List Entry) : (r.log entries).level = r.level :=
  rfl

/-- Journal lines do not change how a run ended. -/
@[simp]
theorem log_ending (entries : List Entry) : (r.log entries).ending = r.ending :=
  rfl

/-- An ending does not change what was served. -/
@[simp]
theorem ended_served (ending : Ending) : (r.ended ending).served = r.served :=
  rfl

/-- Runs without settings serve nothing more. -/
@[simp]
theorem withoutSettings_served (start : String) (fault : LoadFault) :
    (r.withoutSettings start fault).served = r.served := by
  unfold withoutSettings
  split
  · rfl
  · rfl

/-- Runs without settings change nothing more in their directory. -/
@[simp]
theorem withoutSettings_directory (start : String) (fault : LoadFault) :
    (r.withoutSettings start fault).directory = r.directory := by
  unfold withoutSettings
  split
  · rfl
  · rfl

variable {r}

/-- Lines change nothing but what was printed. -/
theorem exists_of_print {outside : Outside} {shown : Run} {lines : List String}
    {said : Option String} (h : r.print outside lines = (shown, said)) :
    ∃ printed, shown = { r with printed } := by
  induction lines generalizing r with
  | nil =>
      cases h
      exact ⟨_, rfl⟩
  | cons line rest ih =>
      unfold print at h
      split at h
      · cases h
        exact ⟨_, rfl⟩
      · obtain ⟨printed, rfl⟩ := ih h
        exact ⟨printed, rfl⟩

end Run

/-! ## Settings -/

/-- Settings are loaded from the text at a path. -/
theorem read_of_loadSettings {disk : Disk} {d : Directory} {path : String} {s : Settings}
    (h : loadSettings disk d path = .ok s) :
    ∃ text, d.read path = .ok text ∧ Settings.ofFile text = .ok s := by
  unfold loadSettings at h
  split at h
  · cases h
  · split at h
    · cases h
    · next text hread =>
      refine ⟨text, hread, ?_⟩
      cases hfile : Settings.ofFile text with
      | error fault =>
          rw [hfile] at h
          cases h
      | ok found =>
          rw [hfile] at h
          cases h
          rfl

/-- What can break off the writing of settings at a path once their file is made: the disk takes
only the beginning of their text, or the console refuses the line about them. -/
def Outside.Interrupts (outside : Outside) (path : String) : Prop :=
  (∃ count message, outside.disk.fate path = .cut count message) ∨
    ∃ shown message, outside.console shown s!"Wrote config to {path}" = some message

/-- New settings that pass their checks are written where the path leads, unless nothing is
written there or only the beginning of their text. -/
theorem writeSettings_cases (disk : Disk) (d : Directory) (path : String)
    {directory network : String} (h : (newSettings directory network).fault? = none) :
    (∃ fault, writeSettings disk d path (newSettings directory network) = (d, some fault)) ∨
      ∃ names text, d.Leads path names ∧
        (writeSettings disk d path (newSettings directory network) =
            (d.put names (.text text), none) ∨
          (∃ count message, disk.fate path = .cut count message) ∧ ∃ fault,
            writeSettings disk d path (newSettings directory network) =
              (d.put names (.text text), some fault)) := by
  have hsize : Numeral.IsShort (newSettings directory network).pageSize :=
    (by decide : Numeral.IsShort ({} : Settings).pageSize)
  have hfile := Settings.toFile?_of_short h hsize
  unfold writeSettings
  rw [hfile, Option.getD_some]
  rcases d.write_cases disk path (newSettings directory network).toSection.write with
    ⟨fault, hwrite⟩ | ⟨names, hleads, hwrite | ⟨count, message, hfate, hwrite⟩⟩
  · left
    rw [hwrite]
    exact ⟨_, rfl⟩
  · right
    rw [hwrite]
    exact ⟨names, _, hleads, Or.inl rfl⟩
  · right
    rw [hwrite]
    exact ⟨names, _, hleads, Or.inr ⟨⟨count, message, hfate⟩, _, rfl⟩⟩

section

variable {outside : Outside} {directory : String} {r : Run}

/-- Where there are settings nothing is written, and they are loaded. -/
theorem ensureSettings_of_isSome (o : Init)
    (h : (r.directory.at? (Path.join directory settingsFile)).isSome) :
    ∃ printed, (ensureSettings outside o directory r).1 = { r with printed } ∧
      ∀ s, (ensureSettings outside o directory r).2 = .ok s →
        loadSettings outside.disk r.directory (Path.join directory settingsFile) = .ok s := by
  unfold ensureSettings
  dsimp only
  rw [if_pos h]
  split
  · next hprint =>
    obtain ⟨printed, rfl⟩ := Run.exists_of_print hprint
    refine ⟨printed, rfl, ?_⟩
    intro s hload
    cases hload
  · next hprint =>
    obtain ⟨printed, rfl⟩ := Run.exists_of_print hprint
    exact ⟨printed, rfl, fun _ hload => hload⟩

/-- Where there are no settings, new ones are written, unless there is a fault.  After a fault
there may be a file only if the writing was interrupted. -/
theorem ensureSettings_of_not_isSome (o : Init)
    (h : ¬(r.directory.at? (Path.join directory settingsFile)).isSome) :
    ∃ d printed, (ensureSettings outside o directory r).1 = { r with directory := d, printed } ∧
      (d = r.directory ∧ (∃ fault, (ensureSettings outside o directory r).2 = .error fault) ∨
        ∃ names text, r.directory.Leads (Path.join directory settingsFile) names ∧
          d = r.directory.put names (.text text) ∧
          ∀ fault, (ensureSettings outside o directory r).2 = .error fault →
            outside.Interrupts (Path.join directory settingsFile)) := by
  unfold ensureSettings
  dsimp only
  rw [if_neg h]
  split
  · exact ⟨_, _, rfl, Or.inl ⟨rfl, _, rfl⟩⟩
  · next hfault =>
    rcases writeSettings_cases outside.disk r.directory (Path.join directory settingsFile) hfault
      with ⟨fault, hwrite⟩ | ⟨names, text, hleads, hwrite | ⟨hcut, fault, hwrite⟩⟩
    · rw [hwrite]
      exact ⟨_, _, rfl, Or.inl ⟨rfl, _, rfl⟩⟩
    · rw [hwrite]
      dsimp only
      split
      · next message hprint =>
        obtain ⟨printed, rfl⟩ := Run.exists_of_print hprint
        have hrefused : ∃ shown message, outside.console shown
            s!"Wrote config to {Path.join directory settingsFile}" = some message := by
          unfold Run.print at hprint
          split at hprint
          · next hconsole => exact ⟨_, _, hconsole⟩
          · cases hprint
        exact ⟨_, printed, rfl, Or.inr ⟨names, text, hleads, rfl, fun _ _ => Or.inr hrefused⟩⟩
      · next hprint =>
        obtain ⟨printed, rfl⟩ := Run.exists_of_print hprint
        refine ⟨_, printed, rfl, Or.inr ⟨names, text, hleads, rfl, ?_⟩⟩
        intro fault hfault
        cases hfault
    · rw [hwrite]
      exact ⟨_, _, rfl, Or.inr ⟨names, text, hleads, rfl, fun _ _ => Or.inl hcut⟩⟩

/-- Making sure of settings changes only the directory and what was printed. -/
theorem exists_of_ensureSettings {o : Init} {reached : Run} {result : Except LoadFault Settings}
    (h : ensureSettings outside o directory r = (reached, result)) :
    ∃ d printed, reached = { r with directory := d, printed } := by
  have hreached : (ensureSettings outside o directory r).1 = reached := by
    rw [h]
  rw [← hreached]
  by_cases hsome : (r.directory.at? (Path.join directory settingsFile)).isSome
  · obtain ⟨printed, hrun, -⟩ := @ensureSettings_of_isSome outside directory r o hsome
    exact ⟨_, printed, hrun⟩
  · obtain ⟨d, printed, hrun, -⟩ := @ensureSettings_of_not_isSome outside directory r o hsome
    exact ⟨d, printed, hrun⟩

end

/-! ## Filling ledgers -/

/-- Filling a ledger keeps one where it was opened or changes nothing, and the run goes on or
crashes. -/
theorem fillLedger_cases {σ : Type} (source : Draws σ) (clock : Int) (draws : Option Int → σ)
    (outside : Outside) (o : Init) (s : Settings) (r : Run) :
    ∃ d ending printed,
      fillLedger source clock draws outside o s r =
          { r with directory := d, ending, printed } ∧
        (ending = r.ending ∨ ∃ crash, ending = .crashed crash) ∧
        (d = r.directory ∨ ∃ opened l, r.directory.openLedger s.databasePath = .ok opened ∧
          d = r.directory.keep { opened with ledger := l }) := by
  unfold fillLedger
  split
  · exact ⟨_, _, _, rfl, Or.inr ⟨_, rfl⟩, Or.inl rfl⟩
  · exact ⟨_, _, _, rfl, Or.inr ⟨_, rfl⟩, Or.inl rfl⟩
  · next opened net hopened hnet =>
    have hkept (l : Ledger) : ∃ opened' l', r.directory.openLedger s.databasePath = .ok opened' ∧
        r.directory.keep { opened with ledger := l } =
          r.directory.keep { opened' with ledger := l' } :=
      ⟨opened, l, hopened, rfl⟩
    dsimp only
    split
    · next hprint =>
      obtain ⟨printed, rfl⟩ := Run.exists_of_print hprint
      exact ⟨_, _, _, rfl, Or.inr ⟨_, rfl⟩, Or.inr (hkept _)⟩
    · next hprint =>
      obtain ⟨printed, rfl⟩ := Run.exists_of_print hprint
      split
      · exact ⟨_, _, _, rfl, Or.inr ⟨_, rfl⟩, Or.inr (hkept _)⟩
      · split
        · next hlast =>
          obtain ⟨_, rfl⟩ := Run.exists_of_print hlast
          exact ⟨_, _, _, rfl, Or.inr ⟨_, rfl⟩, Or.inr (hkept _)⟩
        · next hlast =>
          obtain ⟨_, rfl⟩ := Run.exists_of_print hlast
          exact ⟨_, _, _, rfl, Or.inl rfl, Or.inr (hkept _)⟩

end StakeLedger.Command
