import StakeLedger.Settings.Basic

/-!
# Settings that pass their checks

The checks look at the settings one after the other and report the first bad one.  Settings
without fault are those of which every single one is good.

Main definitions:

- {lit}`Settings.Passes`: what is asked of each of the settings.

Main results:

- Theorem {lit}`Settings.level?_eq_some_iff`: the level that settings name.
- Theorem {lit}`Settings.fault?_eq_none_iff`: settings have no fault if they pass their checks.
-/

namespace StakeLedger.Settings

open Journal

/-- What is asked of each of the settings.  Nothing is asked of origins and of the path of the
ledger. -/
structure Passes (s : Settings) : Prop where
  host : Host.isAddress s.host = true
  port : 0 ≤ s.port ∧ s.port ≤ 65535
  writeTimeout : s.writeTimeout.isNegative = false
  readTimeout : s.readTimeout.isNegative = false
  idleTimeout : s.idleTimeout.isNegative = false
  network : ∃ net, s.network? = some net
  pageSize : 1 ≤ s.pageSize
  level : ∃ level, s.level? = some level

/-- A text names the level whose name it is in lower case. -/
theorem levelOf?_eq_some_iff (text : String) (level : Level) :
    levelOf? text = some level ↔ level.lowerName = Case.lower text := by
  constructor
  · intro h
    have hname := List.find?_some h
    exact beq_iff_eq.mp hname
  · intro h
    rw [levelOf?, ← h]
    cases level <;> decide

/-- Settings that do not say what the level is are for the informative one, and others are for
the one that they name in any case. -/
theorem level?_eq_some_iff (s : Settings) (level : Level) :
    s.level? = some level ↔
      s.logLevel = "" ∧ level = .info ∨
        s.logLevel ≠ "" ∧ level.lowerName = Case.lower s.logLevel := by
  rw [level?, ← levelOf?_eq_some_iff]
  by_cases hempty : s.logLevel = ""
  · simp [hempty, eq_comm]
  · simp [hempty]

/-- Settings have no bad level if they name one. -/
theorem levelFault?_eq_none_iff (s : Settings) :
    s.levelFault? = none ↔ ∃ level, s.level? = some level := by
  rw [← level?_isSome_iff, Option.isSome_iff_exists]

/-- A check reports nothing if what it looks for is not there and the checks behind it report
nothing. -/
theorem check_eq_none_iff {bad : Prop} [Decidable bad] (fault : Fault) (rest : Option Fault) :
    (if bad then some fault else rest) = none ↔ ¬bad ∧ rest = none := by
  by_cases hbad : bad
  · simp [hbad]
  · simp [hbad]

/-- No setting apart from the level is bad if every one of them is good. -/
theorem serverFault?_eq_none_iff (s : Settings) :
    s.serverFault? = none ↔
      Host.isAddress s.host = true ∧ (0 ≤ s.port ∧ s.port ≤ 65535) ∧
        s.writeTimeout.isNegative = false ∧ s.readTimeout.isNegative = false ∧
        s.idleTimeout.isNegative = false ∧ (∃ net, s.network? = some net) ∧ 1 ≤ s.pageSize := by
  have hport : ¬(s.port < 0 ∨ 65535 < s.port) ↔ 0 ≤ s.port ∧ s.port ≤ 65535 := by
    omega
  have hnetwork : ¬s.network?.isNone = true ↔ ∃ net, s.network? = some net := by
    rw [Option.isNone_iff_eq_none, ← Option.ne_none_iff_exists']
  have hsize : ¬s.pageSize ≤ 0 ↔ 1 ≤ s.pageSize := by
    omega
  simp only [serverFault?, check_eq_none_iff, hport, hnetwork, hsize, Bool.not_eq_true,
    Bool.not_eq_false', and_true]

/-- Settings have no fault if they pass their checks. -/
theorem fault?_eq_none_iff (s : Settings) : s.fault? = none ↔ s.Passes := by
  rw [fault?, Option.or_eq_none_iff, serverFault?_eq_none_iff, levelFault?_eq_none_iff]
  constructor
  · rintro ⟨⟨hhost, hport, hwrite, hread, hidle, hnetwork, hsize⟩, hlevel⟩
    exact ⟨hhost, hport, hwrite, hread, hidle, hnetwork, hsize, hlevel⟩
  · rintro ⟨hhost, hport, hwrite, hread, hidle, hnetwork, hsize, hlevel⟩
    exact ⟨⟨hhost, hport, hwrite, hread, hidle, hnetwork, hsize⟩, hlevel⟩

end StakeLedger.Settings
