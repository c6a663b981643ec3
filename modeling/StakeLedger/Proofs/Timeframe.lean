import StakeLedger.Proofs.Calendar.Instant
import StakeLedger.Proofs.Delegation.Tally
import StakeLedger.Timeframe

/-!
# Windows of timeframes

Today begins with the clock's day in UTC.  Without a limit the bound is zero, which is compared
like any other: it leaves out what was made before 1970.  So a check without a limit finds what is
active, and whatever a check limited to today finds, unless all that is active is as early as that.

Main definitions:

- {lit}`Timeframe.Overlooked`: delegations of which a check without a limit finds none, though
  there are active ones.

Main results:

- Theorem {lit}`Timeframe.windowAt_today`: the window of today.
- Theorem {lit}`Timeframe.exists_late_iff`: when something active is not from before 1970.
- Theorem {lit}`Timeframe.unlimited_exact`: what checks with and without a limit find.
-/

namespace StakeLedger.Timeframe

open Calendar

/-- Delegations of which some are active, and all that are so were made before 1970. -/
structure Overlooked (ds : List Delegation) : Prop where
  active : ∃ d ∈ ds, d.state = .active
  early : ∀ d ∈ ds, d.state = .active → d.createdAt < 0

/-- The window of today begins with the clock's day in UTC. -/
theorem windowAt_today {now : LocalTime} (h : InEra now.instant) :
    today.windowAt now = .ok ⟨86400 * ⌊now.instant / 86400⌋⟩ := by
  have hstart := LocalTime.startOfDay_of_inEra h
  rw [LocalTime.startOfDay] at hstart
  rw [windowAt, window, hstart]
  rfl

/-- Something active was made from 1970 on unless all that is active is overlooked. -/
theorem exists_late_iff (ds : List Delegation) :
    (∃ d ∈ ds, d.state = .active ∧ 0 ≤ d.createdAt) ↔
      (∃ d ∈ ds, d.state = .active) ∧ ¬Overlooked ds := by
  constructor
  · intro hlate
    rcases hlate with ⟨d, hd, hactive, htime⟩
    refine ⟨⟨d, hd, hactive⟩, ?_⟩
    intro hoverlooked
    have := hoverlooked.early d hd hactive
    omega
  · intro h
    rcases h with ⟨hactive, hseen⟩
    by_contra hearly
    apply hseen
    refine ⟨hactive, ?_⟩
    intro d hd hstate
    by_contra htime
    exact hearly ⟨d, hd, hstate, not_lt.mp htime⟩

/-- A check limited to a day from 1970 on finds nothing that is left out without a limit. -/
theorem exists_late_of_today {ds : List Delegation} {now : LocalTime} (hnow : 0 ≤ now.instant)
    (h : ∃ d ∈ ds, d.state = .active ∧ 86400 * ⌊now.instant / 86400⌋ ≤ d.createdAt) :
    ∃ d ∈ ds, d.state = .active ∧ 0 ≤ d.createdAt := by
  rcases h with ⟨d, hd, hactive, htime⟩
  have hdays : 0 ≤ ⌊now.instant / 86400⌋ := by
    rw [Int.floor_nonneg]
    positivity
  refine ⟨d, hd, hactive, ?_⟩
  omega

/-- A check without a limit finds the active delegations from 1970 on, and a check limited to today
those from the beginning of the clock's day in UTC on.  So the first one finds that there is an
active delegation if and only if these are not all from before 1970.  If they are not, or if the
clock is past the beginning of 1970, it finds one whenever the second one does. -/
theorem unlimited_exact (ds : List Delegation) {now : LocalTime} (hera : InEra now.instant) :
    ∃ everything since : Window,
      (ofText? "").map (·.windowAt now) = some (.ok everything) ∧
      (ofText? "today").map (·.windowAt now) = some (.ok since) ∧
      (Tally.hasActive ds everything = true ↔ ∃ d ∈ ds, d.state = .active ∧ 0 ≤ d.createdAt) ∧
      (Tally.hasActive ds since = true ↔
        ∃ d ∈ ds, d.state = .active ∧ 86400 * ⌊now.instant / 86400⌋ ≤ d.createdAt) ∧
      ((Tally.hasActive ds everything = true ↔ ∃ d ∈ ds, d.state = .active) ↔ ¬Overlooked ds) ∧
      (¬Overlooked ds ∨ 0 ≤ now.instant →
        Tally.hasActive ds since = true → Tally.hasActive ds everything = true) := by
  have heverything := Tally.hasActive_iff ds {}
  have hsince := Tally.hasActive_iff ds ⟨86400 * ⌊now.instant / 86400⌋⟩
  have hlate := exists_late_iff ds
  refine ⟨{}, ⟨86400 * ⌊now.instant / 86400⌋⟩, rfl, ?_, heverything, hsince, ?_, ?_⟩
  · exact congrArg some (windowAt_today hera)
  · rw [heverything, hlate]
    constructor
    · intro hall hoverlooked
      exact (hall.mpr hoverlooked.active).2 hoverlooked
    · intro hseen
      exact ⟨fun h => h.1, fun h => ⟨h, hseen⟩⟩
  · intro hcase hfound
    rw [hsince] at hfound
    rw [heverything]
    cases hcase with
    | inl hseen =>
        rcases hfound with ⟨d, hd, hactive, -⟩
        exact hlate.mpr ⟨⟨d, hd, hactive⟩, hseen⟩
    | inr hnow => exact exists_late_of_today hnow hfound

/-- An active delegation that was made at a time. -/
def activeAt (createdAt : Int) : Delegation where
  txHash := ""
  staker := ""
  provider := ""
  value := 1
  state := .active
  staking := ⟨"", 0, createdAt, 0, 0⟩

/-- Noon of the last day of 1969 in UTC. -/
def lastNoon : LocalTime := ⟨1969, 12, 31, 12, 0, 0, 0, 0⟩

/-- An active delegation from the first second of 1970 is found without a limit at any time. -/
theorem unlimited_exact_first : ∃ everything,
    (ofText? "").map (·.windowAt lastNoon) = some (.ok everything) ∧
      Tally.hasActive [activeAt (-43200), activeAt 0] everything = true := by
  have hera : InEra lastNoon.instant := lastNoon.inEra_iff.mpr (by decide)
  rcases unlimited_exact [activeAt (-43200), activeAt 0] hera with
    ⟨everything, since, hwindow, -, hfound, -⟩
  refine ⟨everything, hwindow, hfound.mpr ?_⟩
  exact ⟨activeAt 0, by decide, rfl, by decide⟩

/-- An active delegation from noon of that day is found if the check is limited to the day, and
not without a limit. -/
theorem not_unlimited_early : InEra lastNoon.instant ∧ ∃ everything since,
    (ofText? "").map (·.windowAt lastNoon) = some (.ok everything) ∧
      (ofText? "today").map (·.windowAt lastNoon) = some (.ok since) ∧
      (activeAt (-43200)).state = .active ∧
      Tally.hasActive [activeAt (-43200)] since = true ∧
      Tally.hasActive [activeAt (-43200)] everything = false := by
  have hera : InEra lastNoon.instant := lastNoon.inEra_iff.mpr (by decide)
  have htoday : today.windowAt lastNoon = .ok ⟨-86400⟩ := by decide
  refine ⟨hera, {}, ⟨-86400⟩, rfl, congrArg some htoday, rfl, ?_, ?_⟩
  · decide
  · decide

end StakeLedger.Timeframe
