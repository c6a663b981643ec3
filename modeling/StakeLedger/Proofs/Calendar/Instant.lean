import Mathlib.Algebra.BigOperators.Intervals
import Mathlib.Algebra.Order.BigOperators.Group.Finset
import Mathlib.Data.List.GetD
import Mathlib.Data.Rat.Floor
import Mathlib.Tactic.Linarith
import Mathlib.Tactic.NormNum
import Mathlib.Tactic.Ring
import StakeLedger.Proofs.Calendar

/-!
# Instants and the days that they belong to

A date is told by the days that lie before it: those of the years before its year, those of the
months before its month, and those before it in its month.  A date and a time of day with an
offset from UTC are an instant, which is an exact number of seconds.  Midnight of its day in UTC
is the last whole day before that instant, if the day is one of the years 1 to 9999.

Main definitions:

- {lit}`Calendar.yearLength`: how many days a year has.
- {lit}`Calendar.elapsed`: how many days lie before a date.
- {lit}`Calendar.Date.Valid`: the dates of the years 1 to 9999.
- {lit}`Calendar.Date.midnight`: the Unix time at which a date begins in UTC.
- {lit}`Calendar.LocalTime.instant`: the exact Unix time of a date and a time of day.
- {lit}`Calendar.InEra`: the instants of the years 1 to 9999.

Main results:

- Theorem {lit}`Calendar.dayNumber_eq_elapsed`: day numbers count the days before a date.
- Theorem {lit}`Calendar.valid_ofDayNumber`: the dates of day numbers are valid.
- Theorem {lit}`Calendar.LocalTime.floor_instant`, {lit}`Calendar.LocalTime.floor_instant_div`: the
  whole seconds and the whole days before an instant.
- Theorem {lit}`Calendar.LocalTime.startOfDay_exact`: the day that an instant belongs to.
-/

namespace StakeLedger.Calendar

/-! ## Days before a date -/

/-- How many days a year has. -/
def yearLength (year : Nat) : Nat :=
  ∑ month ∈ Finset.Icc 1 12, daysInMonth year month

/-- How many days lie before a date, from the first of January of the year 1 on. -/
def elapsed (d : Date) : Nat :=
  ∑ year ∈ Finset.Ico 1 d.year, yearLength year +
    ∑ month ∈ Finset.Ico 1 d.month, daysInMonth d.year month + (d.day - 1)

/-- Every fourth year has a leap day, but not every hundredth, except for every four hundredth. -/
theorem isLeap_iff (year : Nat) : isLeap year = true ↔ 4 ∣ year ∧ (¬100 ∣ year ∨ 400 ∣ year) := by
  simp [isLeap, Nat.dvd_iff_mod_eq_zero]

/-- A year has one day more if it has a leap day. -/
theorem yearLength_eq (year : Nat) : yearLength year = if isLeap year then 366 else 365 := by
  have hmonths : ∀ leap : Bool, ∑ month ∈ Finset.Icc 1 12,
      (if month = 0 then 0 else (monthLengths leap).getD (month - 1) 0) =
        if leap then 366 else 365 := by
    decide
  exact hmonths (isLeap year)

/-- The days before the next year are those before a year and those of that year. -/
theorem daysBeforeYear_succ (past : Nat) :
    daysBeforeYear (past + 1 + 1) = daysBeforeYear (past + 1) + yearLength (past + 1) := by
  have hleap := isLeap_iff (past + 1)
  have hfewer : past / 100 ≤ past := Nat.div_le_self past 100
  rw [yearLength_eq, daysBeforeYear, daysBeforeYear, Nat.add_sub_cancel, Nat.add_sub_cancel,
    Nat.succ_div, Nat.succ_div, Nat.succ_div]
  by_cases hfour : 4 ∣ past + 1
  · by_cases hhundred : 100 ∣ past + 1
    · by_cases hcycle : 400 ∣ past + 1
      · rw [if_pos hfour, if_pos hhundred, if_pos hcycle, if_pos (by simp [hleap, hfour, hcycle])]
        omega
      · rw [if_pos hfour, if_pos hhundred, if_neg hcycle,
          if_neg (by simp [hleap, hhundred, hcycle])]
        omega
    · have hcycle : ¬400 ∣ past + 1 := fun h => hhundred (dvd_trans (by decide) h)
      rw [if_pos hfour, if_neg hhundred, if_neg hcycle, if_pos (by simp [hleap, hfour, hhundred])]
      omega
  · have hhundred : ¬100 ∣ past + 1 := fun h => hfour (dvd_trans (by decide) h)
    have hcycle : ¬400 ∣ past + 1 := fun h => hfour (dvd_trans (by decide) h)
    rw [if_neg hfour, if_neg hhundred, if_neg hcycle, if_neg (by simp [hleap, hfour])]
    omega

/-- The days before a year, year by year. -/
theorem daysBeforeYear_eq_sum (year : Nat) :
    daysBeforeYear year = ∑ y ∈ Finset.Ico 1 year, yearLength y := by
  induction year with
  | zero => rfl
  | succ year ih =>
      cases year with
      | zero => rfl
      | succ past =>
          rw [daysBeforeYear_succ, ih, Finset.sum_Ico_succ_top (Nat.le_add_left 1 past)]

/-- The first lengths of a list, one after the other. -/
theorem foldl_take (lengths : List Nat) (count : Nat) :
    (lengths.take count).foldl (· + ·) 0 = ∑ i ∈ Finset.range count, lengths.getD i 0 := by
  induction count with
  | zero => rfl
  | succ count ih =>
      rw [Finset.sum_range_succ, ← ih]
      by_cases h : count < lengths.length
      · rw [List.take_succ_eq_append_getElem h, List.foldl_append, List.getD_eq_getElem _ _ h]
        rfl
      · rw [List.take_of_length_le (by omega), List.take_of_length_le (by omega),
          List.getD_eq_default _ _ (by omega)]
        rfl

/-- The days before a month of a year, month by month. -/
theorem foldl_monthLengths (year month : Nat) :
    ((monthLengths (isLeap year)).take (month - 1)).foldl (· + ·) 0 =
      ∑ m ∈ Finset.Ico 1 month, daysInMonth year m := by
  rw [foldl_take, Finset.sum_Ico_eq_sum_range]
  apply Finset.sum_congr rfl
  intro i _
  rw [daysInMonth, if_neg (by omega), Nat.add_sub_cancel_left]

/-- Day numbers count the days before a date. -/
theorem dayNumber_eq_elapsed (d : Date) : dayNumber d = elapsed d := by
  simp only [dayNumber, elapsed, foldl_monthLengths, daysBeforeYear_eq_sum]

/-! ## Dates of day numbers -/

/-- The dates of the years 1 to 9999. -/
structure Date.Valid (d : Date) : Prop where
  year : 1 ≤ d.year ∧ d.year ≤ 9999
  month : 1 ≤ d.month ∧ d.month ≤ 12
  day : 1 ≤ d.day ∧ d.day ≤ daysInMonth d.year d.month

/-- The days before a year are no fewer than those before an earlier one. -/
theorem daysBeforeYear_mono {year other : Nat} (h : year ≤ other) :
    daysBeforeYear year ≤ daysBeforeYear other := by
  rw [daysBeforeYear_eq_sum, daysBeforeYear_eq_sum]
  apply Finset.sum_le_sum_of_subset
  exact Finset.Ico_subset_Ico_right h

/-- The year of a day number is one of those whose days are counted. -/
theorem year_yearAndDay {n : Nat} (h : (n : Int) < dayCount) :
    1 ≤ (yearAndDay n).1 ∧ (yearAndDay n).1 ≤ 9999 := by
  constructor
  · exact Nat.le_add_left 1 _
  · by_contra hlate
    have hbefore := daysBeforeYear_mono (Nat.not_le.mp hlate)
    have hcount : daysBeforeYear 10000 = 3652059 := rfl
    have hsum := daysBeforeYear_yearAndDay n
    rw [dayCount] at h
    change daysBeforeYear 10000 ≤ _ at hbefore
    omega

/-- The day of the year of a day number is one of that year. -/
theorem day_yearAndDay (n : Nat) : (yearAndDay n).2 < yearLength (yearAndDay n).1 := by
  have hleap := isLeap_iff (yearAndDay n).1
  rw [yearLength_eq]
  cases h : isLeap (yearAndDay n).1 with
  | true =>
      rw [if_pos rfl]
      simp only [yearAndDay]
      omega
  | false =>
      rw [h] at hleap
      simp only [Bool.false_eq_true, false_iff] at hleap
      rw [if_neg Bool.false_ne_true]
      simp only [yearAndDay] at hleap ⊢
      omega

/-- A day is in one of the months that are left, if there are so many days in them. -/
theorem monthAndDay_mem {lengths : List Nat} {day : Nat} (h : day < lengths.sum) (start : Nat) :
    ∃ i, i < lengths.length ∧ (monthAndDay lengths start day).1 = start + i ∧
      1 ≤ (monthAndDay lengths start day).2 ∧
        (monthAndDay lengths start day).2 ≤ lengths.getD i 0 := by
  induction lengths generalizing start day with
  | nil => exact absurd h (Nat.not_lt_zero day)
  | cons length rest ih =>
      by_cases hday : day < length
      · rw [monthAndDay, if_pos hday]
        exact ⟨0, Nat.zero_lt_succ _, rfl, Nat.le_add_left 1 day, hday⟩
      · rw [List.sum_cons] at h
        rw [monthAndDay, if_neg hday]
        have hrest : day - length < rest.sum := by
          omega
        rcases ih hrest (start + 1) with ⟨i, hi, hmonth, hleast, hmost⟩
        refine ⟨i + 1, Nat.succ_lt_succ hi, ?_, hleast, hmost⟩
        omega

/-- The year, the month and the day of a day number. -/
theorem ofDayNumber_eq (n : Nat) :
    ofDayNumber n = ⟨(yearAndDay n).1,
      (monthAndDay (monthLengths (isLeap (yearAndDay n).1)) 1 (yearAndDay n).2).1,
      (monthAndDay (monthLengths (isLeap (yearAndDay n).1)) 1 (yearAndDay n).2).2⟩ :=
  rfl

/-- The dates of day numbers are valid. -/
theorem valid_ofDayNumber {n : Nat} (h : (n : Int) < dayCount) : (ofDayNumber n).Valid := by
  have hlengths : (monthLengths (isLeap (yearAndDay n).1)).sum = yearLength (yearAndDay n).1 := by
    rw [yearLength_eq]
    cases isLeap (yearAndDay n).1 <;> rfl
  have htwelve : (monthLengths (isLeap (yearAndDay n).1)).length = 12 := rfl
  have hday := day_yearAndDay n
  rw [← hlengths] at hday
  rcases monthAndDay_mem hday 1 with ⟨i, hi, hmonth, hleast, hmost⟩
  rw [ofDayNumber_eq]
  constructor
  · exact year_yearAndDay h
  · dsimp only
    omega
  · refine ⟨hleast, ?_⟩
    dsimp only
    rw [daysInMonth, if_neg (by omega), hmonth, Nat.add_sub_cancel_left]
    exact hmost

/-! ## Instants -/

/-- The date at whose beginning Unix time is zero. -/
def epoch : Date := ⟨1970, 1, 1⟩

/-- The Unix time at which a date begins in UTC. -/
def Date.midnight (d : Date) : Int :=
  86400 * ((elapsed d : Int) - elapsed epoch)

/-- The date of a date and a time of day. -/
def LocalTime.date (t : LocalTime) : Date :=
  ⟨t.year.toNat, t.month.toNat, t.day.toNat⟩

/-- The exact Unix time of a date and a time of day: what has passed since the beginning of the
date, less the offset from UTC. -/
def LocalTime.instant (t : LocalTime) : ℚ :=
  t.date.midnight + 3600 * t.hour + 60 * t.minute + t.second + t.microsecond / 1000000 -
    t.offset / 1000000

/-- The instants from the beginning of the year 1 to the end of the year 9999 in UTC. -/
structure InEra (instant : ℚ) : Prop where
  low : (Date.midnight ⟨1, 1, 1⟩ : ℚ) ≤ instant
  high : instant < Date.midnight ⟨10000, 1, 1⟩

/-- A date begins at midnight of its day number. -/
theorem Date.midnight_eq (d : Date) : d.midnight = Calendar.midnight (dayNumber d) := by
  have hepoch : (elapsed epoch : Int) = epochDay := by
    rw [← dayNumber_eq_elapsed]
    rfl
  rw [Date.midnight, Calendar.midnight, hepoch, ← dayNumber_eq_elapsed, Int.mul_comm]
  rfl

/-- Instants are counted in microseconds. -/
theorem LocalTime.instant_eq (t : LocalTime) :
    t.instant = (t.unixMicroseconds : ℚ) / (1000000 : ℕ) := by
  rw [LocalTime.instant, LocalTime.unixMicroseconds, Date.midnight_eq, LocalTime.date,
    microsecondsPerSecond]
  push_cast
  ring

/-- The whole seconds before an instant. -/
theorem LocalTime.floor_instant (t : LocalTime) : ⌊t.instant⌋ = t.unixSeconds := by
  rw [LocalTime.instant_eq, Rat.floor_intCast_div_natCast]
  rfl

/-- The whole days before an instant. -/
theorem LocalTime.floor_instant_div (t : LocalTime) :
    ⌊t.instant / 86400⌋ = t.unixSeconds / 86400 := by
  have hdays := Int.floor_div_natCast t.instant 86400
  rw [t.floor_instant] at hdays
  exact_mod_cast hdays

/-- An instant is in the years 1 to 9999 if its second is. -/
theorem LocalTime.inEra_iff (t : LocalTime) :
    InEra t.instant ↔ Calendar.midnight 0 ≤ t.unixSeconds ∧
      t.unixSeconds < Calendar.midnight dayCount.toNat := by
  have hfirst : Date.midnight ⟨1, 1, 1⟩ = Calendar.midnight 0 := Date.midnight_eq _
  have hlast : Date.midnight ⟨10000, 1, 1⟩ = Calendar.midnight dayCount.toNat :=
    Date.midnight_eq _
  rw [← t.floor_instant, Int.le_floor, Int.floor_lt, ← hfirst, ← hlast]
  constructor
  · intro h
    exact ⟨h.low, h.high⟩
  · intro h
    exact ⟨h.1, h.2⟩

/-! ## The day of an instant -/

/-- A time of another year has no day. -/
theorem startOfDay_eq_error {unix : Int}
    (h : ¬(midnight 0 ≤ unix ∧ unix < midnight dayCount.toNat)) :
    startOfDay unix = .error .dateRange := by
  have hrange : ¬(0 ≤ unix / secondsPerDay + epochDay ∧
      unix / secondsPerDay + epochDay < dayCount) := by
    simp only [midnight, secondsPerDay, epochDay, dayCount] at h ⊢
    omega
  simp only [startOfDay, utcDate?, if_neg hrange]

/-- The day of an instant of the years 1 to 9999 begins after the whole days before it. -/
theorem LocalTime.startOfDay_of_inEra {t : LocalTime} (h : InEra t.instant) :
    t.startOfDay = .ok (86400 * ⌊t.instant / 86400⌋) := by
  rcases t.inEra_iff.mp h with ⟨hlow, hhigh⟩
  rw [LocalTime.startOfDay, startOfDay_eq hlow hhigh, t.floor_instant_div, Int.mul_comm]
  rfl

/-- Whole days before a time of the years 1 to 9999 end with the beginning of a date. -/
theorem exists_date {unix : Int} (hlow : midnight 0 ≤ unix)
    (hhigh : unix < midnight dayCount.toNat) :
    ∃ d : Date, d.Valid ∧ d.midnight = 86400 * (unix / 86400) := by
  have hday : 0 ≤ unix / 86400 + epochDay ∧ unix / 86400 + epochDay < dayCount := by
    simp only [midnight, secondsPerDay, epochDay, dayCount] at hlow hhigh ⊢
    omega
  refine ⟨ofDayNumber (unix / 86400 + epochDay).toNat, ?_, ?_⟩
  · apply valid_ofDayNumber
    rw [Int.toNat_of_nonneg hday.1]
    exact hday.2
  · rw [Date.midnight_eq, dayNumber_ofDayNumber, midnight, Int.toNat_of_nonneg hday.1,
      Int.add_sub_cancel, Int.mul_comm]
    rfl

/-- The day of an instant of the years 1 to 9999 begins with the date that the instant has in UTC,
a whole number of days from the beginning of 1970 on and less than a day before the instant.  An
instant of another year has no day.  So an offset from UTC matters only as far as it changes the
instant.  Nothing is asked of the numbers of the time, which need not be those of a date. -/
theorem LocalTime.startOfDay_exact (t : LocalTime) :
    (InEra t.instant → ∃ d : Date, d.Valid ∧ t.startOfDay = .ok d.midnight ∧
      d.midnight = 86400 * ⌊t.instant / 86400⌋ ∧
      0 ≤ t.instant - d.midnight ∧ t.instant - d.midnight < 86400) ∧
    (¬InEra t.instant → t.startOfDay = .error .dateRange) ∧
    ∀ other : LocalTime, other.instant = t.instant → other.startOfDay = t.startOfDay := by
  refine ⟨?_, ?_, ?_⟩
  · intro hera
    rcases t.inEra_iff.mp hera with ⟨hlow, hhigh⟩
    rcases exists_date hlow hhigh with ⟨d, hvalid, hmidnight⟩
    rw [← t.floor_instant_div] at hmidnight
    have hstart : t.startOfDay = .ok d.midnight := by
      rw [LocalTime.startOfDay_of_inEra hera, hmidnight]
    have hcast : (d.midnight : ℚ) = 86400 * ⌊t.instant / 86400⌋ := by
      rw [hmidnight, Int.cast_mul]
      rfl
    have hbefore := Int.floor_le (t.instant / 86400)
    have hbehind := Int.lt_floor_add_one (t.instant / 86400)
    refine ⟨d, hvalid, hstart, hmidnight, ?_, ?_⟩
    · rw [hcast]
      linarith
    · rw [hcast]
      linarith
  · intro hera
    apply startOfDay_eq_error
    intro hseconds
    exact hera (t.inEra_iff.mpr hseconds)
  · intro other hsame
    rw [LocalTime.startOfDay, LocalTime.startOfDay, ← other.floor_instant, hsame, t.floor_instant]

/-- Half past midnight on the first of January 1970, where clocks are an hour and half a second
ahead of UTC. -/
def newYear : LocalTime := ⟨1970, 1, 1, 0, 30, 0, 0, 3600500000⟩

/-- That instant belongs to the day before. -/
theorem LocalTime.startOfDay_exact_newYear :
    InEra newYear.instant ∧ newYear.startOfDay = .ok (-86400) := by
  have hera : InEra newYear.instant := newYear.inEra_iff.mpr (by decide)
  rcases newYear.startOfDay_exact.1 hera with ⟨d, -, hstart, hmidnight, -⟩
  have hfloor : newYear.unixSeconds / 86400 = -1 := by decide
  rw [newYear.floor_instant_div, hfloor] at hmidnight
  rw [hmidnight] at hstart
  exact ⟨hera, hstart⟩

end StakeLedger.Calendar
