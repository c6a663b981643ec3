import StakeLedger.Calendar

/-!
# Day numbers and dates

Each day number is that of its date, so midnight of the day that a time belongs to is
the last whole day before it.

Main results:

- Theorem {lit}`Calendar.daysBeforeYear_cycles`: the days before a year, by cycles of years.
- Theorem {lit}`Calendar.daysBeforeYear_yearAndDay`: the days before a year and the days in it.
- Theorem {lit}`Calendar.foldl_monthAndDay`: the days of the months before a month and the days in
  it.
- Theorem {lit}`Calendar.dayNumber_ofDayNumber`: the day number of the date of a day number.
- Theorem {lit}`Calendar.startOfDay_eq`: midnight of the day that a time belongs to.
-/

namespace StakeLedger.Calendar

/-- The days before a year, by cycles of four hundred, one hundred and four years. -/
theorem daysBeforeYear_cycles {centuries fours years : Nat} (cycles : Nat)
    (hcenturies : centuries ≤ 3) (hfours : fours ≤ 24) (hyears : years ≤ 3) :
    daysBeforeYear (400 * cycles + 100 * centuries + 4 * fours + years + 1) =
      146097 * cycles + 36524 * centuries + 1461 * fours + 365 * years := by
  rw [daysBeforeYear, Nat.add_sub_cancel]
  omega

/-- The days before the year of a day number and the days in it add up to the day number. -/
theorem daysBeforeYear_yearAndDay (n : Nat) :
    daysBeforeYear (yearAndDay n).1 + (yearAndDay n).2 = n := by
  -- The last of four centuries has one more day, and no fifth century begins with it.
  have hfours : (n % 146097 - 36524 * min (n % 146097 / 36524) 3) / 1461 ≤ 24 := by
    omega
  simp only [yearAndDay]
  rw [daysBeforeYear_cycles _ (Nat.min_le_right _ 3) hfours (Nat.min_le_right _ 3)]
  omega

/-- The days of the months before the month of a day and the days in it add up to that day,
when months are counted from some number on and days after some others. -/
theorem foldl_monthAndDay (lengths : List Nat) (start day before : Nat) :
    start ≤ (monthAndDay lengths start day).1 ∧ 1 ≤ (monthAndDay lengths start day).2 ∧
      (lengths.take ((monthAndDay lengths start day).1 - start)).foldl (· + ·) before +
        ((monthAndDay lengths start day).2 - 1) = before + day := by
  induction lengths generalizing start day before with
  | nil =>
      rw [monthAndDay, List.take_nil]
      exact ⟨Nat.le_refl start, Nat.le_add_left 1 day, rfl⟩
  | cons length rest ih =>
      by_cases h : day < length
      · rw [monthAndDay, if_pos h, Nat.sub_self]
        exact ⟨Nat.le_refl start, Nat.le_add_left 1 day, rfl⟩
      · rw [monthAndDay, if_neg h]
        rcases ih (start + 1) (day - length) (before + length) with ⟨hstart, hday, hsum⟩
        refine ⟨Nat.le_of_succ_le hstart, hday, ?_⟩
        rcases Nat.exists_eq_add_of_le hstart with ⟨k, hk⟩
        rw [hk, Nat.add_sub_cancel_left] at hsum
        rw [hk, Nat.add_assoc, Nat.add_sub_cancel_left, Nat.add_comm 1 k, List.take_succ_cons,
          List.foldl_cons, hsum]
        omega

/-- The day number of the date of a day number is that day number. -/
theorem dayNumber_ofDayNumber (n : Nat) : dayNumber (ofDayNumber n) = n := by
  have hyear := daysBeforeYear_yearAndDay n
  rcases foldl_monthAndDay (monthLengths (isLeap (yearAndDay n).1)) 1 (yearAndDay n).2 0 with
    ⟨-, -, hmonth⟩
  simp only [dayNumber, ofDayNumber]
  omega

/-- Midnight of the day that a time of the years 1 to 9999 belongs to. -/
theorem startOfDay_eq {unix : Int} (hlow : midnight 0 ≤ unix)
    (hhigh : unix < midnight dayCount.toNat) :
    startOfDay unix = .ok (unix / secondsPerDay * secondsPerDay) := by
  have hrange : 0 ≤ unix / secondsPerDay + epochDay ∧
      unix / secondsPerDay + epochDay < dayCount := by
    simp only [midnight, secondsPerDay, epochDay, dayCount] at hlow hhigh ⊢
    omega
  simp only [startOfDay, utcDate?, if_pos hrange, dayNumber_ofDayNumber, midnight]
  rw [Int.toNat_of_nonneg hrange.1, Int.add_sub_cancel]

end StakeLedger.Calendar
