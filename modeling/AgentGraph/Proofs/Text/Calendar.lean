import AgentGraph.Instant
import Mathlib.Tactic.IntervalCases

/-!
# The calendar counts days

Every day since the start of an era of 400 years has one date, which is a day of the calendar
(`Date.ofDays_valid`), and the count of days comes back from it (`Date.toDays_ofDays`).

The year is found by dividing by 365 after the leap days are taken out. Between two omitted leap
days the calendar repeats every 1461 days, and there the division is exact (`dayOfEra_cases`).
-/

namespace AgentGraph.Instant

/-- The year of the era on a day of the era, counted from March. -/
def yearOfEra (day : Nat) : Nat := (day - day / 1460 + day / 36524 - day / 146096) / 365

/-- Where a day is in a century and in the four years from one leap day to the next. -/
theorem dayOfEra_cases {day : Nat} (h : day < 146096) : ∃ century quad rest : Nat,
    century = day / 36524 ∧ century ≤ 3 ∧ day + century = 1461 * quad + rest ∧ rest < 1461 ∧
    25 * century ≤ quad ∧
      quad ≤ 25 * century + 24 :=
  ⟨day / 36524, (day + day / 36524) / 1461, (day + day / 36524) % 1461,
    rfl, by omega, by omega, by omega, by omega, by omega⟩

/-- **The year of a day**: the days before it, those in it, and when it has 366. -/
theorem yearOfEra_spec {day : Nat} (h : day ≤ 146096) : ∃ dayOfYear : Nat,
    day + yearOfEra day / 100 = 365 * yearOfEra day + yearOfEra day / 4 + dayOfYear ∧
    yearOfEra day ≤ 399 ∧
      dayOfYear ≤ 365 ∧
      (dayOfYear = 365 → (yearOfEra day + 1) % 4 = 0 ∧
        ((yearOfEra day + 1) % 100 ≠ 0 ∨ yearOfEra day = 399)) := by
  rcases Nat.lt_or_eq_of_le h with hlt | rfl
  · obtain ⟨century, quad, rest, hcentury, hle, hday, hrest, hlow, hhigh⟩ := dayOfEra_cases hlt
    -- the last day of an era is left aside, so no day is taken off for it
    have hfull : day / 146096 = 0 := by omega
    obtain ⟨year, hyear⟩ : ∃ year, min (rest / 365) 3 = year := ⟨_, rfl⟩
    have heq : yearOfEra day = 4 * quad + year := by
      rw [yearOfEra, hfull, ← hcentury]
      rcases Nat.lt_or_ge rest 1095 with hrest' | hrest'
      · omega
      · omega
    have hquarter : (4 * quad + year) / 4 = quad := by omega
    have hhundredth : (4 * quad + year) / 100 = century := by omega
    rw [heq, hquarter, hhundredth]
    refine ⟨rest - 365 * year, ?_, ?_, ?_, ?_⟩ <;> omega
  -- the last day of the era is the leap day of its last year
  · exact ⟨365, by decide, by decide, by decide, by decide⟩

namespace Date

/-- What a date is made of: the era, the day in it, and the month and the day of the year, both
counted from March. -/
theorem ofDays_eq (days : Int) :
    ∃ (era : Int) (day dayOfYear month : Nat), days + 719468 = era * 146097 + day ∧
    day + yearOfEra day / 100 = 365 * yearOfEra day + yearOfEra day / 4 + dayOfYear ∧
    yearOfEra day ≤ 399 ∧ dayOfYear ≤ 365 ∧
    (dayOfYear = 365 → (yearOfEra day + 1) % 4 = 0 ∧
      ((yearOfEra day + 1) % 100 ≠ 0 ∨ yearOfEra day = 399)) ∧ month = (5 * dayOfYear + 2) / 153 ∧
    ofDays days =
      let ofMarch := if month < 10 then month + 3 else month - 9
      let year : Int := yearOfEra day + era * 400
      ⟨if ofMarch ≤ 2 then year + 1 else year, ofMarch, dayOfYear - (153 * month + 2) / 5 + 1⟩ := by
  -- the rest of a division by the days of an era is a natural number
  obtain ⟨day, hday⟩ :
      ∃ day : Nat, (days + 719468 - (days + 719468) / 146097 * 146097 : Int) = day :=
    Int.eq_ofNat_of_zero_le (by omega)
  obtain ⟨dayOfYear, hsum, hyear, hle, hleap⟩ := yearOfEra_spec (show day ≤ 146096 by omega)
  refine ⟨(days + 719468) / 146097, day, dayOfYear, _, by omega, hsum, hyear, hle, hleap, rfl, ?_⟩
  have hrest :
      day - (365 * yearOfEra day + yearOfEra day / 4 - yearOfEra day / 100) = dayOfYear := by
    omega
  rw [ofDays, Int.fdiv_eq_ediv_of_nonneg _ (by decide)]
  simp only [hday, Int.toNat_natCast]
  rw [← yearOfEra, hrest]

/-- **Counting the days of a date gives back the day it was made for.** -/
theorem toDays_ofDays (days : Int) : (ofDays days).toDays = days := by
  obtain ⟨era, day, dayOfYear, month, hdays, hsum, hyear, hle, -, hmonth, heq⟩ := ofDays_eq days
  have hmonth11 : month ≤ 11 := by omega
  have hstart : (153 * month + 2) / 5 ≤ dayOfYear := by omega
  set year := yearOfEra day
  -- the way back depends on the date only through its March year, month and day
  have hcount : ∀ date : Date,
      (if date.month ≤ 2 then date.year - 1 else date.year) = year + era * 400 →
      (date.month + 9) % 12 = month → date.day = dayOfYear - (153 * month + 2) / 5 + 1 →
      date.toDays = days := by
    intro date hyear' hmonth' hday'
    rw [toDays, hyear', hmonth', hday']
    simp only [Int.fdiv_eq_ediv_of_nonneg _ (show (0 : Int) ≤ 4 by decide),
      Int.fdiv_eq_ediv_of_nonneg _ (show (0 : Int) ≤ 100 by decide),
      Int.fdiv_eq_ediv_of_nonneg _ (show (0 : Int) ≤ 400 by decide)]
    -- an era is a multiple of 4, 100 and 400 years, so the divisions split
    have hquarter : (year + era * 400 : Int) / 4 = (year / 4 : Nat) + era * 100 := by omega
    have hhundredth : (year + era * 400 : Int) / 100 = (year / 100 : Nat) + era * 4 := by omega
    have hera : (year + era * 400 : Int) / 400 = era := by omega
    rw [hquarter, hhundredth, hera]
    omega
  rw [heq]
  refine hcount _ ?_ ?_ rfl <;> dsimp only
  · split <;> split <;> omega
  · split <;> omega

/-- **A date is a day of the calendar.** -/
theorem ofDays_valid (days : Int) :
    1 ≤ (ofDays days).month ∧ (ofDays days).month ≤ 12 ∧ 1 ≤ (ofDays days).day ∧
    (ofDays days).day ≤ daysInMonth (ofDays days).year (ofDays days).month := by
  obtain ⟨era, day, dayOfYear, month, -, -, hyear, hle, hleap, hmonth, heq⟩ := ofDays_eq days
  have hmonth11 : month ≤ 11 := by omega
  have hday : dayOfYear - (153 * month + 2) / 5 + 1 ≤ 31 := by omega
  rw [heq]
  dsimp only
  refine ⟨by split <;> omega, by split <;> omega, by omega, ?_⟩
  rcases Nat.lt_or_ge month 11 with hlt | hge
  · -- the lengths of the months from March to January
    interval_cases month <;> simp [daysInMonth] <;> omega
  · -- February has a last day in leap years only
    obtain rfl : month = 11 := by omega
    show dayOfYear - (153 * 11 + 2) / 5 + 1 ≤ if isLeapYear (yearOfEra day + era * 400 + 1) then 29
      else 28
    split
    · omega
    · next hnot =>
      by_contra hlast
      obtain ⟨hquarter, hhundredth⟩ := hleap (by omega)
      refine hnot ?_
      simp only [isLeapYear, Bool.or_eq_true, Bool.and_eq_true, decide_eq_true_eq]
      omega

end Date

end AgentGraph.Instant
