import EntityStore.Time.Calendar
import Mathlib.Data.Nat.Init

set_option autoImplicit false

namespace EntityStore.Calendar

/-- A year, a month and a day that name a date. -/
structure IsDate (year month day : Nat) : Prop where
  inEra : 1 ≤ year
  inMonths : 1 ≤ month ∧ month ≤ 12
  inMonth : 1 ≤ day ∧ day ≤ monthLength year month

def yearLength (year : Nat) : Nat := if isLeap year then 366 else 365

theorem isLeap_iff (year : Nat) :
    isLeap year = true ↔ year % 4 = 0 ∧ (year % 100 ≠ 0 ∨ year % 400 = 0) := by
  simp [isLeap]

theorem daysBeforeYear_succ {year : Nat} (positive : 1 ≤ year) :
    daysBeforeYear (year + 1) = daysBeforeYear year + yearLength year := by
  obtain ⟨past, rfl⟩ := Nat.exists_eq_add_of_le' positive
  have leap := isLeap_iff (past + 1)
  unfold yearLength daysBeforeYear
  simp only [Nat.add_sub_cancel]
  by_cases h : isLeap (past + 1) = true
  · rw [if_pos h]
    obtain ⟨fourth, century | cycle⟩ := leap.mp h
    · omega
    · omega
  · rw [if_neg h]
    have common := mt leap.mpr h
    by_cases fourth : (past + 1) % 4 = 0
    · by_cases century : (past + 1) % 100 = 0
      · by_cases cycle : (past + 1) % 400 = 0
        · exact absurd ⟨fourth, Or.inr cycle⟩ common
        · omega
      · exact absurd ⟨fourth, Or.inl century⟩ common
    · have fourths : (past + 1) / 4 = past / 4 := Nat.succ_div_of_not_dvd (mt Nat.mod_eq_zero_of_dvd fourth)
      have centuries : (past + 1) / 100 = past / 100 := by omega
      have cycles : (past + 1) / 400 = past / 400 := by omega
      rw [fourths, centuries, cycles]
      omega

theorem daysBeforeYear_mono {year later : Nat} (positive : 1 ≤ year) (before : year < later) :
    daysBeforeYear year + yearLength year ≤ daysBeforeYear later := by
  induction later, before using Nat.le_induction with
  | base => exact Nat.le_of_eq (daysBeforeYear_succ positive).symm
  | succ later before ih =>
      have positiveLater : 1 ≤ later := Nat.le_trans (Nat.le_add_left 1 year) before
      rw [daysBeforeYear_succ positiveLater]
      exact Nat.le_trans ih (Nat.le_add_right _ _)

theorem daysBeforeYear_le {year later : Nat} (positive : 1 ≤ year) (ordered : year ≤ later) :
    daysBeforeYear year ≤ daysBeforeYear later := by
  rcases Nat.eq_or_lt_of_le ordered with rfl | before
  · exact Nat.le_refl _
  · exact Nat.le_trans (Nat.le_add_right _ _) (daysBeforeYear_mono positive before)

theorem foldr_take_succ (lengths : List Nat) (n : Nat) :
    (lengths.take (n + 1)).foldr (· + ·) 0 = (lengths.take n).foldr (· + ·) 0 + (lengths[n]?).getD 0 := by
  induction lengths generalizing n with
  | nil => simp
  | cons length rest ih =>
      cases n with
      | zero => simp
      | succ n =>
          simp only [List.take_succ_cons, List.foldr_cons, List.getElem?_cons_succ]
          rw [ih n, Nat.add_assoc]

/-- The days of a year before a month and those of the month itself. -/
theorem daysBeforeMonth_succ (year : Nat) {month : Nat} (positive : 1 ≤ month) :
    daysBeforeMonth year (month + 1) = daysBeforeMonth year month + monthLength year month := by
  have position : month + 1 - 1 = month - 1 + 1 := by omega
  unfold daysBeforeMonth monthLength
  rw [position, foldr_take_succ]

theorem daysBeforeMonth_mono (year : Nat) {month later : Nat} (positive : 1 ≤ month) (before : month < later) :
    daysBeforeMonth year month + monthLength year month ≤ daysBeforeMonth year later := by
  induction later, before using Nat.le_induction with
  | base => exact Nat.le_of_eq (daysBeforeMonth_succ year positive).symm
  | succ later before ih =>
      have positiveLater : 1 ≤ later := Nat.le_trans (Nat.le_add_left 1 month) before
      rw [daysBeforeMonth_succ year positiveLater]
      exact Nat.le_trans ih (Nat.le_add_right _ _)

theorem daysBeforeMonth_end (year : Nat) : daysBeforeMonth year 13 = yearLength year := by
  unfold daysBeforeMonth yearLength
  cases isLeap year <;> rfl

theorem monthLength_december (year : Nat) : monthLength year 12 = 31 := rfl

theorem monthLength_pos (year month : Nat) (named : 1 ≤ month ∧ month ≤ 12) :
    1 ≤ monthLength year month := by
  have lengths : ∀ (leap : Bool) (n : Fin 12), 1 ≤ ((monthLengths leap)[n.val]?).getD 0 := by decide
  exact lengths (isLeap year) ⟨month - 1, by omega⟩

variable {year month day laterYear laterMonth laterDay : Nat}

theorem IsDate.inYear (date : IsDate year month day) :
    daysBeforeMonth year month + (day - 1) < yearLength year := by
  have months := date.inMonths
  have days := date.inMonth
  have whole := daysBeforeMonth_mono year months.1 (Nat.lt_succ_of_le months.2)
  rw [daysBeforeMonth_end] at whole
  omega

/-- Dates come in the order of their numbers. -/
theorem IsDate.dayNumber_lt (date : IsDate year month day) (later : IsDate laterYear laterMonth laterDay)
    (before : year < laterYear ∨ year = laterYear ∧ (month < laterMonth ∨ month = laterMonth ∧ day < laterDay)) :
    dayNumber year month day < dayNumber laterYear laterMonth laterDay := by
  have inYear := date.inYear
  have days := date.inMonth
  have laterDays := later.inMonth
  unfold dayNumber
  rcases before with years | ⟨rfl, months | ⟨rfl, days⟩⟩
  · have past := daysBeforeYear_mono date.inEra years
    omega
  · have past := daysBeforeMonth_mono year date.inMonths.1 months
    omega
  · omega

/-- The date that follows a date, and the first of its year if there is no later one in it. -/
theorem IsDate.dayNumber_next (date : IsDate year month day) :
    (day < monthLength year month → dayNumber year month (day + 1) = dayNumber year month day + 1) ∧
      (day = monthLength year month → month < 12 →
        dayNumber year (month + 1) 1 = dayNumber year month day + 1) ∧
      (day = monthLength year month → month = 12 → dayNumber (year + 1) 1 1 = dayNumber year month day + 1) := by
  have positive := date.inMonth.1
  unfold dayNumber
  refine ⟨fun _ => ?_, fun last _ => ?_, fun last december => ?_⟩
  · omega
  · rw [daysBeforeMonth_succ year date.inMonths.1]
    omega
  · have whole := daysBeforeMonth_succ year date.inMonths.1
    rw [december] at whole last ⊢
    rw [daysBeforeMonth_end] at whole
    rw [daysBeforeYear_succ date.inEra]
    have first : daysBeforeMonth (year + 1) 1 = 0 := rfl
    omega

/-- Going through the lengths of months, the month of a day is found together with the day in it. -/
theorem monthAndDay_spec (lengths : List Nat) (first day : Nat)
    (within : day < lengths.foldr (· + ·) 0) :
    ∃ n length, lengths[n]? = some length ∧ (monthAndDay lengths first day).1 = first + n ∧
      1 ≤ (monthAndDay lengths first day).2 ∧ (monthAndDay lengths first day).2 ≤ length ∧
      (lengths.take n).foldr (· + ·) 0 + ((monthAndDay lengths first day).2 - 1) = day := by
  induction lengths generalizing first day with
  | nil => exact absurd within (Nat.not_lt_zero day)
  | cons length rest ih =>
      rw [List.foldr_cons] at within
      by_cases here : day < length
      · refine ⟨0, length, rfl, ?_⟩
        simp only [monthAndDay, here, ↓reduceIte, List.take_zero, List.foldr_nil]
        omega
      · have later : day - length < rest.foldr (· + ·) 0 := by omega
        obtain ⟨n, other, found, month, positive, bounded, sum⟩ := ih (first + 1) (day - length) later
        refine ⟨n + 1, other, by rwa [List.getElem?_cons_succ], ?_⟩
        simp only [monthAndDay, here, ↓reduceIte, List.take_succ_cons, List.foldr_cons]
        omega

/-- The month and the day that a day of a year has. -/
theorem isDate_monthAndDay {day : Nat} (positive : 1 ≤ year) (within : day < yearLength year) :
    IsDate year (monthAndDay (monthLengths (isLeap year)) 1 day).1 (monthAndDay (monthLengths (isLeap year)) 1 day).2 ∧
      daysBeforeMonth year (monthAndDay (monthLengths (isLeap year)) 1 day).1 +
        ((monthAndDay (monthLengths (isLeap year)) 1 day).2 - 1) = day := by
  have whole : (monthLengths (isLeap year)).foldr (· + ·) 0 = yearLength year := by
    unfold yearLength
    cases isLeap year <;> rfl
  rw [← whole] at within
  obtain ⟨n, length, found, month, first, last, sum⟩ := monthAndDay_spec _ 1 day within
  have months : n < 12 := (List.getElem?_eq_some_iff.mp found).1
  rw [month]
  have position : 1 + n - 1 = n := by omega
  refine ⟨⟨positive, ⟨by omega, by omega⟩, first, ?_⟩, ?_⟩
  · rw [monthLength, position, found]
    exact last
  · rw [daysBeforeMonth, position]
    exact sum

/-- Years that are over, counted in days: cycles of four hundred years, and in them centuries, spans of four
years and single years. -/
theorem daysBeforeYear_parts (cycles : Nat) {centuries spans years : Nat} (inCycle : centuries ≤ 3)
    (inCentury : spans ≤ 24) (inSpan : years ≤ 3) :
    daysBeforeYear (400 * cycles + 100 * centuries + 4 * spans + years + 1) =
      146097 * cycles + 36524 * centuries + 1461 * spans + 365 * years := by
  unfold daysBeforeYear
  simp only [Nat.add_sub_cancel]
  omega

/-- The last day of a span of four years that has a leap year. -/
theorem isDate_end_of_span (cycles : Nat) {centuries spans : Nat} (inCycle : centuries ≤ 3)
    (inCentury : spans ≤ 24) (leaps : spans ≤ 23 ∨ centuries = 3) :
    IsDate (400 * cycles + 100 * centuries + 4 * spans + 3 + 1) 12 31 ∧
      dayNumber (400 * cycles + 100 * centuries + 4 * spans + 3 + 1) 12 31 =
        146097 * cycles + 36524 * centuries + 1461 * spans + 1460 := by
  have days := daysBeforeYear_parts cycles inCycle inCentury (Nat.le_refl 3)
  have leap : isLeap (400 * cycles + 100 * centuries + 4 * spans + 3 + 1) = true :=
    (isLeap_iff _).mpr (by omega)
  have months : daysBeforeMonth (400 * cycles + 100 * centuries + 4 * spans + 3 + 1) 12 = 335 := by
    rw [daysBeforeMonth, leap]
    rfl
  refine ⟨⟨Nat.le_add_left 1 _, by decide, by decide, Nat.le_of_eq (monthLength_december _).symm⟩, ?_⟩
  rw [dayNumber, days, months]

/-- Every number is that of the date found for it. -/
theorem isDate_dateOfDay (n : Nat) :
    IsDate (dateOfDay n).1 (dateOfDay n).2.1 (dateOfDay n).2.2 ∧
      dayNumber (dateOfDay n).1 (dateOfDay n).2.1 (dateOfDay n).2.2 = n := by
  unfold dateOfDay
  dsimp only
  generalize cycles : n / 146097 = cycle
  generalize centuries : n % 146097 / 36524 = century
  generalize spans : n % 146097 % 36524 / 1461 = span
  generalize years : n % 146097 % 36524 % 1461 / 365 = past
  split
  · next last =>
      -- A day past four centuries is the last one of the cycle, and one past four years the last of its span.
      by_cases whole : century = 4
      · have year : 400 * cycle + 100 * century + 4 * span + past + 1 - 1 =
            400 * cycle + 100 * 3 + 4 * 24 + 3 + 1 := by omega
        have ends := isDate_end_of_span cycle (Nat.le_refl 3) (Nat.le_refl 24) (Or.inr rfl)
        rw [year]
        refine ⟨ends.1, ?_⟩
        rw [ends.2]
        omega
      · have year : 400 * cycle + 100 * century + 4 * span + past + 1 - 1 =
            400 * cycle + 100 * century + 4 * span + 3 + 1 := by omega
        have inCycle : century ≤ 3 := by omega
        have early : span ≤ 23 := by omega
        have ends := isDate_end_of_span cycle inCycle (Nat.le_succ_of_le early) (Or.inl early)
        rw [year]
        refine ⟨ends.1, ?_⟩
        rw [ends.2]
        omega
  · next earlier =>
      have inCycle : century ≤ 3 := by omega
      have inCentury : span ≤ 24 := by omega
      have inSpan : past ≤ 3 := by omega
      have days := daysBeforeYear_parts cycle inCycle inCentury inSpan
      have positive : 1 ≤ 400 * cycle + 100 * century + 4 * span + past + 1 := Nat.le_add_left 1 _
      generalize 400 * cycle + 100 * century + 4 * span + past + 1 = year at days positive ⊢
      have within : n % 146097 % 36524 % 1461 % 365 < yearLength year := by
        unfold yearLength
        split <;> omega
      obtain ⟨date, inYear⟩ := isDate_monthAndDay positive within
      refine ⟨date, ?_⟩
      rw [dayNumber, Nat.add_assoc, inYear, days]
      omega

/-- A date is found by its number. -/
theorem IsDate.dateOfDay_dayNumber (date : IsDate year month day) :
    dateOfDay (dayNumber year month day) = (year, month, day) := by
  obtain ⟨found, number⟩ := isDate_dateOfDay (dayNumber year month day)
  generalize dateOfDay (dayNumber year month day) = other at found number ⊢
  obtain ⟨otherYear, otherMonth, otherDay⟩ := other
  dsimp only at found number
  have notBefore := mt (date.dayNumber_lt found) (Nat.not_lt.mpr (Nat.le_of_eq number))
  have notAfter := mt (found.dayNumber_lt date) (Nat.not_lt.mpr (Nat.le_of_eq number.symm))
  have years : otherYear = year := by omega
  have months : otherMonth = month := by omega
  have days : otherDay = day := by omega
  rw [years, months, days]

end EntityStore.Calendar
