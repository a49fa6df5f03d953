import EntityStore.Index.Visible
import EntityStore.Proofs.Calendar
import Mathlib.Data.List.Lex
import Mathlib.Tactic.Ring

/-!
Moments and their microseconds.  The clock goes on by one microsecond at a time, through the seconds, hours, days,
months and leap years of the calendar, and the number of a moment counts these steps from the start of 1970, backwards
before it.  So the number orders the moments, names each of them, and is the same however the clock was set.
-/

set_option autoImplicit false

namespace EntityStore

namespace CivilFields

/-- The fields from the years down to the microseconds. -/
def toList (f : CivilFields) : List Nat :=
  [f.year, f.month, f.day, f.hour, f.minute, f.second, f.microsecond]

theorem toList_injective : Function.Injective toList := by
  intro f g same
  cases f
  cases g
  simpa [toList] using same

/-- The microseconds since the start of the day. -/
def sinceMidnight (f : CivilFields) : Nat :=
  ((f.hour * 60 + f.minute) * 60 + f.second) * 1000000 + f.microsecond

/-- The fields one microsecond later. -/
def tick (f : CivilFields) : CivilFields :=
  if f.microsecond + 1 < 1000000 then { f with microsecond := f.microsecond + 1 }
  else if f.second + 1 < 60 then { f with second := f.second + 1, microsecond := 0 }
  else if f.minute + 1 < 60 then { f with minute := f.minute + 1, second := 0, microsecond := 0 }
  else if f.hour + 1 < 24 then { f with hour := f.hour + 1, minute := 0, second := 0, microsecond := 0 }
  else if f.day < Calendar.monthLength f.year f.month then ⟨f.year, f.month, f.day + 1, 0, 0, 0, 0⟩
  else if f.month < 12 then ⟨f.year, f.month + 1, 1, 0, 0, 0, 0⟩
  else ⟨f.year + 1, 1, 1, 0, 0, 0, 0⟩

/-- What a step of the clock does: it goes on within the day, or at midnight the next day begins, which may be the
first one of a month or of a year. -/
inductive Ticks (f g : CivilFields) : Prop where
  | clock {hour minute second microsecond : Nat}
      (bounds : hour < 24 ∧ minute < 60 ∧ second < 60 ∧ microsecond < 1000000)
      (goesOn : ((hour * 60 + minute) * 60 + second) * 1000000 + microsecond = f.sinceMidnight + 1)
      (next : g = ⟨f.year, f.month, f.day, hour, minute, second, microsecond⟩)
  | day (midnight : f.sinceMidnight + 1 = CivilTime.dayMicros) (inMonth : f.day < Calendar.monthLength f.year f.month)
      (next : g = ⟨f.year, f.month, f.day + 1, 0, 0, 0, 0⟩)
  | month (midnight : f.sinceMidnight + 1 = CivilTime.dayMicros) (past : Calendar.monthLength f.year f.month ≤ f.day)
      (inYear : f.month < 12) (next : g = ⟨f.year, f.month + 1, 1, 0, 0, 0, 0⟩)
  | year (midnight : f.sinceMidnight + 1 = CivilTime.dayMicros) (past : Calendar.monthLength f.year f.month ≤ f.day)
      (december : 12 ≤ f.month) (next : g = ⟨f.year + 1, 1, 1, 0, 0, 0, 0⟩)

theorem ticks {f : CivilFields}
    (bounds : f.hour < 24 ∧ f.minute < 60 ∧ f.second < 60 ∧ f.microsecond < 1000000) : f.Ticks f.tick := by
  by_cases microsecond : f.microsecond + 1 < 1000000
  · rw [tick, if_pos microsecond]
    refine Ticks.clock ⟨bounds.1, bounds.2.1, bounds.2.2.1, microsecond⟩ ?_ rfl
    unfold sinceMidnight
    omega
  by_cases second : f.second + 1 < 60
  · rw [tick, if_neg microsecond, if_pos second]
    refine Ticks.clock ⟨bounds.1, bounds.2.1, second, by decide⟩ ?_ rfl
    unfold sinceMidnight
    omega
  by_cases minute : f.minute + 1 < 60
  · rw [tick, if_neg microsecond, if_neg second, if_pos minute]
    refine Ticks.clock ⟨bounds.1, minute, by decide, by decide⟩ ?_ rfl
    unfold sinceMidnight
    omega
  by_cases hour : f.hour + 1 < 24
  · rw [tick, if_neg microsecond, if_neg second, if_neg minute, if_pos hour]
    refine Ticks.clock ⟨hour, by decide, by decide, by decide⟩ ?_ rfl
    unfold sinceMidnight
    omega
  have midnight : f.sinceMidnight + 1 = CivilTime.dayMicros := by
    unfold sinceMidnight CivilTime.dayMicros
    omega
  rw [tick, if_neg microsecond, if_neg second, if_neg minute, if_neg hour]
  by_cases inMonth : f.day < Calendar.monthLength f.year f.month
  · rw [if_pos inMonth]
    exact Ticks.day midnight inMonth rfl
  by_cases inYear : f.month < 12
  · rw [if_neg inMonth, if_pos inYear]
    exact Ticks.month midnight (Nat.le_of_not_lt inMonth) inYear rfl
  · rw [if_neg inMonth, if_neg inYear]
    exact Ticks.year midnight (Nat.le_of_not_lt inMonth) (Nat.le_of_not_lt inYear) rfl

end CivilFields

namespace CivilTime

open Calendar

/-- The start of 1970. -/
def epoch : CivilTime := ⟨⟨1970, 1, 1, 0, 0, 0, 0⟩, by decide⟩

theorem toMicros_epoch : epoch.toMicros = 0 := by decide

theorem ext_fields {s t : CivilTime} (same : s.fields = t.fields) : s = t := by
  cases s
  cases t
  simpa using same

theorem fields_of_ofFields? {f : CivilFields} {t : CivilTime} (made : ofFields? f = some t) : t.fields = f := by
  unfold ofFields? at made
  split at made
  · cases made
    rfl
  · cases made

theorem ofFields?_fields (t : CivilTime) : ofFields? t.fields = some t := dif_pos t.valid

/-- The number of the day of a moment. -/
def dayNumber (t : CivilTime) : Nat := Calendar.dayNumber t.fields.year t.fields.month t.fields.day

variable (t : CivilTime)

theorem isDate : IsDate t.fields.year t.fields.month t.fields.day :=
  ⟨t.valid.1.1, t.valid.2.1, t.valid.2.2.1⟩

theorem sinceMidnight_lt : t.fields.sinceMidnight < dayMicros := by
  obtain ⟨-, -, -, hour, minute, second, microsecond⟩ := t.valid
  unfold CivilFields.sinceMidnight dayMicros
  omega

theorem toMicros_eq :
    t.toMicros = ((t.dayNumber : Int) - epochDay) * dayMicros + t.fields.sinceMidnight := rfl

/-- The last day of the calendar ends with year 9999. -/
theorem dayNumber_lt : t.dayNumber < 3652059 := by
  have inYear := t.isDate.inYear
  have years : daysBeforeYear t.fields.year + yearLength t.fields.year ≤ daysBeforeYear 10000 :=
    daysBeforeYear_mono t.valid.1.1 (Nat.lt_succ_of_le t.valid.1.2)
  have whole : daysBeforeYear 10000 = 3652059 := rfl
  unfold dayNumber Calendar.dayNumber
  omega

/-- The number of microseconds lies between those of the first and of the last moment of the calendar. -/
theorem toMicros_bounds : -62135596800000000 ≤ t.toMicros ∧ t.toMicros ≤ 253402300799999999 := by
  have day := t.dayNumber_lt
  have clock := t.sinceMidnight_lt
  rw [toMicros_eq]
  unfold epochDay
  unfold dayMicros at clock ⊢
  omega

variable {t} {s : CivilTime}

theorem toMicros_lt_of_before (before : s.fields.toList < t.fields.toList) : s.toMicros < t.toMicros := by
  have clock := s.sinceMidnight_lt
  simp only [CivilFields.toList, List.cons_lt_cons_iff, List.not_lt_nil, and_false, or_false] at before
  rw [toMicros_eq, toMicros_eq]
  by_cases earlier : s.fields.year < t.fields.year ∨ s.fields.year = t.fields.year ∧
      (s.fields.month < t.fields.month ∨ s.fields.month = t.fields.month ∧ s.fields.day < t.fields.day)
  · have days : s.dayNumber < t.dayNumber := s.isDate.dayNumber_lt t.isDate earlier
    unfold dayMicros at clock ⊢
    omega
  · have years : s.fields.year = t.fields.year := by omega
    have months : s.fields.month = t.fields.month := by omega
    have days : s.fields.day = t.fields.day := by omega
    have sameDay : s.dayNumber = t.dayNumber := by rw [dayNumber, years, months, days, dayNumber]
    have seconds := s.valid.2.2.2
    have sooner : s.fields.sinceMidnight < t.fields.sinceMidnight := by
      unfold CivilFields.sinceMidnight
      omega
    rw [sameDay]
    omega

/-- The number of microseconds orders the moments as their fields do, from the years downwards. -/
theorem toMicros_lt_iff : s.toMicros < t.toMicros ↔ s.fields.toList < t.fields.toList := by
  refine ⟨fun less => ?_, toMicros_lt_of_before⟩
  rcases lt_trichotomy s.fields.toList t.fields.toList with before | same | after
  · exact before
  · have equal : s = t := ext_fields (CivilFields.toList_injective same)
    rw [equal] at less
    exact absurd less (Int.lt_irrefl _)
  · exact absurd (toMicros_lt_of_before after) (Int.lt_asymm less)

theorem toMicros_injective : Function.Injective toMicros := by
  intro s t same
  apply ext_fields
  apply CivilFields.toList_injective
  rcases lt_trichotomy s.fields.toList t.fields.toList with before | equal | after
  · exact absurd same (Int.ne_of_lt (toMicros_lt_of_before before))
  · exact equal
  · exact absurd same (Int.ne_of_gt (toMicros_lt_of_before after))

theorem fieldsAfter_of_parts {n : Nat} (day clock : Nat) {f : CivilFields} (days : n / dayMicros = day)
    (inDay : n % dayMicros = clock) (date : dateOfDay day = (f.year, f.month, f.day))
    (hours : clock / 1000000 / 3600 = f.hour) (minutes : clock / 1000000 / 60 % 60 = f.minute)
    (seconds : clock / 1000000 % 60 = f.second) (rest : clock % 1000000 = f.microsecond) : fieldsAfter n = f := by
  simp only [fieldsAfter, days, inDay, date, hours, minutes, seconds, rest]

/-- The fields of a moment are found by its number of microseconds. -/
theorem fieldsAfter_eq (t : CivilTime) :
    fieldsAfter (t.dayNumber * dayMicros + t.fields.sinceMidnight) = t.fields := by
  have clock := t.sinceMidnight_lt
  obtain ⟨-, -, -, hour, minute, second, microsecond⟩ := t.valid
  apply fieldsAfter_of_parts t.dayNumber t.fields.sinceMidnight
  · rw [Nat.mul_comm, Nat.mul_add_div (by decide), Nat.div_eq_of_lt clock, Nat.add_zero]
  · rw [Nat.mul_comm, Nat.mul_add_mod, Nat.mod_eq_of_lt clock]
  · exact t.isDate.dateOfDay_dayNumber
  all_goals
    unfold CivilFields.sinceMidnight
    omega

/-- The date and the time of day to which a number leads. -/
theorem fieldsAfter_spec (n : Nat) :
    IsDate (fieldsAfter n).year (fieldsAfter n).month (fieldsAfter n).day ∧
      Calendar.dayNumber (fieldsAfter n).year (fieldsAfter n).month (fieldsAfter n).day = n / dayMicros ∧
      ((fieldsAfter n).hour < 24 ∧ (fieldsAfter n).minute < 60 ∧ (fieldsAfter n).second < 60 ∧
        (fieldsAfter n).microsecond < 1000000) ∧
      (fieldsAfter n).sinceMidnight = n % dayMicros := by
  obtain ⟨date, number⟩ := isDate_dateOfDay (n / dayMicros)
  have inDay : n % dayMicros < dayMicros := Nat.mod_lt n (by decide)
  have fields : fieldsAfter n = ⟨(dateOfDay (n / dayMicros)).1, (dateOfDay (n / dayMicros)).2.1,
      (dateOfDay (n / dayMicros)).2.2, n % dayMicros / 1000000 / 3600, n % dayMicros / 1000000 / 60 % 60,
      n % dayMicros / 1000000 % 60, n % dayMicros % 1000000⟩ :=
    fieldsAfter_of_parts (n / dayMicros) (n % dayMicros) rfl rfl rfl rfl rfl rfl rfl
  generalize n % dayMicros = clock at fields inDay ⊢
  rw [fields]
  refine ⟨date, number, ?_, ?_⟩
  · unfold dayMicros at inDay
    dsimp only
    omega
  · unfold CivilFields.sinceMidnight
    dsimp only
    omega

theorem valid_fieldsAfter {n : Nat} (inCalendar : n / dayMicros < 3652059) : (fieldsAfter n).Valid := by
  obtain ⟨date, number, clock, -⟩ := fieldsAfter_spec n
  have era : (fieldsAfter n).year < 10000 := by
    apply Nat.lt_of_not_le
    intro past
    have years := daysBeforeYear_le (by decide) past
    have whole : daysBeforeYear 10000 = 3652059 := rfl
    unfold Calendar.dayNumber at number
    omega
  exact ⟨⟨date.inEra, Nat.le_of_lt_succ era⟩, date.inMonths, date.inMonth, clock⟩

/-- The moment found for a number is the one that has it. -/
theorem ofMicros?_eq_some_iff {n : Int} : ofMicros? n = some t ↔ t.toMicros = n := by
  have clock := t.sinceMidnight_lt
  unfold ofMicros?
  dsimp only
  constructor
  · intro found
    split at found
    · cases found
    · next inEra =>
        obtain ⟨since, number⟩ := Int.eq_ofNat_of_zero_le (Int.not_lt.mp inEra)
        rw [number, Int.toNat_natCast] at found
        have fields := fields_of_ofFields? found
        obtain ⟨-, days, -, inDay⟩ := fieldsAfter_spec since
        rw [← fields] at days inDay
        have sum := Nat.div_add_mod since dayMicros
        rw [toMicros_eq, dayNumber, days, inDay]
        unfold dayMicros at number sum ⊢
        omega
  · intro number
    rw [toMicros_eq] at number
    have since : n + epochDay * dayMicros = ((t.dayNumber * dayMicros + t.fields.sinceMidnight : Nat) : Int) := by
      push_cast
      rw [← number]
      ring
    rw [since, if_neg (Int.not_lt.mpr (Int.natCast_nonneg _)), Int.toNat_natCast, fieldsAfter_eq, ofFields?_fields]

theorem exists_toMicros_eq {n : Int} (inCalendar : -62135596800000000 ≤ n ∧ n ≤ 253402300799999999) :
    ∃ t : CivilTime, t.toMicros = n := by
  have since : 0 ≤ n + epochDay * dayMicros := by
    unfold epochDay dayMicros
    omega
  obtain ⟨since, number⟩ := Int.eq_ofNat_of_zero_le since
  have valid : (fieldsAfter since).Valid := by
    apply valid_fieldsAfter
    unfold epochDay dayMicros at number
    unfold dayMicros
    omega
  refine ⟨⟨fieldsAfter since, valid⟩, ofMicros?_eq_some_iff.mp ?_⟩
  unfold ofMicros?
  dsimp only
  rw [number, if_neg (Int.not_lt.mpr (Int.natCast_nonneg _)), Int.toNat_natCast]
  exact dif_pos valid

/-- The moment one microsecond later, unless the calendar ends. -/
def tick? (t : CivilTime) : Option CivilTime := ofFields? t.fields.tick

/-- The moment some microseconds later. -/
def later? : Nat → CivilTime → Option CivilTime
  | 0, t => some t
  | n + 1, t => t.tick?.bind (later? n)

/-- A step of the clock adds one microsecond, also where it ends a day, a month or a year. -/
theorem tick_spec (t : CivilTime) :
    Calendar.dayNumber t.fields.tick.year t.fields.tick.month t.fields.tick.day * dayMicros +
        t.fields.tick.sinceMidnight = t.dayNumber * dayMicros + t.fields.sinceMidnight + 1 := by
  have last := t.isDate.inMonth.2
  have december := t.isDate.inMonths.2
  obtain ⟨tomorrow, nextMonth, nextYear⟩ := t.isDate.dayNumber_next
  have morning : ∀ year month day, (⟨year, month, day, 0, 0, 0, 0⟩ : CivilFields).sinceMidnight = 0 := by
    intro year month day
    simp only [CivilFields.sinceMidnight, Nat.zero_mul, Nat.add_zero]
  rw [Nat.add_assoc]
  unfold dayNumber
  cases CivilFields.ticks t.valid.2.2.2 with
  | clock bounds goesOn next =>
      rw [next, ← goesOn, CivilFields.sinceMidnight]
  | day midnight inMonth next =>
      rw [midnight, next, tomorrow inMonth, morning, Nat.add_zero, Nat.add_one_mul]
  | month midnight past inYear next =>
      rw [midnight, next, nextMonth (Nat.le_antisymm last past) inYear, morning, Nat.add_zero, Nat.add_one_mul]
  | year midnight past whole next =>
      rw [midnight, next, nextYear (Nat.le_antisymm last past) (Nat.le_antisymm december whole), morning,
        Nat.add_zero, Nat.add_one_mul]

theorem toMicros_of_tick? {u : CivilTime} (next : t.tick? = some u) : u.toMicros = t.toMicros + 1 := by
  have fields := fields_of_ofFields? next
  have sum := t.tick_spec
  rw [toMicros_eq, toMicros_eq, dayNumber, fields]
  unfold dayMicros at sum ⊢
  omega

/-- Only the last microsecond of year 9999 is not followed by another one. -/
theorem exists_tick? (unended : t.toMicros < 253402300799999999) : ∃ u, t.tick? = some u := by
  obtain ⟨era, months, days, bounds⟩ := t.valid
  have morning : 0 < 24 ∧ 0 < 60 ∧ 0 < 60 ∧ 0 < 1000000 := by decide
  have valid : t.fields.tick.Valid := by
    cases CivilFields.ticks bounds with
    | clock bounds goesOn next =>
        rw [next]
        exact ⟨era, months, days, bounds⟩
    | day midnight inMonth next =>
        rw [next]
        exact ⟨era, months, ⟨Nat.le_add_left 1 _, inMonth⟩, morning⟩
    | month midnight past inYear next =>
        have named : 1 ≤ t.fields.month + 1 ∧ t.fields.month + 1 ≤ 12 := ⟨Nat.le_add_left 1 _, inYear⟩
        rw [next]
        exact ⟨era, named, ⟨Nat.le_refl 1, monthLength_pos t.fields.year _ named⟩, morning⟩
    | year midnight past december next =>
        have goesOn : t.fields.year ≠ 9999 := by
          intro last
          have newYear := t.isDate.dayNumber_next.2.2 (Nat.le_antisymm days.2 past) (Nat.le_antisymm months.2 december)
          have whole : Calendar.dayNumber (9999 + 1) 1 1 = 3652059 := rfl
          rw [last, whole, ← last] at newYear
          rw [toMicros_eq, dayNumber] at unended
          unfold epochDay dayMicros at unended
          unfold dayMicros at midnight
          omega
        have january : 1 ≤ 1 ∧ 1 ≤ 12 := by decide
        have first := monthLength_pos (t.fields.year + 1) 1 january
        rw [next]
        have inEra : 1 ≤ t.fields.year + 1 ∧ t.fields.year + 1 ≤ 9999 := by omega
        exact ⟨inEra, january, ⟨Nat.le_refl 1, first⟩, morning⟩
  exact ⟨⟨t.fields.tick, valid⟩, dif_pos valid⟩

/-- The number of microseconds counts the steps of the clock. -/
theorem later?_eq_some_iff (n : Nat) {u : CivilTime} : t.later? n = some u ↔ u.toMicros = t.toMicros + n := by
  induction n generalizing t with
  | zero =>
      rw [later?, Option.some.injEq, Int.natCast_zero, Int.add_zero]
      exact ⟨fun same => congrArg toMicros same.symm, fun same => toMicros_injective same.symm⟩
  | succ n ih =>
      rw [later?, Option.bind_eq_some_iff]
      constructor
      · rintro ⟨next, ticks, later⟩
        have first := toMicros_of_tick? ticks
        have rest := ih.mp later
        omega
      · intro number
        have last := u.toMicros_bounds.2
        obtain ⟨next, ticks⟩ := exists_tick? (show t.toMicros < 253402300799999999 by omega)
        have first := toMicros_of_tick? ticks
        exact ⟨next, ticks, ih.mpr (by omega)⟩

end CivilTime

namespace OffsetTime

/-- Two clocks show one instant if the one that is ahead shows the time of the other one later by as much as
their offsets differ. -/
def SameInstant (t u : OffsetTime) : Prop :=
  ∃ first second : Int, t.offset? = some first ∧ u.offset? = some second ∧
    (second ≤ first ∧ u.civil.later? (first - second).toNat = some t.civil ∨
      first ≤ second ∧ t.civil.later? (second - first).toNat = some u.civil)

/-- The number of microseconds depends on the instant alone, and tells it. -/
theorem sameInstant_iff (t u : OffsetTime) :
    t.SameInstant u ↔ ∃ micros, t.toMicros? = some micros ∧ u.toMicros? = some micros := by
  unfold SameInstant toMicros?
  simp only [CivilTime.later?_eq_some_iff]
  cases t.offset? with
  | none => simp
  | some first =>
      cases u.offset? with
      | none => simp
      | some second =>
          simp only [Option.some.injEq, Option.map_some, exists_eq_left']
          constructor
          · rintro ⟨_, _, rfl, rfl, ahead⟩
            omega
          · intro same
            exact ⟨first, second, rfl, rfl, by omega⟩

/-- The time in universal time is that of the same instant. -/
theorem universal?_eq_some_iff {t : OffsetTime} (known : t.offset?.isSome = true) (moment : CivilTime) :
    t.universal? = some moment ↔ t.SameInstant ⟨moment, some 0⟩ := by
  obtain ⟨offset, known⟩ := Option.isSome_iff_exists.mp known
  have micros : t.toMicros? = some (t.civil.toMicros - offset) := by rw [toMicros?, known, Option.map_some]
  have own : (⟨moment, some 0⟩ : OffsetTime).toMicros? = some moment.toMicros := by simp [toMicros?]
  rw [sameInstant_iff, universal?, micros, own]
  dsimp only
  rw [CivilTime.ofMicros?_eq_some_iff]
  simp only [Option.some.injEq, exists_eq_left']

end OffsetTime

end EntityStore
