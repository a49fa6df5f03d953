set_option autoImplicit false

namespace EntityStore

namespace Calendar

/-- Whether a year has a 29th of February. -/
def isLeap (year : Nat) : Bool := year % 4 = 0 && (year % 100 ≠ 0 || year % 400 = 0)

/-- The lengths of the months of a year. -/
def monthLengths (leap : Bool) : List Nat :=
  [31, if leap then 29 else 28, 31, 30, 31, 30, 31, 31, 30, 31, 30, 31]

/-- The number of days in a month, counted from 1. -/
def monthLength (year month : Nat) : Nat := ((monthLengths (isLeap year))[month - 1]?).getD 0

/-- The number of days between the first day of year 1 and the first day of a year. -/
def daysBeforeYear (year : Nat) : Nat :=
  let past := year - 1
  past * 365 + past / 4 - past / 100 + past / 400

/-- The number of days of a year before the first of a month. -/
def daysBeforeMonth (year month : Nat) : Nat := ((monthLengths (isLeap year)).take (month - 1)).foldr (· + ·) 0

/-- The number of days between the first day of year 1 and a date. -/
def dayNumber (year month day : Nat) : Nat :=
  daysBeforeYear year + daysBeforeMonth year month + (day - 1)

/-- The month and the day of the month, both counted from 1, of a day of the year counted from 0. -/
def monthAndDay : List Nat → Nat → Nat → Nat × Nat
  | [], month, day => (month, day + 1)
  | length :: rest, month, day =>
    if day < length then (month, day + 1) else monthAndDay rest (month + 1) (day - length)

/-- The year, month and day at a number of days after the first day of year 1.  Four hundred years
have 146097 days, the first three centuries of them 36524, and four years 1461 unless they end a
century without a leap day. -/
def dateOfDay (n : Nat) : Nat × Nat × Nat :=
  let cycle := n / 146097
  let inCycle := n % 146097
  let century := inCycle / 36524
  let inCentury := inCycle % 36524
  let olympiad := inCentury / 1461
  let inOlympiad := inCentury % 1461
  let past := inOlympiad / 365
  let year := 400 * cycle + 100 * century + 4 * olympiad + past + 1
  if past = 4 ∨ century = 4 then (year - 1, 12, 31)
  else
    let (month, day) := monthAndDay (monthLengths (isLeap year)) 1 (inOlympiad % 365)
    (year, month, day)

end Calendar

/-- The fields of a date and a time of day. -/
structure CivilFields where
  year : Nat
  month : Nat
  day : Nat
  hour : Nat
  minute : Nat
  second : Nat
  microsecond : Nat
deriving DecidableEq

namespace CivilFields

/-- The fields name a day of the calendar and a moment of it. -/
def Valid (f : CivilFields) : Prop :=
  (1 ≤ f.year ∧ f.year ≤ 9999) ∧ (1 ≤ f.month ∧ f.month ≤ 12) ∧
  (1 ≤ f.day ∧ f.day ≤ Calendar.monthLength f.year f.month) ∧
  f.hour < 24 ∧ f.minute < 60 ∧ f.second < 60 ∧ f.microsecond < 1000000

instance (f : CivilFields) : Decidable f.Valid := by unfold Valid; infer_instance

end CivilFields

/-- A date and a time of day with microseconds, without an offset. -/
structure CivilTime where
  fields : CivilFields
  valid : fields.Valid
deriving DecidableEq

namespace CivilTime

open Calendar

def ofFields? (f : CivilFields) : Option CivilTime := if h : f.Valid then some ⟨f, h⟩ else none

/-- The number of days from the first day of year 1 to the first day of 1970. -/
def epochDay : Nat := 719162

/-- The number of microseconds in a day. -/
def dayMicros : Nat := 86400000000

/-- Microseconds since the start of 1970, negative before it. -/
def toMicros (t : CivilTime) : Int :=
  let f := t.fields
  ((dayNumber f.year f.month f.day : Int) - epochDay) * dayMicros +
    (((f.hour * 60 + f.minute) * 60 + f.second) * 1000000 + f.microsecond : Nat)

/-- The moment at a number of microseconds after the start of year 1. -/
def fieldsAfter (micros : Nat) : CivilFields :=
  let (year, month, day) := dateOfDay (micros / dayMicros)
  let inDay := micros % dayMicros
  let seconds := inDay / 1000000
  ⟨year, month, day, seconds / 3600, seconds / 60 % 60, seconds % 60, inDay % 1000000⟩

/-- The moment at a number of microseconds since the start of 1970, unless it lies outside the
calendar. -/
def ofMicros? (micros : Int) : Option CivilTime :=
  let sinceStart := micros + epochDay * dayMicros
  if sinceStart < 0 then none else ofFields? (fieldsAfter sinceStart.toNat)

/-- The fields as arguments: hour and minute always, seconds and microseconds only up to the last one
that is not zero. -/
def arguments (t : CivilTime) : List Nat :=
  let f := t.fields
  [f.year, f.month, f.day, f.hour, f.minute] ++
    (if f.microsecond ≠ 0 then [f.second, f.microsecond]
     else if f.second ≠ 0 then [f.second] else [])

end CivilTime

/-- A civil time together with its offset from universal time in microseconds, if one is known. -/
structure OffsetTime where
  civil : CivilTime
  offset? : Option Int
deriving DecidableEq

namespace OffsetTime

/-- A moment with an offset of less than a day, or with none. -/
def create? (civil : CivilTime) (offset? : Option Int) : Option OffsetTime :=
  if offset?.all fun n => -(CivilTime.dayMicros : Int) < n && n < CivilTime.dayMicros then some ⟨civil, offset?⟩
  else none

/-- Microseconds since the start of 1970 in universal time, if the offset is known. -/
def toMicros? (t : OffsetTime) : Option Int := t.offset?.map fun n => t.civil.toMicros - n

/-- The same moment in universal time, where an unknown offset counts as none.  There is no such
moment if it falls outside the calendar. -/
def universal? (t : OffsetTime) : Option CivilTime :=
  match t.toMicros? with
  | none => some t.civil
  | some micros => CivilTime.ofMicros? micros

/-- The text of an offset, as whole days, the whole seconds left over, and the microseconds left over from these. -/
def offsetText (micros : Int) : String :=
  if micros = 0 then "datetime.timezone.utc"
  else
    let days := micros.fdiv CivilTime.dayMicros
    let inDay := micros.fmod CivilTime.dayMicros
    let seconds := inDay / 1000000
    let rest := inDay % 1000000
    let parts := (if days ≠ 0 then ["days=" ++ toString days] else []) ++
      (if seconds ≠ 0 then ["seconds=" ++ toString seconds] else []) ++
      (if rest ≠ 0 then ["microseconds=" ++ toString rest] else [])
    "datetime.timezone(datetime.timedelta(" ++ ", ".intercalate parts ++ "))"

/-- The text of a moment. -/
def text (t : OffsetTime) : String :=
  let zone := match t.offset? with
    | none => []
    | some n => ["tzinfo=" ++ offsetText n]
  "datetime.datetime(" ++ ", ".intercalate (t.civil.arguments.map toString ++ zone) ++ ")"

end OffsetTime

end EntityStore
