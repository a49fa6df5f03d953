import EntityStore.Time.Calendar

set_option autoImplicit false

namespace EntityStore

/-- A number with zeros on its left, up to a given width. -/
def padded (width n : Nat) : String :=
  let digits := toString n
  String.ofList (List.replicate (width - digits.length) '0') ++ digits

/-- The date and the time of day; microseconds are written only if there are some. -/
def CivilTime.digits (t : CivilTime) : String :=
  let f := t.fields
  let fraction := if f.microsecond = 0 then "" else "." ++ padded 6 f.microsecond
  padded 4 f.year ++ "-" ++ padded 2 f.month ++ "-" ++ padded 2 f.day ++ " " ++
    padded 2 f.hour ++ ":" ++ padded 2 f.minute ++ ":" ++ padded 2 f.second ++ fraction

/-- Hours and minutes of an offset behind its sign; seconds and microseconds are written only up to the last one that
is not zero. -/
def offsetDigits (micros : Int) : String :=
  let size := micros.natAbs
  let seconds := size / 1000000
  let fraction := if size % 1000000 = 0 then "" else "." ++ padded 6 (size % 1000000)
  let rest := if size % 60000000 = 0 then "" else ":" ++ padded 2 (seconds % 60) ++ fraction
  (if micros < 0 then "-" else "+") ++ padded 2 (seconds / 3600) ++ ":" ++ padded 2 (seconds / 60 % 60) ++ rest

def OffsetTime.digits (t : OffsetTime) : String :=
  t.civil.digits ++ (t.offset?.map offsetDigits).getD ""

end EntityStore
