import EntityStore.Entity.Read
import EntityStore.Index.Entry

set_option autoImplicit false

namespace EntityStore

private theorem daysBeforeMonth_le : ∀ (leap : Bool) (months : Fin 13),
    ((Calendar.monthLengths leap).take months).foldr (· + ·) 0 ≤ 366 := by decide

private theorem monthLength_le (year month : Nat) : Calendar.monthLength year month ≤ 31 := by
  unfold Calendar.monthLength
  cases h : (Calendar.monthLengths (Calendar.isLeap year))[month - 1]? with
  | none => simp
  | some n =>
    have mem := List.mem_of_getElem? h
    simp only [Calendar.monthLengths, List.mem_cons, List.not_mem_nil, or_false] at mem
    simp only [Option.getD_some]
    split at mem <;> omega

/-- The microseconds of every moment of the calendar fit into an integer of 64 bits. -/
theorem CivilTime.toMicros_inRange (t : CivilTime) :
    -9223372036854775808 ≤ t.toMicros ∧ t.toMicros ≤ 9223372036854775807 := by
  obtain ⟨f, ⟨hy, hy'⟩, ⟨hm, hm'⟩, ⟨hd, hd'⟩, hh, hmin, hs, hmicro⟩ := t
  have before := daysBeforeMonth_le (Calendar.isLeap f.year) ⟨f.month - 1, by omega⟩
  have day := monthLength_le f.year f.month
  simp only [toMicros, Calendar.dayNumber, Calendar.daysBeforeYear, Calendar.daysBeforeMonth,
    epochDay, dayMicros] at *
  omega

/-- The microseconds of a moment, as an integer that a value can hold. -/
def CivilTime.toLong (t : CivilTime) : Long := ⟨t.toMicros, t.toMicros_inRange⟩

/-- The index entry of a payload; nested entities have none. -/
def Scalar.entry? : Scalar → Option IndexEntry
  | null => some .null
  | boolean b => some (.boolean b)
  | long n => some (.integer n.value)
  | double x => some (.double x)
  | string s => some (.text s)
  | blob b => some (.bytes b)
  | raw b => some (.bytes b)
  | dateTime t => some (.integer t.toMicros)
  | key k => some (.key k.place)
  | entity _ => none

namespace Element

/-- The index entry of an element, unless it is invisible. -/
def entry? (e : Element) : Option IndexEntry :=
  if e.marks.indexed = some false then none else e.scalar.entry?

/-- What a projected row shows of an element, unless it is invisible.  A moment stands there as its
microseconds, marked as a moment. -/
def projected? (e : Element) : Option Element :=
  if e.marks.indexed = some false then none
  else
    match e.scalar with
    | .entity _ => none
    | .dateTime t => some ⟨.long t.toLong, none, some momentMeaning⟩
    | _ => some e

end Element

namespace Value

/-- The index entries of a value; those of a list are the entries of its items. -/
def entries : Value → List IndexEntry
  | single e => e.entry?.toList
  | list items marks => if marks.indexed = some false then [] else items.flatMap fun e => e.entry?.toList

/-- What projected rows show of a value; of a list they show what they show of its items. -/
def projected : Value → List Element
  | single e => e.projected?.toList
  | list items marks => if marks.indexed = some false then [] else items.flatMap fun e => e.projected?.toList

/-- The elements that the indexes look at. -/
def elements : Value → List Element
  | single e => [e]
  | list items marks => if marks.indexed = some false then [] else items

/-- The entry that a value asks for when a condition compares with it; its marks do not matter. -/
def target? : Value → Option IndexEntry
  | single e => e.scalar.entry?
  | list _ _ => none

end Value

namespace Entity

def property? (e : Entity) (name : String) : Option Value := Bindings.at? e.properties name

/-- The index entries of an entity for a property; its key stands under a name of its own. -/
def entries (e : Entity) (name : String) : List IndexEntry :=
  if name = keyProperty then [.key e.key.place] else ((e.property? name).map Value.entries).getD []

end Entity

end EntityStore
