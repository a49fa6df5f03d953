import EntityStore.Error.Report

set_option autoImplicit false

namespace EntityStore

/-- The meaning that marks an integer as a moment in a projected row. -/
def momentMeaning : Int := 7

namespace AnyEntity

def isProjected : AnyEntity → Bool
  | draft _ _ => false
  | keyed e => e.shape = .projected

def hasKey (e : AnyEntity) : Bool := e.key.isComplete

/-- The names of the properties in order. -/
def names (e : AnyEntity) : List String := e.properties.names

def contains (e : AnyEntity) (name : String) : Bool := e.properties.binds name

/-- Whether there is a property that a datum names.  What has no fingerprint cannot name any. -/
def containsNamed (e : AnyEntity) (name : Datum) : Except Error Bool :=
  match name.text? with
  | some s => .ok (e.contains s)
  | none => if name.fingerprint?.isSome then .ok false else .error (.failure .argumentType)

/-- The value of a property. -/
def value (e : AnyEntity) (name : String) : Except Error Value :=
  match e.properties.at? name with
  | some v => .ok v
  | none => .error (.propertyMissing name e.names)

/-- The report about a name that is no text and so stands for no property.  What has no fingerprint
cannot be looked up. -/
def missing (e : AnyEntity) (name : Datum) : Except Failure Report :=
  if name.fingerprint?.isSome then Report.missingAmong name (.list (e.names.map .text))
  else .error .argumentType

/-- Reads a property that holds a single payload of the expected sort. -/
def readScalar {α : Type} (e : AnyEntity) (name : String) (expected : Variant)
    (payload? : Scalar → Option α) : Except Error α := do
  let v ← e.value name
  match v with
  | .single ⟨s, _⟩ =>
    match payload? s with
    | some a => return a
    | none => throw (.propertyType name expected v.variant)
  | .list _ _ => throw (.propertyType name expected v.variant)

def isNull (e : AnyEntity) (name : String) : Except Error Bool :=
  (fun v => v.variant = .null) <$> e.value name

def string (e : AnyEntity) (name : String) : Except Error String :=
  e.readScalar name .string fun
    | .string s => some s
    | _ => none

def plainLong (e : AnyEntity) (name : String) : Except Error Int :=
  e.readScalar name .long fun
    | .long n => some n.value
    | _ => none

/-- An integer; in a projected row also the microseconds of a moment. -/
def long (e : AnyEntity) (name : String) : Except Error Int :=
  if e.isProjected then
    match e.value name with
    | .ok (.single ⟨.dateTime t, _⟩) => .ok t.toMicros
    | _ => e.plainLong name
  else e.plainLong name

def double (e : AnyEntity) (name : String) : Except Error Double :=
  e.readScalar name .double fun
    | .double x => some x
    | _ => none

def boolean (e : AnyEntity) (name : String) : Except Error Bool :=
  e.readScalar name .boolean fun
    | .boolean b => some b
    | _ => none

def plainDateTime (e : AnyEntity) (name : String) : Except Error CivilTime :=
  e.readScalar name .dateTime fun
    | .dateTime t => some t
    | _ => none

/-- The moment at a number of microseconds since the start of 1970. -/
def moment (micros : Int) : Except Error CivilTime :=
  match CivilTime.ofMicros? micros with
  | some t => .ok t
  | none => .error (.failure .calendarRange)

/-- A moment; in a projected row also an integer marked as one. -/
def dateTime (e : AnyEntity) (name : String) : Except Error CivilTime :=
  if e.isProjected then
    match e.value name with
    | .ok (.single ⟨.long n, marks⟩) =>
      if marks.meaning = some momentMeaning then moment n.value else e.plainDateTime name
    | _ => e.plainDateTime name
  else e.plainDateTime name

def keyProperty (e : AnyEntity) (name : String) : Except Error Key :=
  e.readScalar name .key fun
    | .key k => some k
    | _ => none

def blob (e : AnyEntity) (name : String) : Except Error (List UInt8) :=
  e.readScalar name .blob fun
    | .blob b => some b
    | _ => none

def raw (e : AnyEntity) (name : String) : Except Error (List UInt8) :=
  e.readScalar name .raw fun
    | .raw b => some b
    | _ => none

def nested (e : AnyEntity) (name : String) : Except Error AnyEntity :=
  e.readScalar name .entity fun
    | .entity inner => some inner
    | _ => none

def list (e : AnyEntity) (name : String) : Except Error (List Element) := do
  let v ← e.value name
  match v with
  | .list items _ => return items
  | .single _ => throw (.propertyType name .list v.variant)

end AnyEntity

end EntityStore
