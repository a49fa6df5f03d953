import EntityStore.Datum
import EntityStore.Error.Basic

set_option autoImplicit false

namespace EntityStore

/-- The fault as an error. -/
def ValueFault.error (fault : ValueFault) : Error := .invalid (.value fault)

/-- The payload of a value, without its marks. -/
inductive Payload where
  | scalar (s : Scalar)
  | list (items : List Element)

namespace Payload

def variant : Payload → Variant
  | scalar s => s.variant
  | list _ => .list

/-- The value with the payload and given marks. -/
def withMarks : Payload → Marks → Value
  | scalar s, m => .single ⟨s, m⟩
  | list items, m => .list items m

end Payload

def Value.payload : Value → Payload
  | .single e => .scalar e.scalar
  | .list items _ => .list items

/-- The payload of a value that is no list, as it is handed out. -/
def Scalar.datum : Scalar → Datum
  | null => .none
  | boolean b => .bool b
  | long n => .int n.value
  | double x => .double x
  | string s => .text s
  | blob b => .bytes b
  | raw b => .bytes b
  | dateTime t => .time ⟨t, some 0⟩
  | key k => .key (.complete k)
  | entity e => .entity e

/-- The payload of a value, as it is handed out. -/
def Payload.datum : Payload → Datum
  | scalar s => s.datum
  | list items => .tuple (items.map fun x => .value (.single x))

/-- The mark for indexing, as it is handed out. -/
def Marks.indexedDatum (m : Marks) : Datum := m.indexed.elim .none .bool

/-- The meaning, as it is handed out. -/
def Marks.meaningDatum (m : Marks) : Datum := m.meaning.elim .none .int

/-- A sequence of values, none of them a list; positions count from a given one on. -/
def elements : Nat → List Datum → Except Error (List Element)
  | _, [] => .ok []
  | position, .value v :: rest =>
    match v.element? with
    | some e => (e :: ·) <$> elements (position + 1) rest
    | none => .error ValueFault.nestedList.error
  | position, d :: _ => .error (ValueFault.item position d.typeName).error

/-- The moment in universal time; an offset that is not known counts as none. -/
def universalTime (t : OffsetTime) : Except Error CivilTime :=
  match t.universal? with
  | some moment => .ok moment
  | none => .error (.failure .calendarRange)

/-- The double nearest to an integer. -/
def nearestDouble (n : Int) : Except Error Double :=
  match Double.ofInt? n with
  | some x => .ok x
  | none => .error (.failure .doubleRange)

/-- The payload that a sort of values keeps of a datum. -/
def Payload.create (variant : Variant) (d : Datum) : Except Error Payload :=
  match variant, d with
  | .null, .none => .ok (.scalar .null)
  | .boolean, .bool b => .ok (.scalar (.boolean b))
  | .long, .int n =>
    match Long.ofInt? n with
    | some l => .ok (.scalar (.long l))
    | none => .error (ValueFault.longRange n).error
  | .double, .int n => (fun x => .scalar (.double x)) <$> nearestDouble n
  | .double, .double x => .ok (.scalar (.double x))
  | .string, .text s => .ok (.scalar (.string s))
  | .blob, .bytes b => .ok (.scalar (.blob b))
  | .blob, .byteArray b => .ok (.scalar (.blob b))
  | .raw, .bytes b => .ok (.scalar (.raw b))
  | .raw, .byteArray b => .ok (.scalar (.raw b))
  | .dateTime, .time t => (fun m => .scalar (.dateTime m)) <$> universalTime t
  | .key, .key (.complete k) => .ok (.scalar (.key k))
  | .entity, .entity e => .ok (.scalar (.entity e))
  | .list, d =>
    match d.items? with
    | some items => .list <$> elements 0 items
    | none => .error (ValueFault.payload .list d.typeName).error
  | variant, d => .error (ValueFault.payload variant d.typeName).error

/-- The mark for indexing is a truth value. -/
def createIndexed (d : Datum) : Except Error Bool :=
  match d with
  | .bool b => .ok b
  | _ => .error ValueFault.indexed.error

/-- The mark for the meaning is an integer. -/
def createMeaning (d : Datum) : Except Error Int :=
  match d with
  | .int n => .ok n
  | _ => .error ValueFault.meaning.error

/-- A mark that may be absent. -/
def createOptional {α : Type} (create : Datum → Except Error α) (d : Datum) :
    Except Error (Option α) :=
  match d with
  | .none => .ok none
  | d => some <$> create d

/-- A value of a sort.  If no mark for indexing is given, the value has that of its sort. -/
def Value.create (variant : Variant) (payload : Datum) (indexed : Option Datum) (meaning : Datum) :
    Except Error Value := do
  let indexed ← match indexed with
    | none => pure variant.defaultIndexed
    | some d => createOptional createIndexed d
  let meaning ← createOptional createMeaning meaning
  let payload ← Payload.create variant payload
  return payload.withMarks ⟨indexed, meaning⟩

mutual

/-- The value for a datum: a value is itself, a sequence becomes a list of the values of its items,
and other data become values of the sort that fits them. -/
def Value.ofDatum : Datum → Except Error Value
  | .value v => .ok v
  | .list items => do return .list (← elements 0 ((← valuesOf items).map .value)) ⟨none, none⟩
  | .tuple items => do return .list (← elements 0 ((← valuesOf items).map .value)) ⟨none, none⟩
  | .none => Value.create .null .none none .none
  | .bool b => Value.create .boolean (.bool b) none .none
  | .int n => Value.create .long (.int n) none .none
  | .double x => Value.create .double (.double x) none .none
  | .text s => Value.create .string (.text s) none .none
  | .bytes b => Value.create .blob (.bytes b) none .none
  | .byteArray b => Value.create .blob (.byteArray b) none .none
  | .time t => Value.create .dateTime (.time t) none .none
  | .key (.complete k) => Value.create .key (.key (.complete k)) none .none
  | .key (.incomplete k) =>
    .error (ValueFault.unsupported (Datum.key (.incomplete k)).typeName).error
  | .entity e => Value.create .entity (.entity e) none .none
  | .dict _ => .error (ValueFault.unsupported "dict").error
  | .object => .error (ValueFault.unsupported "object").error
  | .step e => .error (ValueFault.unsupported (Datum.step e).typeName).error
  | .filter f => .error (ValueFault.unsupported f.typeName).error
  | .projection p => .error (ValueFault.unsupported (Datum.projection p).typeName).error
  | .query q => .error (ValueFault.unsupported q.typeName).error
termination_by structural d => d

/-- The values for a sequence of data, from the first on. -/
def valuesOf : List Datum → Except Error (List Value)
  | [] => .ok []
  | d :: rest => do
    let v ← Value.ofDatum d
    return v :: (← valuesOf rest)
termination_by structural ds => ds

end

end EntityStore
