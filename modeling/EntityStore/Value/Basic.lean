import EntityStore.Bindings
import EntityStore.Key.Basic
import EntityStore.Number.Double
import EntityStore.Time.Calendar

set_option autoImplicit false

namespace EntityStore

/-- The sorts of values. -/
inductive Variant where
  | null | key | blob | boolean | dateTime | double | entity | list | long | raw | string
deriving DecidableEq

namespace Variant

/-- The name of a sort of values in messages about properties. -/
def name : Variant → String
  | null => "null"
  | key => "key"
  | blob => "blob"
  | boolean => "boolean"
  | dateTime => "date_time"
  | double => "double"
  | entity => "entity"
  | list => "list"
  | long => "long"
  | raw => "raw_value"
  | string => "string"

/-- The name of the type of the values of a sort. -/
def typeName : Variant → String
  | null => "NullValue"
  | key => "KeyValue"
  | blob => "BlobValue"
  | boolean => "BooleanValue"
  | dateTime => "DateTimeValue"
  | double => "DoubleValue"
  | entity => "EntityValue"
  | list => "ListValue"
  | long => "LongValue"
  | raw => "RawValue"
  | string => "StringValue"

def all : List Variant :=
  [null, key, blob, boolean, dateTime, double, entity, list, long, raw, string]

def ofName? (s : String) : Option Variant := all.find? (·.name = s)

/-- Whether values of a sort are indexed if nothing is said: nested entities are not, all others
leave it to the store. -/
def defaultIndexed : Variant → Option Bool
  | entity => some false
  | _ => none

end Variant

/-- An integer of 64 bits with a sign. -/
structure Long where
  value : Int
  inRange : -9223372036854775808 ≤ value ∧ value ≤ 9223372036854775807
deriving DecidableEq

def Long.ofInt? (n : Int) : Option Long :=
  if h : -9223372036854775808 ≤ n ∧ n ≤ 9223372036854775807 then some ⟨n, h⟩ else none

theorem Long.ofInt?_eq_some_iff {i : Int} {n : Long} : ofInt? i = some n ↔ i = n.value := by
  constructor
  · intro made
    unfold ofInt? at made
    split at made
    · cases made
      rfl
    · cases made
  · rintro rfl
    exact dif_pos n.inRange

/-- What a value says about its index entries: whether it has any, if that is not left to the store,
and a number passed through to the store. -/
structure Marks where
  indexed : Option Bool
  meaning : Option Int
deriving DecidableEq

/-- Whether an entity is a stored one or a row of a projection query. -/
inductive Shape where
  | stored
  | projected
deriving DecidableEq

mutual

/-- The payload of a value that is not a list. -/
inductive Scalar where
  | null
  | boolean (b : Bool)
  | long (n : Long)
  | double (x : Double)
  | string (s : String)
  | blob (bytes : List UInt8)
  | raw (bytes : List UInt8)
  | dateTime (t : CivilTime)
  | key (k : Key)
  | entity (e : AnyEntity)

/-- A value that is not a list. -/
structure Element where
  scalar : Scalar
  marks : Marks

inductive Value where
  | single (element : Element)
  | list (items : List Element) (marks : Marks)

/-- An entity with a complete key. -/
structure Entity where
  shape : Shape
  key : Key
  properties : List (String × Value)

/-- An entity whose key may still lack its id or name, or one with a complete key. -/
inductive AnyEntity where
  | draft (key : AnyKey) (properties : List (String × Value))
  | keyed (entity : Entity)

end

namespace Scalar

def variant : Scalar → Variant
  | null => .null
  | boolean _ => .boolean
  | long _ => .long
  | double _ => .double
  | string _ => .string
  | blob _ => .blob
  | raw _ => .raw
  | dateTime _ => .dateTime
  | key _ => .key
  | entity _ => .entity

end Scalar

/-- Whether an element is itself a not-a-number. -/
def Element.isNaN (e : Element) : Bool :=
  match e.scalar with
  | .double x => x.isNaN
  | _ => false

namespace Value

def variant : Value → Variant
  | single e => e.scalar.variant
  | list _ _ => .list

def marks : Value → Marks
  | single e => e.marks
  | list _ m => m

/-- The value with other marks. -/
def withMarks : Value → Marks → Value
  | single e, m => single ⟨e.scalar, m⟩
  | list items _, m => list items m

/-- A scalar with the marks that its sort has if nothing is said. -/
def ofScalar (s : Scalar) : Value := single ⟨s, s.variant.defaultIndexed, none⟩

/-- The value as an item of a list. -/
def element? : Value → Option Element
  | single e => some e
  | list _ _ => none

end Value

/-- Property names and values in the order of first binding. -/
abbrev Properties := Bindings String Value

namespace AnyEntity

def key : AnyEntity → AnyKey
  | draft k _ => k
  | keyed e => .complete e.key

def properties : AnyEntity → Properties
  | draft _ p => p
  | keyed e => e.properties

end AnyEntity

end EntityStore
