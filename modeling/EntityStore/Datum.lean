import EntityStore.Query.Text
import EntityStore.Time.Digits
import EntityStore.Value.Text

set_option autoImplicit false

namespace EntityStore

/-- Any datum that an argument can be. -/
inductive Datum where
  | none
  | bool (b : Bool)
  | int (n : Int)
  | double (x : Double)
  | text (s : String)
  | bytes (b : List UInt8)
  | byteArray (b : List UInt8)
  | time (t : OffsetTime)
  | list (items : List Datum)
  | tuple (items : List Datum)
  | dict (entries : List (Datum × Datum))
  | object
  | step (e : PathElement)
  | key (k : AnyKey)
  | entity (e : AnyEntity)
  | value (v : Value)
  | filter (f : Filter)
  | projection (p : Projection)
  | query (q : Query)

namespace Datum

/-- The name of the type of a datum. -/
def typeName : Datum → String
  | none => "NoneType"
  | bool _ => "bool"
  | int _ => "int"
  | double _ => "float"
  | text _ => "str"
  | bytes _ => "bytes"
  | byteArray _ => "bytearray"
  | time _ => "datetime"
  | list _ => "list"
  | tuple _ => "tuple"
  | dict _ => "dict"
  | object => "object"
  | step _ => "PathElement"
  | key k => if k.isComplete then "Key" else "PartialKey"
  | entity e => e.typeName
  | value v => v.variant.typeName
  | filter f => f.typeName
  | projection _ => "Projection"
  | query q => q.typeName

/-- The items of a datum that is made of items: those of a sequence, the keys of a dictionary, the
numbers of a byte array. -/
def items? : Datum → Option (List Datum)
  | list items => some items
  | tuple items => some items
  | dict entries => some (entries.map Prod.fst)
  | byteArray b => some (b.map fun byte => int byte.toNat)
  | _ => Option.none

/-- The parts that a datum falls into when it is taken apart.  Unlike the items of a sequence of
values these include the characters of a text and the numbers of a byte string. -/
def parts? : Datum → Option (List Datum)
  | text s => some (s.toList.map fun c => text (String.singleton c))
  | bytes b => some (b.map fun byte => int byte.toNat)
  | d => d.items?

/-- The text that a datum is. -/
def text? : Datum → Option String
  | text s => some s
  | _ => Option.none

mutual

/-- A datum as it stands in messages. -/
def describe : Datum → String
  | none => "None"
  | bool b => if b then "True" else "False"
  | int n => toString n
  | double x => x.text
  | text s => Text.quoted s
  | bytes b => Text.quotedBytes b
  | byteArray b => "bytearray(" ++ Text.quotedByteArray b ++ ")"
  | time t => t.text
  | list items => Text.bracketed "[" "]" (describeAll items)
  | tuple items => Text.parenthesized (describeAll items)
  | dict entries => Text.bracketed "\x7b" "\x7d" (describeEntries entries)
  | step e => e.text
  | key k => k.text
  | entity e => e.text
  | value v => v.text
  | object => "<object>"
  | filter f => f.typeName
  | projection p => p.text
  | query q => q.typeName
termination_by structural d => d

def describeAll : List Datum → List String
  | [] => []
  | d :: rest => describe d :: describeAll rest
termination_by structural ds => ds

def describeEntries : List (Datum × Datum) → List String
  | [] => []
  | (k, v) :: rest => (describe k ++ ": " ++ describe v) :: describeEntries rest
termination_by structural ds => ds

end

/-- A datum as it stands inside a sentence: texts are not quoted, and moments are written in digits. -/
def inSentence : Datum → String
  | text s => s
  | time t => t.digits
  | d => d.describe

/-- The entries of a dictionary by name. -/
def namedEntries : Datum → List (String × Datum)
  | dict entries => entries.map fun e => (e.1.inSentence, e.2)
  | _ => []

/-- Whether a datum counts as true: all do but nothing, false, zero, and what has no parts. -/
def truth : Datum → Bool
  | none => false
  | bool b => b
  | int n => n ≠ 0
  | double x => x.magnitude ≠ 0
  | d => d.parts? |>.all (!·.isEmpty)

/-- The number that a datum is; truth values count as one and zero. -/
def number? : Datum → Option (Int ⊕ Double)
  | bool b => some (.inl (if b then 1 else 0))
  | int n => some (.inl n)
  | double x => some (.inr x)
  | _ => Option.none

/-- The integer that a datum equals as a number. -/
def integer? (d : Datum) : Option Int :=
  match d.number? with
  | some (.inl n) => some n
  | some (.inr x) => x.toInt?
  | Option.none => Option.none

/-- Equality of numbers of either sort. -/
def sameNumber : Int ⊕ Double → Int ⊕ Double → Bool
  | .inl m, .inl n => m = n
  | .inr x, .inr y => x.same y
  | .inl n, .inr x => x.toInt? = some n
  | .inr x, .inl n => x.toInt? = some n

mutual

/-- Equality of data.  Numbers of all sorts are compared by value; data of unrelated types differ. -/
def same : Datum → Datum → Bool
  | none, none => true
  | text a, text b => a = b
  | bytes a, bytes b => a = b
  | bytes a, byteArray b => a = b
  | byteArray a, bytes b => a = b
  | byteArray a, byteArray b => a = b
  | time a, time b =>
    match a.toMicros?, b.toMicros? with
    | some m, some n => m = n
    | Option.none, Option.none => a.civil = b.civil
    | _, _ => false
  | list a, list b => sameAll a b
  | tuple a, tuple b => sameAll a b
  | dict a, dict b => a.length = b.length && entriesWithin a b
  | step a, step b => a = b
  | key a, key b => a = b
  | entity a, entity b => a.same b
  | value a, value b => a.same b
  | filter a, filter b => a.same b
  | projection a, projection b => a = b
  | query a, query b => a.same b
  | a, b =>
    match a.number?, b.number? with
    | some m, some n => sameNumber m n
    | _, _ => false
termination_by structural d => d

def sameAll : List Datum → List Datum → Bool
  | [], [] => true
  | a :: as, b :: bs => same a b && sameAll as bs
  | _, _ => false
termination_by structural ds => ds

/-- Every entry occurs among the others. -/
def entriesWithin : List (Datum × Datum) → List (Datum × Datum) → Bool
  | [], _ => true
  | (k, v) :: rest, others =>
    (others.any fun e => same k e.1 && same v e.2) && entriesWithin rest others
termination_by structural ds => ds

end

instance : BEq Datum := ⟨same⟩

/-- A dictionary with given entries; of entries with equal keys the last one counts, in the place of
the first. -/
def dictOf (entries : List (Datum × Datum)) : Datum :=
  dict (entries.foldl (fun made e =>
    if made.any (fun old => old.1.same e.1) then
      made.map fun old => if old.1.same e.1 then (old.1, e.2) else old
    else made ++ [e]) [])

mutual

/-- A number that equal data share, for data that have one: dictionaries and sequences that can
change have none. -/
def fingerprint? : Datum → Option UInt64
  | none => some 21
  | text s => some (hash s)
  | bytes b => some (hash b)
  | byteArray _ => Option.none
  | time t => some (match t.toMicros? with
    | some m => hash m
    | Option.none => hash t.civil.toMicros)
  | list _ => Option.none
  | tuple items => fingerprints? items
  | dict _ => Option.none
  | step e => some (e.fingerprint .standard)
  | key k => some (k.fingerprint .standard)
  | entity e => some (e.fingerprint .standard)
  | value v => some (v.fingerprint .standard)
  | filter f => some (hash (f.conditions.map Condition.property))
  | projection p => some (hash p.property)
  | query q => some (hash q.resultType.name)
  | object => some 22
  | bool b => some (hash (if b then 1 else 0 : Int))
  | int n => some (hash n)
  | double x => some (match x.toInt? with
    | some n => hash n
    | Option.none => hash x.place)
termination_by structural d => d

def fingerprints? : List Datum → Option UInt64
  | [] => some 23
  | d :: rest =>
    match fingerprint? d, fingerprints? rest with
    | some a, some b => some (mixHash a b)
    | _, _ => Option.none
termination_by structural ds => ds

end

end Datum

end EntityStore
