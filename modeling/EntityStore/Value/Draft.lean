import EntityStore.Drafting
import EntityStore.Value.Create

set_option autoImplicit false

namespace EntityStore

/-- A value of some sort that is being put together. -/
structure ValueDraft where
  variant : Variant
  payload? : Option Payload
  marks : Marks

/-- A call on a value that is being put together. -/
inductive ValueCall where
  | set (payload : Datum)
  | indexed (indexed : Datum)
  | meaning (meaning : Datum)
  | mergeFrom (source : Datum)
  | addValues (values : List Datum)
  | build

namespace ValueDraft

open Drafting

/-- A draft without a payload; one of a list starts with no items. -/
def empty (variant : Variant) : ValueDraft :=
  ⟨variant, if variant = .list then some (.list []) else none, ⟨variant.defaultIndexed, none⟩⟩

/-- The draft with everything that a value has. -/
def ofValue (v : Value) : ValueDraft := ⟨v.variant, some v.payload, v.marks⟩

def setPayload (payload : Datum) : Drafting ValueDraft Unit := do
  let d ← current
  let payload ← checked (Payload.create d.variant payload)
  change fun d => { d with payload? := some payload }

def setIndexed (indexed : Datum) : Drafting ValueDraft Unit := do
  let indexed ← checked (createIndexed indexed)
  change fun d => { d with marks.indexed := some indexed }

def setMeaning (meaning : Datum) : Drafting ValueDraft Unit := do
  let meaning ← checked (createMeaning meaning)
  change fun d => { d with marks.meaning := some meaning }

/-- The value that a draft can take over: one of its own sort. -/
def ownValue (d : ValueDraft) (source : Datum) : Except Error Value :=
  match source with
  | .value v => if v.variant = d.variant then .ok v else .error (ValueFault.merge v.variant.typeName d.variant).error
  | _ => .error (ValueFault.merge source.typeName d.variant).error

/-- Takes payload and marks over from a value of the same sort. -/
def mergeFrom (source : Datum) : Drafting ValueDraft Unit := do
  let d ← current
  let v ← checked (d.ownValue source)
  change fun d => { d with payload? := some v.payload }
  change fun d => { d with marks.indexed := v.marks.indexed }
  change fun d => { d with marks.meaning := v.marks.meaning }

/-- The items staged so far. -/
def items (d : ValueDraft) : List Element :=
  match d.payload? with
  | some (.list items) => items
  | _ => []

/-- Adds values at the end of a list; the items that are there are checked again with them. -/
def addValues (values : List Datum) : Drafting ValueDraft Unit := do
  let d ← current
  if d.variant = .list then
    let payload ← checked (Payload.create .list (.tuple ((d.items.map fun x => .value (.single x)) ++ values)))
    change fun d => { d with payload? := some payload }
  else throw (.failure .unsupported)

/-- The payload to build with; the empty value alone needs none to be set. -/
def finalPayload (d : ValueDraft) : Except Error Payload :=
  match d.payload? with
  | some payload => .ok payload
  | none =>
    if d.variant = .null then .ok (.scalar .null) else .error (ValueFault.payloadUnset d.variant).error

/-- The value, made like any other from its payload and its marks. -/
def build (d : ValueDraft) : Except Error Value := do
  let payload ← d.finalPayload
  Value.create d.variant payload.datum (some d.marks.indexedDatum) d.marks.meaningDatum

/-- Sets the payload that is built with. -/
def settle : Drafting ValueDraft Unit := do
  let d ← current
  let payload ← checked d.finalPayload
  change fun d => { d with payload? := some payload }

/-- What a call does.  Only building has a value as its result. -/
def call : ValueCall → Drafting ValueDraft (Option Value)
  | .set payload => quiet (setPayload payload)
  | .indexed indexed => quiet (setIndexed indexed)
  | .meaning meaning => quiet (setMeaning meaning)
  | .mergeFrom source => quiet (mergeFrom source)
  | .addValues values => quiet (addValues values)
  | .build => do
    settle
    making build

def withPayload (d : ValueDraft) (payload : Datum) : Except Error ValueDraft := (setPayload payload).made d

def withIndexed (d : ValueDraft) (indexed : Datum) : Except Error ValueDraft := (setIndexed indexed).made d

def withMeaning (d : ValueDraft) (meaning : Datum) : Except Error ValueDraft := (setMeaning meaning).made d

theorem withPayload_eq (d : ValueDraft) (payload : Datum) :
    d.withPayload payload = (fun p => { d with payload? := some p }) <$> Payload.create d.variant payload :=
  (made_current_bind d _).trans (made_checked_change d _ _)

theorem withMeaning_eq (d : ValueDraft) (meaning : Datum) :
    d.withMeaning meaning = (fun n => { d with marks.meaning := some n }) <$> createMeaning meaning :=
  made_checked_change d _ _

end ValueDraft

namespace Value

/-- The value of a sort with a given payload.  The empty value is the same for every payload. -/
def of (variant : Variant) (payload : Datum) : Except Error Value :=
  if variant = .null then .ok (ofScalar .null)
  else do (← (ValueDraft.empty variant).withPayload payload).build

/-- A list of given values.  A single argument that is no value is the sequence of the values. -/
def listOf (arguments : List Datum) : Except Error Value :=
  match arguments with
  | [.value v] => of .list (.tuple [.value v])
  | [sequence] => of .list sequence
  | values => of .list (.tuple values)

/-- The value of a sort with what is given for it: the items of a list, the payload of any other sort, or
nothing for the empty value. -/
def ofArguments (variant : Variant) (arguments : List Datum) : Except Error Value :=
  match variant, arguments with
  | .list, arguments => listOf arguments
  | .null, [] => of .null .none
  | variant, [d] => of variant d
  | _, _ => .error (.failure .argumentType)

end Value

end EntityStore
