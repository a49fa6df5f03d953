import EntityStore.Drafting
import EntityStore.Value.Create

set_option autoImplicit false

namespace EntityStore

/-- The fault as an error. -/
def EntityFault.error (fault : EntityFault) : Error := .invalid (.entity fault)

/-- What an entity is to become: one whose key may be incomplete, or one with a complete key. -/
inductive EntityForm where
  | draft
  | keyed (shape : Shape)
deriving DecidableEq

/-- The name of the type of the entities of a form. -/
def EntityForm.typeName : EntityForm → String
  | .draft => "PartialEntity"
  | .keyed .stored => "Entity"
  | .keyed .projected => "ProjectionEntity"

def EntityForm.ofTypeName? (s : String) : Option EntityForm :=
  [draft, keyed .stored, keyed .projected].find? (·.typeName = s)

namespace AnyEntity

def form : AnyEntity → EntityForm
  | draft _ _ => .draft
  | keyed e => .keyed e.shape

/-- The entity of a form with a key and properties; only drafts do without a complete key. -/
def create (form : EntityForm) (key : AnyKey) (properties : Properties) : Except Error AnyEntity :=
  match form, key with
  | .draft, key => .ok (draft key properties)
  | .keyed shape, .complete k => .ok (keyed ⟨shape, k, properties⟩)
  | .keyed _, .incomplete k =>
    .error (EntityFault.incompleteKey (Datum.key (.incomplete k)).typeName).error

end AnyEntity

/-- An entity that is being put together. -/
structure EntityDraft where
  form : EntityForm
  key : AnyKey
  properties : Properties

/-- A call on an entity that is being put together. -/
inductive EntityCall where
  | key (key : Datum)
  | set (name first : Datum) (more : List Datum)
  | setNull (name : Datum)
  | remove (name : Datum)
  | clear
  | build

namespace EntityDraft

open Drafting

/-- A draft with a key and no properties, or with the key and the properties of an entity. -/
def start (form : EntityForm) (source : Datum) : Except Error EntityDraft :=
  match source with
  | .key k => .ok ⟨form, k, []⟩
  | .entity e => .ok ⟨form, e.key, e.properties⟩
  | _ => .error (EntityFault.source source.typeName).error

/-- The draft with everything that an entity has. -/
def ofEntity (e : AnyEntity) : EntityDraft := ⟨e.form, e.key, e.properties⟩

/-- Replaces the key. -/
def setKey (key : Datum) : Drafting EntityDraft Unit :=
  match key with
  | .key k => change fun d => { d with key := k }
  | _ => throw (EntityFault.keyType key.typeName).error

/-- The name of a property is a text that is not empty. -/
def propertyName (name : Datum) : Except Error String :=
  match name with
  | .text s => if s = "" then .error EntityFault.propertyName.error else .ok s
  | _ => .error EntityFault.propertyName.error

/-- The value for the data given to a property: one datum alone, or a list of several. -/
def propertyValue (first : Datum) (more : List Datum) : Except Error Value :=
  if more.isEmpty then Value.ofDatum first else Value.ofDatum (.list (first :: more))

/-- Binds a property; several data become a list. -/
def set (name first : Datum) (more : List Datum) : Drafting EntityDraft Unit := do
  let name ← checked (propertyName name)
  let value ← checked (propertyValue first more)
  change fun d => { d with properties := d.properties.put name value }

def setNull (name : Datum) : Drafting EntityDraft Unit := set name .none []

/-- Drops the property that a datum names, if there is one.  What has no fingerprint cannot name any. -/
def remove (name : Datum) : Drafting EntityDraft Unit :=
  match name.text? with
  | some s => change fun d => { d with properties := d.properties.remove s }
  | none => do
    let d ← current
    if d.properties.isEmpty || name.fingerprint?.isSome then pure () else throw (.failure .argumentType)

/-- Drops all properties and keeps the key. -/
def clear : Drafting EntityDraft Unit := change fun d => { d with properties := [] }

def build (d : EntityDraft) : Except Error AnyEntity := AnyEntity.create d.form d.key d.properties

/-- What a call does.  Only building has an entity as its result. -/
def call : EntityCall → Drafting EntityDraft (Option AnyEntity)
  | .key key => quiet (setKey key)
  | .set name first more => quiet (set name first more)
  | .setNull name => quiet (setNull name)
  | .remove name => quiet (remove name)
  | .clear => quiet clear
  | .build => making build

end EntityDraft

end EntityStore
