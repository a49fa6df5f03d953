import EntityStore.Drafting
import EntityStore.Key.Create

set_option autoImplicit false

namespace EntityStore

/-- A partial key that is being put together.  Data that are absent are not set. -/
structure PartialKeyDraft where
  dataset : Datum
  namespaceName : Datum
  ancestors : List Datum
  kind : Datum

namespace PartialKeyDraft

def empty : PartialKeyDraft := ⟨.none, .none, [], .none⟩

/-- The draft with all parts of a key but its id or name. -/
def ofSpace (k : PartialKey) : PartialKeyDraft :=
  ⟨.text k.dataset.text, namespaceDatum k.namespaceName, k.ancestors.map Ancestor.datum, .text k.kind.text⟩

def withDataset (d : PartialKeyDraft) (dataset : Datum) : PartialKeyDraft := { d with dataset }

def withNamespace (d : PartialKeyDraft) (namespaceName : Datum) : PartialKeyDraft :=
  { d with namespaceName }

def withKind (d : PartialKeyDraft) (kind : Datum) : PartialKeyDraft := { d with kind }

/-- Replaces the ancestors. -/
def withAncestors (d : PartialKeyDraft) (ancestors : List Datum) : PartialKeyDraft :=
  { d with ancestors }

/-- Adds ancestors at the end. -/
def addAncestors (d : PartialKeyDraft) (ancestors : List Datum) : PartialKeyDraft :=
  { d with ancestors := d.ancestors ++ ancestors }

/-- A draft needs a dataset and a kind. -/
def checkSet (d : PartialKeyDraft) : Except Error Unit :=
  match d.dataset, d.kind with
  | .none, _ => .error KeyFault.datasetUnset.error
  | _, .none => .error KeyFault.kindUnset.error
  | _, _ => .ok ()

def build (d : PartialKeyDraft) : Except Error PartialKey := do
  d.checkSet
  PartialKey.create d.dataset d.kind d.namespaceName (.tuple d.ancestors)

/-- A draft from a key, perhaps with another kind, or from a dataset and a kind. -/
def start (source kind : Datum) : Except Error PartialKeyDraft :=
  match source, kind with
  | .key k, .none => .ok (ofSpace k.toPartialKey)
  | .key k, kind => .ok ((ofSpace k.toPartialKey).withKind kind)
  | _, .none => .error KeyFault.kindMissing.error
  | dataset, kind => .ok ((empty.withDataset dataset).withKind kind)

end PartialKeyDraft

/-- A call on a draft that sets what a partial key consists of. -/
inductive PartialKeyCall where
  | dataset (dataset : Datum)
  | inNamespace (namespaceName : Datum)
  | kind (kind : Datum)
  | ancestors (elements : List Datum)
  | addAncestors (elements : List Datum)
  | clearAncestors

/-- What such a call does.  Nothing is checked before the key is built. -/
def PartialKeyDraft.after (d : PartialKeyDraft) : PartialKeyCall → PartialKeyDraft
  | .dataset x => d.withDataset x
  | .inNamespace x => d.withNamespace x
  | .kind x => d.withKind x
  | .ancestors elements => d.withAncestors elements
  | .addAncestors elements => d.addAncestors elements
  | .clearAncestors => d.withAncestors []

/-- A key that is being put together. -/
structure KeyDraft extends PartialKeyDraft where
  id? : Option EntityId
  name? : Option Label

/-- A call on a draft of a key. -/
inductive KeyCall where
  | space (call : PartialKeyCall)
  | id (id : Datum)
  | name (name : Datum)
  /-- Sets the name if it is given a text, and else the id. -/
  | identifier (identifier : Datum)
  | build

namespace KeyDraft

open Drafting

def empty : KeyDraft := ⟨.empty, none, none⟩

/-- The draft with all parts that a key has. -/
def ofKey (k : AnyKey) : KeyDraft :=
  ⟨.ofSpace k.toPartialKey, k.identifier?.bind Identifier.id?, k.identifier?.bind Identifier.name?⟩

/-- Applies a change that does not touch the id or name. -/
def onSpace (d : KeyDraft) (f : PartialKeyDraft → PartialKeyDraft) : KeyDraft :=
  { d with toPartialKeyDraft := f d.toPartialKeyDraft }

/-- The id, or the name if there is no id. -/
def identifier? (d : KeyDraft) : Option Identifier :=
  match d.id? with
  | some n => some (.id n)
  | none => d.name?.map .name

/-- Sets the id and forgets the name. -/
def setId (id : Datum) : Drafting KeyDraft Unit := do
  let n ← checked (EntityId.create id)
  change fun d => { d with id? := some n }
  change fun d => { d with name? := none }

/-- Sets the name and forgets the id. -/
def setName (name : Datum) : Drafting KeyDraft Unit := do
  let l ← checked (Label.createName name)
  change fun d => { d with name? := some l }
  change fun d => { d with id? := none }

def setIdentifier (identifier : Datum) : Drafting KeyDraft Unit :=
  match identifier with
  | .text _ => setName identifier
  | _ => setId identifier

def build (d : KeyDraft) : Except Error Key := do
  d.checkSet
  match d.identifier? with
  | none => throw KeyFault.identifierUnset.error
  | some identifier => Key.create d.dataset d.kind identifier.datum d.namespaceName (.tuple d.ancestors)

/-- What a call does.  Only building has a key as its result. -/
def call : KeyCall → Drafting KeyDraft (Option Key)
  | .space call => quiet (change (·.onSpace (·.after call)))
  | .id id => quiet (setId id)
  | .name name => quiet (setName name)
  | .identifier identifier => quiet (setIdentifier identifier)
  | .build => making build

/-- A draft from a key alone; from a partial key or key and an id or name; from a parent key, a kind
and an id or name; or from a dataset, a kind and an id or name. -/
def start (source : Datum) (arguments : List Datum) : Except Error KeyDraft :=
  match source, arguments with
  | .key (.complete k), [] => .ok (ofKey (.complete k))
  | .key (.complete k), [kind, identifier] =>
    let steps := (k.ancestors ++ [k.leaf]).map Ancestor.datum
    (setIdentifier identifier).made
      ((ofKey (.complete k)).onSpace fun d => (d.withAncestors steps).withKind kind)
  | .key k, [identifier] => (setIdentifier identifier).made (ofKey k)
  | .text dataset, [kind, identifier] =>
    (setIdentifier identifier).made
      (empty.onSpace fun d => (d.withDataset (.text dataset)).withKind kind)
  | _, _ =>
    .error (KeyFault.arguments (source.typeName :: arguments.map Datum.typeName)).error

end KeyDraft

/-- A key of either sort that is being put together. -/
inductive AnyKeyDraft where
  | incomplete (draft : PartialKeyDraft)
  | complete (draft : KeyDraft)

namespace AnyKeyDraft

/-- The draft with all parts that a key has. -/
def ofKey : AnyKey → AnyKeyDraft
  | .incomplete k => incomplete (.ofSpace k)
  | .complete k => complete (.ofKey (.complete k))

/-- The answer to a call and what it leaves, if there is such a call on the draft: that of a partial key has no id or
name. -/
def call? : AnyKeyDraft → KeyCall → Option (Except Error (Option AnyKey) × AnyKeyDraft)
  | incomplete d, .space call => some (.ok none, incomplete (d.after call))
  | incomplete d, .build => some ((some ∘ .incomplete) <$> d.build, incomplete d)
  | incomplete _, _ => none
  | complete d, call => some (((KeyDraft.call call).perform d).map (Option.map .complete <$> ·) complete)

/-- A draft of a partial key from a key, perhaps with a kind, or from a dataset and a kind. -/
def startIncomplete : List Datum → Except Error AnyKeyDraft
  | [source] => incomplete <$> PartialKeyDraft.start source .none
  | [source, kind] => incomplete <$> PartialKeyDraft.start source kind
  | _ => .error (.failure .argumentType)

/-- A draft of a key from whatever a key can start from. -/
def startComplete : List Datum → Except Error AnyKeyDraft
  | source :: more => complete <$> KeyDraft.start source more
  | [] => .error (.failure .argumentType)

end AnyKeyDraft

end EntityStore
