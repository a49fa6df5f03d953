import EntityStore.Datum
import EntityStore.Error.Basic

set_option autoImplicit false

namespace EntityStore

namespace KeyFault

/-- The fault as an error. -/
def error (fault : KeyFault) : Error := .invalid (.key fault)

end KeyFault

/-- An id is an integer within the range of ids. -/
def EntityId.create (d : Datum) : Except Error EntityId :=
  match d with
  | .int n =>
    match EntityId.ofInt? n with
    | some id => .ok id
    | none => .error (KeyFault.idRange n).error
  | _ => .error (KeyFault.idType d.typeName).error

namespace Label

/-- A name is a text that is not empty. -/
def createName (d : Datum) : Except Error Label :=
  match d with
  | .text s =>
    match ofText? s with
    | some l => .ok l
    | none => .error KeyFault.nameEmpty.error
  | _ => .error (KeyFault.nameType d.typeName).error

/-- A label where nothing more is said than that it has to be a text that is not empty. -/
def createOr (fault : KeyFault) (d : Datum) : Except Error Label :=
  match d with
  | .text s =>
    match ofText? s with
    | some l => .ok l
    | none => .error fault.error
  | _ => .error fault.error

end Label

/-- A text is a name, everything else has to be an id. -/
def Identifier.create (d : Datum) : Except Error Identifier :=
  match d with
  | .text _ => Identifier.name <$> Label.createName d
  | _ => Identifier.id <$> EntityId.create d

namespace PathElement

/-- A path step with a kind, and an id or a name or neither. -/
def create (kind id name : Datum) : Except Error PathElement := do
  let kind ← Label.createOr .kind kind
  match id, name with
  | .none, .none => return ⟨kind, none⟩
  | .none, name => return ⟨kind, some (.name (← Label.createName name))⟩
  | id, .none => return ⟨kind, some (.id (← EntityId.create id))⟩
  | _, _ => throw (KeyFault.idAndName kind.text).error

/-- A path step with a kind, and what follows it: nothing, a name if it is a text, else an id. -/
def of (kind identifier : Datum) : Except Error PathElement :=
  match identifier with
  | .none => create kind .none .none
  | .text _ => create kind .none identifier
  | _ => create kind identifier .none

end PathElement

/-- Ancestors are path steps that identify an entity; they are checked in order, with their positions
from a given one on. -/
def Ancestor.createAll : Nat → List Datum → Except Error (List Ancestor)
  | _, [] => .ok []
  | position, .step e :: rest =>
    match e.ancestor? with
    | some a => (a :: ·) <$> createAll (position + 1) rest
    | none => .error (KeyFault.ancestorIncomplete position e.kind.text).error
  | position, d :: _ => .error (KeyFault.ancestorType position d.typeName).error

/-- The ancestors in a sequence, which can be anything that falls into parts. -/
def Ancestor.ofSequence (d : Datum) : Except Error (List Ancestor) :=
  match d.parts? with
  | some parts => createAll 0 parts
  | none => .error (.failure .argumentType)

/-- A namespace is a text, and none if it is empty. -/
def createNamespace (d : Datum) : Except Error (Option Label) :=
  match d with
  | .none => .ok none
  | .text s => .ok (Label.ofText? s)
  | _ => .error KeyFault.namespaceType.error

def PartialKey.create (dataset kind namespaceName ancestors : Datum) : Except Error PartialKey := do
  let dataset ← Label.createOr .dataset dataset
  let namespaceName ← createNamespace namespaceName
  let ancestors ← Ancestor.ofSequence ancestors
  let kind ← Label.createOr .kind kind
  return ⟨dataset, namespaceName, ancestors, kind⟩

def Key.create (dataset kind identifier namespaceName ancestors : Datum) : Except Error Key := do
  let space ← PartialKey.create dataset kind namespaceName ancestors
  return space.withIdentifier (← Identifier.create identifier)

/-- An id or name as a datum. -/
def Identifier.datum : Identifier → Datum
  | .id n => .int n.value
  | .name l => .text l.text

/-- A namespace as a datum. -/
def namespaceDatum : Option Label → Datum
  | none => .none
  | some l => .text l.text

/-- An ancestor as a datum. -/
def Ancestor.datum (a : Ancestor) : Datum := .step a.element

/-- The key of the closest ancestor, made from the parts of the key; a root key has none. -/
def Key.parent (k : Key) : Except Error (Option Key) :=
  match k.ancestors.getLast? with
  | none => .ok none
  | some last =>
    some <$> Key.create (.text k.dataset.text) (.text last.kind.text) last.identifier.datum
      (namespaceDatum k.namespaceName) (.tuple (k.ancestors.dropLast.map Ancestor.datum))

/-- The key without its id or name, made from the parts of the key. -/
def Key.toPartial (k : Key) : Except Error PartialKey :=
  PartialKey.create (.text k.dataset.text) (.text k.kind.text) (namespaceDatum k.namespaceName)
    (.tuple (k.ancestors.map Ancestor.datum))

end EntityStore
