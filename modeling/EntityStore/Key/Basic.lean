import EntityStore.Text.Label

/-!
Keys: the identifiers of stored entities.  A key names a dataset, perhaps a namespace in it, a path of
ancestors, a kind, and an id or a name.  A partial key lacks the id or name and stands for the space
of ids in which one can be allocated.
-/

set_option autoImplicit false

namespace EntityStore

/-- The greatest id. -/
def maxId : Nat := 9223372036854775807

/-- A numeric id, between 1 and the greatest one. -/
structure EntityId where
  value : Nat
  inRange : 1 ≤ value ∧ value ≤ maxId
deriving DecidableEq

def EntityId.ofInt? (n : Int) : Option EntityId :=
  if h : 1 ≤ n ∧ n ≤ maxId then some ⟨n.toNat, by omega⟩ else none

theorem EntityId.ofInt?_eq_some_iff {i : Int} {n : EntityId} : ofInt? i = some n ↔ i = n.value := by
  constructor
  · intro made
    unfold ofInt? at made
    split at made
    · next bounds =>
        cases made
        exact (Int.toNat_of_nonneg (by omega)).symm
    · cases made
  · rintro rfl
    have bounds := n.inRange
    exact (dif_pos (by omega)).trans rfl

/-- What tells the entities of one kind under one parent apart. -/
inductive Identifier where
  | id (value : EntityId)
  | name (value : Label)
deriving DecidableEq

/-- The id, if it is one. -/
def Identifier.id? : Identifier → Option EntityId
  | id n => some n
  | name _ => none

/-- The name, if it is one. -/
def Identifier.name? : Identifier → Option Label
  | id _ => none
  | name l => some l

/-- A step of a key path, perhaps without an id or name. -/
structure PathElement where
  kind : Label
  identifier? : Option Identifier
deriving DecidableEq

/-- A step of a key path that identifies one entity. -/
structure Ancestor where
  kind : Label
  identifier : Identifier
deriving DecidableEq

/-- Everything of a key but its id or name. -/
structure PartialKey where
  dataset : Label
  namespaceName : Option Label
  ancestors : List Ancestor
  kind : Label
deriving DecidableEq

/-- A key that identifies one entity. -/
structure Key extends PartialKey where
  identifier : Identifier
deriving DecidableEq

/-- A key of either sort. -/
inductive AnyKey where
  | incomplete (key : PartialKey)
  | complete (key : Key)
deriving DecidableEq

namespace PathElement

def isComplete (e : PathElement) : Bool := e.identifier?.isSome

/-- The step as one that identifies an entity. -/
def ancestor? (e : PathElement) : Option Ancestor := e.identifier?.map (⟨e.kind, ·⟩)

end PathElement

/-- An ancestor as a step of a path. -/
def Ancestor.element (a : Ancestor) : PathElement := ⟨a.kind, some a.identifier⟩

@[simp] theorem Ancestor.ancestor?_element (a : Ancestor) : a.element.ancestor? = some a := rfl

theorem Ancestor.element_injective {a b : Ancestor} (h : a.element = b.element) : a = b := by
  cases a; cases b; simp_all [element]

namespace PartialKey

/-- The full path, from the root down to the step that lacks an id or name. -/
def path (k : PartialKey) : List PathElement := k.ancestors.map Ancestor.element ++ [⟨k.kind, none⟩]

/-- The key in this space with a given id or name. -/
def withIdentifier (k : PartialKey) (identifier : Identifier) : Key := ⟨k, identifier⟩

end PartialKey

namespace Key

/-- The last step of the path. -/
def leaf (k : Key) : Ancestor := ⟨k.kind, k.identifier⟩

/-- The full path, from the root down. -/
def path (k : Key) : List PathElement := (k.ancestors ++ [k.leaf]).map Ancestor.element

/-- The key of the closest ancestor; a root key has none. -/
def parent? (k : Key) : Option Key :=
  k.ancestors.getLast?.map fun last =>
    { k with ancestors := k.ancestors.dropLast, kind := last.kind, identifier := last.identifier }

/-- The partial key below a key for a kind of children. -/
def childSpace (k : Key) (kind : Label) : PartialKey :=
  { k.toPartialKey with ancestors := k.ancestors ++ [k.leaf], kind := kind }

end Key

namespace AnyKey

def isComplete : AnyKey → Bool
  | incomplete _ => false
  | complete _ => true

/-- The key as one that identifies an entity. -/
def key? : AnyKey → Option Key
  | incomplete _ => none
  | complete k => some k

/-- The key without its id or name. -/
def toPartialKey : AnyKey → PartialKey
  | incomplete k => k
  | complete k => k.toPartialKey

def identifier? : AnyKey → Option Identifier
  | incomplete _ => none
  | complete k => some k.identifier

/-- The last step of the path. -/
def leaf : AnyKey → PathElement
  | incomplete k => ⟨k.kind, none⟩
  | complete k => k.leaf.element

def path : AnyKey → List PathElement
  | incomplete k => k.path
  | complete k => k.path

/-- Whether the key is a given one or lies below it. -/
def isWithin (k : AnyKey) (ancestor : Key) : Bool :=
  k.toPartialKey.dataset = ancestor.dataset &&
  k.toPartialKey.namespaceName = ancestor.namespaceName &&
  ancestor.path.isPrefixOf k.path

end AnyKey

/-- Whether the key is a given one or lies below it. -/
def Key.isWithin (k ancestor : Key) : Bool := (AnyKey.complete k).isWithin ancestor

end EntityStore
