import EntityStore.Datum

set_option autoImplicit false

namespace EntityStore

inductive MutationKind where
  /-- Stores an entity that must not exist yet. -/
  | add
  /-- Stores an entity, whether it exists or not. -/
  | put
  /-- Stores an entity that has to exist. -/
  | update
  /-- Removes an entity, if it exists. -/
  | delete
deriving DecidableEq

def MutationKind.label : MutationKind → String
  | .add => "ADD"
  | .put => "PUT"
  | .update => "UPDATE"
  | .delete => "DELETE"

def MutationKind.name : MutationKind → String
  | .add => "add"
  | .put => "put"
  | .update => "update"
  | .delete => "delete"

def MutationKind.ofName? (s : String) : Option MutationKind :=
  [add, put, update, delete].find? (·.name = s)

/-- What a mutation is about: an entity to store, or a key alone. -/
inductive Subject where
  | entity (e : AnyEntity)
  | key (k : AnyKey)

structure Mutation where
  kind : MutationKind
  subject : Subject

namespace Mutation

def key (m : Mutation) : AnyKey :=
  match m.subject with
  | .entity e => e.key
  | .key k => k

/-- The properties to store; a key alone stands for an entity without any. -/
def properties (m : Mutation) : Properties :=
  match m.subject with
  | .entity e => e.properties
  | .key _ => []

/-- The shape in which an entity with a complete key is stored. -/
def shape (m : Mutation) : Shape :=
  match m.subject with
  | .entity (.keyed e) => e.shape
  | _ => .stored

/-- Whether the store has to find an id for the mutation. -/
def needsId (m : Mutation) : Bool := m.kind = .add && !m.key.isComplete

/-- The mutation as it stands in messages. -/
def text (m : Mutation) : String := m.kind.label ++ " " ++ m.key.text

end Mutation

end EntityStore
