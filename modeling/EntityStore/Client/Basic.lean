import EntityStore.Client.Batch
import EntityStore.Client.Factory
import EntityStore.Client.Transaction

set_option autoImplicit false

namespace EntityStore.Client

variable {σ : Type}

/-- Looks up entities under complete keys. -/
def getMany (remote : Remote σ) (arguments : List Datum) :
    StateM σ (Except Error (List (Option Entity))) :=
  match completeKeys "get" arguments with
  | .error e => return .error e
  | .ok keys => remote.lookup keys none

/-- Runs a query. -/
def run (remote : Remote σ) (query : Query) : StateM σ (Except Error QueryResults) :=
  QueryResults.start remote query none

/-- Commits mutations of one kind. -/
def write (remote : Remote σ) (kind : MutationKind) (arguments : List Datum) :
    StateM σ (Except Error CommitResult) :=
  match Mutation.stage kind arguments with
  | .error e => return .error e
  | .ok mutations => remote.submit mutations none

/-- Entities with complete keys, where those that lack one take the next of the generated keys. -/
def complete : List AnyEntity → List Key → Except Error (List Entity)
  | [], _ => .ok []
  | e :: rest, generated =>
    match e.keyed?, generated with
    | some keyed, generated => (keyed :: ·) <$> complete rest generated
    | none, k :: generated => (⟨.stored, k, e.properties⟩ :: ·) <$> complete rest generated
    | none, [] => .error (.failure .exhausted)

/-- Adds entities and answers them as they are stored. -/
def add (remote : Remote σ) (arguments : List Datum) : StateM σ (Except Error (List Entity)) :=
  match anyEntities "add" arguments with
  | .error e => return .error e
  | .ok entities => do
    match ← remote.submit (entities.map fun e => ⟨.add, .entity e⟩) none with
    | .error e => return .error e
    | .ok result => return complete entities result.generated

/-- Allocates ids; a complete key stands for its space. -/
def allocateIds (remote : Remote σ) (arguments : List Datum) : StateM σ (Except Error (List Key)) :=
  remote.allocateIds (arguments.map fun
    | .key (.complete k) => .key (.incomplete k.toPartialKey)
    | d => d)

def newTransaction (remote : Remote σ) : StateM σ Transaction := do
  return .start (← remote.beginTransaction)

end EntityStore.Client
