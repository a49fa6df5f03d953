import EntityStore.Session.Command
import EntityStore.Store.Memory
import EntityStore.Store.Script

set_option autoImplicit false

namespace EntityStore

/-- What a name in a session stands for. -/
inductive Object where
  | handle (h : Handle)
  | batch (b : Batch)
  | transaction (t : Transaction)
  | results (r : QueryResults)
  | factory (f : KeyFactory)
  /-- A synchronization and the place of the transaction that it drives. -/
  | synchronization (s : Synchronization) (transaction : Nat)
  | plain

structure Session (σ : Type) where
  store : σ
  objects : List Object
  names : Bindings String Nat
  /-- Whether transactions are offered to the coordinator. -/
  coordinated : Bool
  /-- The coordinator that was there last, with the places of its synchronizations. -/
  coordinator : Coordinator Nat

/-- A store as a session uses it. -/
structure Host (σ : Type) where
  remote : Remote σ
  /-- Looks up entities under keys that are not checked before. -/
  lookup : List Datum → Option Handle → StateM σ (Except Error (List (Option Entity)))
  /-- The number of entities, if the store can tell. -/
  count? : σ → Option Nat
  calls : σ → List StoreCall
  /-- The dataset and the namespace of new key factories. -/
  dataset : Datum
  namespaceName : Datum

namespace Host

/-- The store in memory. -/
def memory (dataset namespaceName : Datum) : Host Store where
  remote := Store.remote
  lookup keys handle? s :=
    match Key.checkAll keys with
    | .error e => (.error e, s)
    | .ok keys => s.lookup keys handle?
  count? s := some s.entityCount
  calls s := s.calls
  dataset := dataset
  namespaceName := namespaceName

/-- A scripted store. -/
def scripted (dataset namespaceName : Datum) : Host Script where
  remote := Script.remote
  lookup keys _ s := (.ok (keys.map fun _ => none), s.noting .lookup)
  count? _ := none
  calls s := s.calls
  dataset := dataset
  namespaceName := namespaceName

end Host

/-- Why a step ends early. -/
inductive Stop where
  | unset
  | failed (e : Error)

/-- What a step does: it either stops or goes on with a result, and leaves a state in both cases. -/
abbrev Act (σ α : Type) := ExceptT Stop (StateM (Session σ)) α

namespace Act

variable {σ α : Type}

def current : Act σ (Session σ) := ExceptT.lift get

def change (f : Session σ → Session σ) : Act σ Unit := ExceptT.lift (modify f)

def fail (e : Error) : Act σ α := throw (.failed e)

/-- Something is asked of an object that it does not have. -/
def unsupported : Act σ α := fail (.failure .unsupported)

def ok : Except Error α → Act σ α
  | .ok a => pure a
  | .error e => fail e

/-- Calls the store. -/
def onStore (call : StateM σ α) : Act σ α := do
  let s ← current
  let (a, store) := call s.store
  change fun s => { s with store }
  return a

/-- Calls the store, which may fail. -/
def tryStore (call : StateM σ (Except Error α)) : Act σ α := do ok (← onStore call)

/-- Makes an object and answers its place. -/
def make (o : Object) : Act σ Nat := do
  let s ← current
  change fun s => { s with objects := s.objects ++ [o] }
  return s.objects.length

def setObject (place : Nat) (o : Object) : Act σ Unit :=
  change fun s => { s with objects := s.objects.set place o }

def objectAt (place : Nat) : Act σ Object := do return ((← current).objects[place]?).getD .plain

/-- The object that a step is about, and its place. -/
def target (c : Command) : Act σ (Nat × Object) := do
  match c.target?.bind (← current).names.at? with
  | none => throw .unset
  | some place => return (place, ← objectAt place)

def transactionAt (place : Nat) : Act σ Transaction := do
  match ← objectAt place with
  | .transaction t => return t
  | _ => unsupported

/-- Calls the store for a transaction, which may change. -/
def onTransaction (place : Nat) (call : StateM σ (Transaction × Except Error α)) : Act σ α := do
  let (t, outcome) ← onStore call
  setObject place (.transaction t)
  ok outcome

/-- The handle that a step names, by the name of an object or by its text. -/
def handle? (c : Command) : Act σ (Option Handle) := do
  match c.transaction? with
  | none => return none
  | some name =>
    match (← current).names.at? name with
    | none => return some ⟨name⟩
    | some place =>
      match ← objectAt place with
      | .handle h => return some h
      | .transaction t => return some t.handle
      | _ => return some ⟨name⟩

def argument (c : Command) : Act σ Datum :=
  match c.arguments with
  | [d] => return d
  | _ => fail (.failure .argumentType)

def query (c : Command) : Act σ Query := ok c.query

end Act

end EntityStore
