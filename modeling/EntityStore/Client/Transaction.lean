import EntityStore.Client.Results

set_option autoImplicit false

namespace EntityStore

structure Transaction where
  handle : Handle
  state : TransactionState
  mutations : List Mutation
  /-- Whether mutations may still be staged, as for any writer; calls go by the state. -/
  active : Bool

namespace Transaction

variable {σ : Type}

/-- A transaction that has just begun. -/
def start (handle : Handle) : Transaction := ⟨handle, .active, [], true⟩

def check (t : Transaction) : Except Error Unit :=
  match t.state with
  | .active => .ok ()
  | state => .error (.finished state)

/-- Stages mutations of a kind for some data, after those staged before. -/
def stage (t : Transaction) (kind : MutationKind) (arguments : List Datum) :
    Except Error Transaction := do
  t.check
  let added ← Mutation.stage kind arguments
  return { t with mutations := t.mutations ++ added }

/-- Looks up entities under complete keys. -/
def getMany (remote : Remote σ) (t : Transaction) (arguments : List Datum) :
    StateM σ (Except Error (List (Option Entity))) := do
  match t.check with
  | .error e => return .error e
  | .ok () =>
    match completeKeys "get" arguments with
    | .error e => return .error e
    | .ok keys => remote.lookup keys (some t.handle)

/-- Runs a query. -/
def run (remote : Remote σ) (t : Transaction) (query : Query) :
    StateM σ (Except Error QueryResults) := do
  match t.check with
  | .error e => return .error e
  | .ok () => QueryResults.start remote query (some t.handle)

/-- Commits the staged mutations.  A store gives up a transaction whose commit it refuses. -/
def commit (remote : Remote σ) (t : Transaction) :
    StateM σ (Transaction × Except Error CommitResult) := do
  match t.check with
  | .error e => return (t, .error e)
  | .ok () =>
    let t := { t with active := false }
    match ← remote.submit t.mutations (some t.handle) with
    | .ok result => return ({ t with state := .committed }, .ok result)
    | .error e => return ({ t with state := .rolledBack }, .error e)

/-- Gives the transaction up, once; a committed one cannot be given up. -/
def rollback (remote : Remote σ) (t : Transaction) : StateM σ (Transaction × Except Error Unit) := do
  if t.state = .rolledBack then return (t, .ok ())
  match t.check with
  | .error e => return (t, .error e)
  | .ok () =>
    remote.rollback t.handle
    return ({ t with active := false, state := .rolledBack, mutations := [] }, .ok ())

/-- Ends a transaction that was used for some piece of work: it is committed if the work succeeded and
given up if it failed, unless it is at its end already. -/
def leave (remote : Remote σ) (t : Transaction) (outcome : Except Error Unit) :
    StateM σ (Transaction × Except Error Unit) := do
  if t.state ≠ .active then return (t, outcome)
  match outcome with
  | .ok () =>
    let (t, result) ← t.commit remote
    return (t, result.map fun _ => ())
  | .error e =>
    let (t, _) ← t.rollback remote
    return (t, .error e)

/-- Does a piece of work with a transaction and ends it. -/
def during (remote : Remote σ) (t : Transaction)
    (work : Transaction → StateM σ (Transaction × Except Error Unit)) :
    StateM σ (Transaction × Except Error Unit) := do
  let (t, outcome) ← work t
  t.leave remote outcome

end Transaction

end EntityStore
