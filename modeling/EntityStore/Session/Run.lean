import EntityStore.Session.Basic

set_option autoImplicit false

namespace EntityStore.Session

open Act

variable {σ : Type}

/-- The answer of a step, and the place of the object that it results in. -/
abbrev Outcome := Reply × Option Nat

/-- An answer without an object. -/
def plainly (r : Reply) : Act σ Outcome := return (r, none)

/-- An answer about a new object. -/
def making (r : Reply) (o : Object) : Act σ Outcome := do return (r, some (← make o))

def storeStep (host : Host σ) (c : Command) : StoreOperation → Act σ Outcome
  | .commit => do
    let h ← handle? c
    plainly (.response (← tryStore (host.remote.commit c.mutations h)))
  | .query => do
    let q ← query c
    let h ← handle? c
    let token := match c.arguments with
      | [] => .none
      | .list parts :: _ => .tuple parts
      | d :: _ => d
    plainly (.page (← tryStore (host.remote.runQuery q h token)))
  | .lookup => do
    let h ← handle? c
    plainly (.allFound (← tryStore (host.lookup c.arguments h)))
  | .begin => do
    let h ← onStore host.remote.beginTransaction
    making (.handle h) (.handle h)
  | .rollback => do
    match ← handle? c with
    | some h =>
      onStore (host.remote.rollback h)
      plainly .nothing
    | none => fail (.failure .argumentType)
  | .allocate => do plainly (.keys (← tryStore (host.remote.allocateIds c.arguments)))
  | .count => do
    match host.count? (← current).store with
    | some n => plainly (.number n)
    | none => unsupported
  | .calls => do plainly (.calls (host.calls (← current).store))

/-- Offers a transaction to the coordinator and answers whether it was taken on. -/
def offer (transaction : Nat) : Act σ Bool := do
  if !(← current).coordinated then
    return (Coordinator.offer (none : Option (Coordinator Nat)) transaction).1
  let place ← make (.synchronization .empty transaction)
  let (taken, next?) := Coordinator.offer (some (← current).coordinator) place
  change fun s => { s with coordinator := next?.getD s.coordinator }
  return taken

def clientStep (host : Host σ) (c : Command) : ClientOperation → Act σ Outcome
  | .get => do
    let key ← argument c
    let found ← tryStore (Client.getMany host.remote [key])
    plainly (.found (found.head?.getD none))
  | .getMany => do plainly (.allFound (← tryStore (Client.getMany host.remote c.arguments)))
  | .write .add => do
    let added ← tryStore (Client.add host.remote c.arguments)
    plainly (.allFound (added.map some))
  | .write kind => do
    let _ ← tryStore (Client.write host.remote kind c.arguments)
    plainly .nothing
  | .allocateId => do
    let key ← argument c
    match ← tryStore (Client.allocateIds host.remote [key]) with
    | k :: _ => plainly (.key (.complete k))
    | [] => plainly .nothing
  | .allocateIds => do plainly (.keys (← tryStore (Client.allocateIds host.remote c.arguments)))
  | .run => do
    let q ← query c
    let r ← tryStore (Client.run host.remote q)
    making (.results r.resultType) (.results r)
  | .newBatch => making (.batch .empty) (.batch .empty)
  | .newTransaction => do
    let t ← onStore (Client.newTransaction host.remote)
    let place ← make (.transaction t)
    let _ ← offer place
    return (.transaction t, some place)
  | .newKeyFactory => making .done (.factory (.start host.dataset host.namespaceName))

/-- The work of putting entities, after which the transaction may be committed, and the work may be
given up. -/
def putting (host : Host σ) (c : Command) (t : Transaction) :
    StateM σ (Transaction × Except Error Unit) := do
  match t.stage .put c.arguments with
  | .error e => return (t, .error e)
  | .ok t =>
    let (t, outcome) ← if c.commits then t.commit host.remote else pure (t, .ok ⟨[]⟩)
    match outcome with
    | .error e => return (t, .error e)
    | .ok _ => return (t, if c.gives then .error (.failure .abandoned) else .ok ())

def batchStep (host : Host σ) (c : Command) (place : Nat) (b : Batch) :
    WriterOperation → Act σ Outcome
  | .stage kind => do
    let b ← ok (b.stage kind c.arguments)
    setObject place (.batch b)
    return (.batch b, some place)
  | .submit => do
    let (b, outcome) ← onStore (b.submit host.remote)
    setObject place (.batch b)
    plainly (.result (← ok outcome))
  | .state => plainly (.batch b)
  | .during => fail (.failure .argumentType)
  | _ => unsupported

def transactionStep (host : Host σ) (c : Command) (place : Nat) (t : Transaction) :
    WriterOperation → Act σ Outcome
  | .stage kind => do
    let t ← ok (t.stage kind c.arguments)
    setObject place (.transaction t)
    return (.transaction t, some place)
  | .commit => do plainly (.result (← onTransaction place (t.commit host.remote)))
  | .rollback => do
    onTransaction place (t.rollback host.remote)
    plainly .nothing
  | .get => do
    let key ← argument c
    let found ← tryStore (t.getMany host.remote [key])
    plainly (.found (found.head?.getD none))
  | .getMany => do plainly (.allFound (← tryStore (t.getMany host.remote c.arguments)))
  | .run => do
    let q ← query c
    let r ← tryStore (t.run host.remote q)
    making (.results r.resultType) (.results r)
  | .state => plainly (.transaction t)
  | .during => do
    onTransaction place (t.during host.remote (putting host c))
    plainly (.transaction (← transactionAt place))
  | .submit => unsupported

def writerStep (host : Host σ) (c : Command) (o : WriterOperation) : Act σ Outcome := do
  match ← target c with
  | (place, .batch b) => batchStep host c place b o
  | (place, .transaction t) => transactionStep host c place t o
  | _ => unsupported

/-- Changes a key factory. -/
def pointing (place : Nat) (f : KeyFactory) : Act σ Outcome := do
  setObject place (.factory f)
  return (.done, some place)

def factoryStep (host : Host σ) (c : Command) (o : FactoryOperation) : Act σ Outcome := do
  match ← target c with
  | (place, .factory f) =>
    match o with
    | .dataset => pointing place { f with dataset := ← argument c }
    | .space => pointing place { f with namespaceName := ← argument c }
    | .kind => pointing place { f with kind := ← argument c }
    | .ancestors => pointing place { f with ancestors := c.arguments }
    | .addAncestors => pointing place { f with ancestors := f.ancestors ++ c.arguments }
    | .newKey =>
      match c.arguments with
      | [] => plainly (.key (← ok (f.newKey .none)))
      | [d] => plainly (.key (← ok (f.newKey d)))
      | _ => fail (.failure .argumentType)
    | .allocateId =>
      match ← tryStore (f.allocate host.remote 1) with
      | k :: _ => plainly (.key (.complete k))
      | [] => plainly .nothing
    | .allocateIds =>
      let count ← argument c
      plainly (.keys (← tryStore (f.allocateIds host.remote count)))
  | _ => unsupported

/-- Reads rows, which moves the place in them. -/
def reading {α : Type} (place : Nat) (call : StateM σ (QueryResults × Except Error α)) :
    Act σ α := do
  let (r, outcome) ← onStore call
  setObject place (.results r)
  ok outcome

def resultsStep (host : Host σ) (c : Command) (o : ResultsOperation) : Act σ Outcome := do
  match ← target c with
  | (place, .results r) =>
    match o with
    | .hasNext => plainly (.truth (← reading place (r.hasNext host.remote)))
    | .next => plainly (.row (← reading place (r.next host.remote)))
    | .drain => plainly (.rows (← reading place (r.drain host.remote)))
    | .type => plainly (.results r.resultType)
  | _ => unsupported

/-- The synchronization that a step is about, its place, and the place of its transaction. -/
def synchronization (c : Command) : Act σ (Nat × Synchronization × Nat) := do
  match ← target c with
  | (place, .synchronization y transaction) => return (place, y, transaction)
  | _ => unsupported

/-- The number that a step gives first, zero if it gives none. -/
def ordinal (c : Command) : Int :=
  match c.arguments with
  | .int n :: _ => n
  | .bool b :: _ => if b then 1 else 0
  | _ => 0

/-- The item at a place; places below zero count from the end. -/
def itemAt? {α : Type} (items : List α) (place : Int) : Option α :=
  let place := if place < 0 then place + items.length else place
  if place < 0 then none else items[place.toNat]?

/-- The handle of the transaction that the synchronization at a place drives. -/
def handleDriven (place : Nat) : Act σ Handle := do
  match ← objectAt place with
  | .synchronization _ transaction => return (← transactionAt transaction).handle
  | _ => unsupported

def ambientStep (host : Host σ) (c : Command) : AmbientOperation → Act σ Outcome
  | .current => do plainly (.coordinated (← current).coordinated)
  | .install => do
    change fun s => { s with coordinated := true, coordinator := ⟨[]⟩ }
    plainly .nothing
  | .reset => do
    change fun s => { s with coordinated := false }
    plainly .nothing
  | .attach => do
    let (place, _) ← target c
    let _ ← transactionAt place
    plainly (.truth (← offer place))
  | .offered => do plainly (.handles (← (← current).coordinator.offered.mapM handleDriven))
  | .take => do
    match itemAt? (← current).coordinator.offered (ordinal c) with
    | some place => return (.done, some place)
    | none => throw .unset
  | .synchronize => do
    let (place, _) ← target c
    making .done (.synchronization .empty place)
  | .before => do
    let (place, y, transaction) ← synchronization c
    let (y, t, outcome) ← onStore (y.before host.remote (← transactionAt transaction))
    setObject place (.synchronization y transaction)
    setObject transaction (.transaction t)
    ok outcome
    plainly .nothing
  | .after => do
    let (_, y, transaction) ← synchronization c
    let t ← transactionAt transaction
    let committed := c.arguments.head?.any Datum.truth
    onTransaction transaction (y.after host.remote t committed)
    plainly .nothing
  | .result => do
    let (_, y, _) ← synchronization c
    match y.result? with
    | some r => plainly (.result r)
    | none => plainly .nothing
  | .isStore => plainly (.truth true)

def act (host : Host σ) (c : Command) : Act σ Outcome :=
  match c.operation with
  | .store o => storeStep host c o
  | .client o => clientStep host c o
  | .writer o => writerStep host c o
  | .factory o => factoryStep host c o
  | .results o => resultsStep host c o
  | .ambient o => ambientStep host c o

/-- Keeps the result of a step under a name. -/
def keep (s : Session σ) (name : String) (place? : Option Nat) : Session σ :=
  match place? with
  | some place => { s with names := s.names.put name place }
  | none =>
    { s with objects := s.objects ++ [.plain], names := s.names.put name s.objects.length }

/-- A session with a store in which nothing is named yet. -/
def start (store : σ) : Session σ := ⟨store, [], [], false, ⟨[]⟩⟩

/-- Runs a command.  A step that stops keeps no result. -/
def step (host : Host σ) (s : Session σ) (c : Command) : Reply × Session σ :=
  match (act host c).run s with
  | (.error .unset, s) => (.unset, s)
  | (.error (.failed e), s) => (.failed e, s)
  | (.ok (r, place?), s) =>
    match c.keepAs? with
    | some name => (r, s.keep name place?)
    | none => (r, s)

end EntityStore.Session
