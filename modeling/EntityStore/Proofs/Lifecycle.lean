import EntityStore.Client.Basic
import EntityStore.Proofs.Generation
import EntityStore.Proofs.Handles

set_option autoImplicit false

namespace EntityStore

/-- A call on a transaction.  A single entity is looked up as a list of one key. -/
inductive TransactionCall where
  | stage (kind : MutationKind) (arguments : List Datum)
  | getMany (arguments : List Datum)
  | run (query : Query)
  | commit
  | rollback
  | leave (outcome : Except Error Unit)

/-- What a transaction answers that is over. -/
def TransactionCall.closing (state : TransactionState) : TransactionCall → Except Error Unit
  | rollback => if state = .rolledBack then .ok () else .error (.finished state)
  | leave outcome => outcome
  | _ => .error (.finished state)

/-- Whether a call of the store is the end of a transaction. -/
def StoreCall.ends : StoreCall → Bool
  | commit | rollback => true
  | _ => false

/-- Whether a call reads entities. -/
def Request.reads : Request → Bool
  | lookup .. | runQuery .. => true
  | _ => false

theorem Request.ends_of_reads {request : Request} (reads : request.reads = true) (h : Handle) :
    request.ends h = false := by
  cases request with
  | lookup | runQuery => rfl
  | commit | beginTransaction | rollback | allocateIds => cases reads

namespace Store

/-- Nothing was stored or deleted. -/
structure Untouched (s next : Store) : Prop where
  entities : next.entities = s.entities
  version : next.version = s.version
  versions : next.versions = s.versions

/-- Mutations were applied, each of them once and in their order. -/
def Applied (s : Store) (mutations : List Mutation) (next : Store) : Prop :=
  ∃ p, Progress.Applies (s.reserved mutations) s.progress mutations p ∧ next.entities = p.entities ∧
    next.version = s.version + 1

theorem untouched_of_read {s : Store} {request : Request} (reads : request.reads = true) :
    s.Untouched (s.perform request).2 ∧
      ∃ call, StoreCall.ends call = false ∧ (s.perform request).2.calls = s.calls ++ [call] := by
  cases request with
  | lookup keys handle? =>
      obtain ⟨transactions, frame⟩ := s.lookup_frame keys handle?
      show s.Untouched (s.lookup keys handle?).2 ∧ _
      refine ⟨?_, .lookup, rfl, congrArg Store.calls frame⟩
      rw [frame]
      exact ⟨rfl, rfl, rfl⟩
  | runQuery query handle? token =>
      obtain ⟨transactions, cursors, queried, frame⟩ := s.runQuery_frame query handle? token
      show s.Untouched (s.runQuery query handle? token).2 ∧ _
      refine ⟨?_, .runQuery, rfl, congrArg Store.calls frame⟩
      rw [frame]
      exact ⟨rfl, rfl, rfl⟩
  | commit | beginTransaction | rollback | allocateIds => cases reads

theorem untouched_of_rollback (s : Store) (h : Handle) : s.Untouched (s.rollback h) := ⟨rfl, rfl, rfl⟩

/-- A commit for a transaction applies all its mutations or none. -/
theorem applied_or_untouched (s : Store) {mutations : List Mutation} (staged : Staged mutations) (h : Handle) :
    (s.commit mutations (some h)).2.calls = s.calls ++ [.commit] ∧
      (∀ made, (s.commit mutations (some h)).1 = .ok ⟨made, none⟩ →
        s.Applied mutations (s.commit mutations (some h)).2) ∧
      ((∀ made, (s.commit mutations (some h)).1 ≠ .ok ⟨made, none⟩) →
        s.Untouched (s.commit mutations (some h)).2) := by
  obtain ⟨response, next, committed, ends⟩ := s.commit_ends staged (some h)
  rw [committed]
  cases ends with
  | unknown => exact ⟨rfl, nofun, fun _ => ⟨rfl, rfl, rfl⟩⟩
  | conflict => exact ⟨rfl, nofun, fun _ => ⟨rfl, rfl, rfl⟩⟩
  | refused => exact ⟨rfl, nofun, fun _ => ⟨rfl, rfl, rfl⟩⟩
  | failed => exact ⟨rfl, nofun, fun _ => ⟨rfl, rfl, rfl⟩⟩
  | applied p made written clear met adds applied =>
      exact ⟨rfl, fun _ _ => ⟨p, applied, rfl, rfl⟩, fun rejected => absurd rfl (rejected made)⟩

/-- A client that commits staged mutations is told that this succeeded exactly if they were accepted. -/
theorem accepted_iff (s : Store) {mutations : List Mutation} (staged : Staged mutations) (h : Handle) :
    (∃ result, (remote.submit mutations (some h) s).1 = .ok result) ↔
      ∃ made, (s.commit mutations (some h)).1 = .ok ⟨made, none⟩ := by
  have counted := (s.generates_of_submit staged (some h)).counted
  rw [submit_remote] at counted ⊢
  dsimp only at counted ⊢
  cases answered : (s.commit mutations (some h)).1 with
  | error e => exact ⟨nofun, nofun⟩
  | ok response =>
      rw [answered] at counted
      obtain ⟨made, rejection?⟩ := response
      cases rejection? with
      | some rejection => exact ⟨nofun, nofun⟩
      | none =>
          refine ⟨fun _ => ⟨made, rfl⟩, fun _ => ⟨⟨made⟩, if_pos ?_⟩⟩
          by_contra different
          exact counted _ _ (if_neg different)

end Store

namespace Transaction

/-- A call on a transaction and whether it failed.  What was read is left out. -/
def perform (t : Transaction) : TransactionCall → StateM Store (Transaction × Except Error Unit)
  | .stage kind arguments =>
    match t.stage kind arguments with
    | .error e => return (t, .error e)
    | .ok next => return (next, .ok ())
  | .getMany arguments => do return (t, (← t.getMany Store.remote arguments).map fun _ => ())
  | .run query => do return (t, (← t.run Store.remote query).map fun _ => ())
  | .commit => do
    let (next, result) ← t.commit Store.remote
    return (next, result.map fun _ => ())
  | .rollback => t.rollback Store.remote
  | .leave outcome => t.leave Store.remote outcome

/-- What a call on an active transaction does. -/
inductive Acts (t : Transaction) (s : Store) : Transaction → Store → Prop where
  | stages (mutations : List Mutation) (staged : Staged mutations) : Acts t s { t with mutations } s
  | reads (request : Request) (reads : request.reads = true) : Acts t s t (s.perform request).2
  | commits (made : List Key) (accepted : (s.commit t.mutations (some t.handle)).1 = .ok ⟨made, none⟩) :
      Acts t s { t with state := .committed, active := false } (s.commit t.mutations (some t.handle)).2
  | fails (rejected : ∀ made, (s.commit t.mutations (some t.handle)).1 ≠ .ok ⟨made, none⟩) :
      Acts t s { t with state := .rolledBack, active := false } (s.commit t.mutations (some t.handle)).2
  | givesUp : Acts t s { t with state := .rolledBack, active := false, mutations := [] } (s.rollback t.handle)

variable {t : Transaction}

theorem acts_of_commit (running : t.state = .active) (staged : Staged t.mutations) (s : Store) :
    ∃ next result after, t.commit Store.remote s = ((next, result), after) ∧ t.Acts s next after := by
  obtain ⟨h, state, mutations, active⟩ := t
  cases running
  have accepted := s.accepted_iff staged h
  have store := congrArg Prod.snd (s.submit_remote mutations (some h))
  simp only [commit, check, bind, StateT.bind]
  rcases answered : Store.remote.submit mutations (some h) s with ⟨result, after⟩
  rw [answered] at accepted store
  cases store
  cases result with
  | ok result =>
      obtain ⟨made, answer⟩ := accepted.mp ⟨result, rfl⟩
      exact ⟨_, _, _, rfl, Acts.commits made answer⟩
  | error e =>
      have rejected : ∀ made, (s.commit mutations (some h)).1 ≠ .ok ⟨made, none⟩ := fun made answer => by
        obtain ⟨result, succeeded⟩ := accepted.mpr ⟨made, answer⟩
        cases succeeded
      exact ⟨_, _, _, rfl, Acts.fails rejected⟩

theorem acts_of_rollback (running : t.state = .active) (s : Store) :
    ∃ next result after, t.rollback Store.remote s = ((next, result), after) ∧ t.Acts s next after := by
  obtain ⟨h, state, mutations, active⟩ := t
  cases running
  exact ⟨_, _, _, rfl, Acts.givesUp⟩

/-- A transaction that is left is committed or rolled back. -/
theorem acts_of_leave (running : t.state = .active) (staged : Staged t.mutations) (outcome : Except Error Unit)
    (s : Store) : ∃ next answer after, t.leave Store.remote outcome s = ((next, answer), after) ∧
      t.Acts s next after := by
  have live : ¬ t.state ≠ .active := fun ended => ended running
  cases outcome with
  | ok _ =>
      obtain ⟨next, result, after, committed, acts⟩ := acts_of_commit running staged s
      simp only [leave, live, ↓reduceIte, bind, StateT.bind, committed]
      exact ⟨_, _, _, rfl, acts⟩
  | error e =>
      obtain ⟨next, result, after, rolledBack, acts⟩ := acts_of_rollback running s
      simp only [leave, live, ↓reduceIte, bind, StateT.bind, rolledBack]
      exact ⟨_, _, _, rfl, acts⟩

theorem acts_of_perform (running : t.state = .active) (staged : Staged t.mutations) (call : TransactionCall)
    (s : Store) : ∃ next answer after, t.perform call s = ((next, answer), after) ∧ t.Acts s next after := by
  have commits := acts_of_commit running staged s
  have givesUp := acts_of_rollback running s
  have leaves (outcome : Except Error Unit) := acts_of_leave running staged outcome s
  obtain ⟨h, state, mutations, active⟩ := t
  cases running
  cases call with
  | stage kind arguments =>
      simp only [perform, stage, check, bind, Except.bind]
      cases made : Mutation.stage kind arguments with
      | error e => exact ⟨_, _, _, rfl, Acts.stages mutations staged⟩
      | ok added => exact ⟨_, _, _, rfl, Acts.stages _ (Staged.call kind arguments staged made)⟩
  | getMany arguments =>
      simp only [perform, getMany, check, bind, StateT.bind]
      cases completeKeys "get" arguments with
      | error e => exact ⟨_, _, _, rfl, Acts.stages mutations staged⟩
      | ok keys => exact ⟨_, _, _, rfl, Acts.reads (.lookup keys (some h)) rfl⟩
  | run query =>
      simp only [perform, run, check, QueryResults.start, bind, StateT.bind]
      have asked : Store.remote.runQuery query (some h) .none s = s.runQuery query (some h) .none := rfl
      rcases answered : s.runQuery query (some h) .none with ⟨page, after⟩
      have store : (s.perform (.runQuery query (some h) .none)).2 = after := congrArg Prod.snd answered
      simp only [asked, answered]
      cases page with
      | error e => exact ⟨_, _, _, rfl, store ▸ Acts.reads _ rfl⟩
      | ok page => exact ⟨_, _, _, rfl, store ▸ Acts.reads _ rfl⟩
  | commit =>
      obtain ⟨next, result, after, committed, acts⟩ := commits
      simp only [perform, bind, StateT.bind, committed]
      exact ⟨_, _, _, rfl, acts⟩
  | rollback => exact givesUp
  | leave outcome => exact leaves outcome

/-- A call on a transaction that is over changes nothing. -/
theorem perform_of_ended (ended : t.state ≠ .active) (call : TransactionCall) (s : Store) :
    t.perform call s = ((t, call.closing t.state), s) := by
  obtain ⟨h, state, mutations, active⟩ := t
  cases state with
  | active => exact absurd rfl ended
  | committed => cases call <;> rfl
  | rolledBack => cases call <;> rfl

end Transaction

/-- A transaction that a client uses, and the store, which other clients use as well. -/
structure Usage where
  transaction : Transaction
  store : Store

namespace Usage

/-- What can happen next: a call on the transaction, or a call of another client on the store. -/
inductive Step where
  | own (call : TransactionCall)
  | other (request : Request)

/-- A client begins a transaction on a store that other clients have used. -/
def start (limits : StoreLimits) (requests : List Request) : Usage :=
  let (transaction, store) := Client.newTransaction Store.remote (Store.reached limits requests)
  ⟨transaction, store⟩

def step (u : Usage) : Step → Usage
  | .own call =>
    let ((transaction, _), store) := u.transaction.perform call u.store
    ⟨transaction, store⟩
  | .other request => { u with store := (u.store.perform request).2 }

def run (u : Usage) (steps : List Step) : Usage := steps.foldl step u

/-- The answer to a call on the transaction. -/
def answer (u : Usage) (call : TransactionCall) : Except Error Unit := (u.transaction.perform call u.store).1.2

/-- The calls on the transaction, each with the state before it. -/
def calls (u : Usage) : List Step → List (Usage × TransactionCall)
  | [] => []
  | .own call :: rest => (u, call) :: (u.step (.own call)).calls rest
  | .other request :: rest => (u.step (.other request)).calls rest

/-- The calls that the store noted for one on the transaction. -/
def sent (u : Usage) (call : TransactionCall) : List StoreCall :=
  (u.step (.own call)).store.calls.drop u.store.calls.length

/-- The number of commits and rollbacks that calls on the transaction made. -/
def ends (calls : List (Usage × TransactionCall)) : Nat :=
  (calls.flatMap fun c => c.1.sent c.2).countP StoreCall.ends

/-- A call on the transaction stores and deletes nothing. -/
def Spares (c : Usage × TransactionCall) : Prop := c.1.store.Untouched (c.1.step (.own c.2)).store

/-- What the calls on a transaction have done so far: nothing, or one of them has ended it, and none but a commit
that succeeded has stored or deleted anything. -/
inductive Lived (t : Transaction) (calls : List (Usage × TransactionCall)) : Prop where
  | active (state : t.state = .active) (active : t.active = true) (spared : ∀ c ∈ calls, Spares c)
      (unended : ends calls = 0)
  | committed (state : t.state = .committed) (inactive : t.active = false)
      (before after : List (Usage × TransactionCall)) (u : Usage) (call : TransactionCall)
      (split : calls = before ++ (u, call) :: after)
      (applied : u.store.Applied t.mutations (u.step (.own call)).store)
      (spared : ∀ c ∈ before ++ after, Spares c) (ended : ends calls = 1)
  | rolledBack (state : t.state = .rolledBack) (inactive : t.active = false) (spared : ∀ c ∈ calls, Spares c)
      (ended : ends calls = 1)

variable {u : Usage} {t : Transaction} {calls : List (Usage × TransactionCall)}

theorem run_cons (u : Usage) (first : Step) (rest : List Step) :
    u.run (first :: rest) = (u.step first).run rest := rfl

theorem calls_own (u : Usage) (call : TransactionCall) (rest : List Step) :
    u.calls (.own call :: rest) = (u, call) :: (u.step (.own call)).calls rest := rfl

theorem calls_other (u : Usage) (request : Request) (rest : List Step) :
    u.calls (.other request :: rest) = (u.step (.other request)).calls rest := rfl

theorem transaction_other (u : Usage) (request : Request) :
    (u.step (.other request)).transaction = u.transaction := rfl

theorem step_of_performed {call : TransactionCall} {next : Transaction} {answer : Except Error Unit}
    {after : Store} (performed : u.transaction.perform call u.store = ((next, answer), after)) :
    u.step (.own call) = ⟨next, after⟩ := by
  simp only [step, performed]

theorem step_of_ended (ended : u.transaction.state ≠ .active) (call : TransactionCall) :
    u.step (.own call) = u ∧ u.answer call = call.closing u.transaction.state := by
  have performed := Transaction.perform_of_ended ended call u.store
  exact ⟨step_of_performed performed, by rw [answer, performed]⟩

theorem ends_cons (u : Usage) (call : TransactionCall) (later : List (Usage × TransactionCall)) :
    ends ((u, call) :: later) = (u.sent call).countP StoreCall.ends + ends later := by
  rw [ends, List.flatMap_cons, List.countP_append, ends]

/-- The calls that the store notes are those that were added to its notes. -/
theorem sent_eq {call : TransactionCall} {noted : List StoreCall}
    (appended : (u.step (.own call)).store.calls = u.store.calls ++ noted) : u.sent call = noted := by
  rw [sent, appended, List.drop_left]

/-- A transaction that is over stays as it is, whatever is called. -/
theorem run_of_ended (ended : u.transaction.state ≠ .active) (steps : List Step) :
    (u.run steps).transaction = u.transaction ∧ (∀ c ∈ u.calls steps, Spares c) ∧ ends (u.calls steps) = 0 := by
  induction steps generalizing u with
  | nil => exact ⟨rfl, List.forall_mem_nil Spares, rfl⟩
  | cons first rest ih =>
      cases first with
      | other request =>
          rw [run_cons, calls_other, ← u.transaction_other request]
          exact ih ended
      | own call =>
          have same := (step_of_ended ended call).1
          have nothing : u.sent call = [] := sent_eq (by rw [same, List.append_nil])
          have spared : Spares (u, call) := by
            show u.store.Untouched (u.step (.own call)).store
            rw [same]
            exact ⟨rfl, rfl, rfl⟩
          obtain ⟨kept, sparedLater, none⟩ := ih ended
          rw [run_cons, calls_own, same]
          refine ⟨kept, List.forall_mem_cons.mpr ⟨spared, sparedLater⟩, ?_⟩
          rw [ends_cons, nothing, none]
          rfl

/-- What a call on an active transaction means for its client: it goes on, it is committed, or it is given up. -/
inductive Turns (u : Usage) (call : TransactionCall) (next : Usage) : Prop where
  | goesOn (running : next.transaction.state = .active) (active : next.transaction.active = true)
      (staged : Staged next.transaction.mutations) (spared : Spares (u, call))
      (unended : (u.sent call).countP StoreCall.ends = 0)
  | commits (state : next.transaction.state = .committed) (inactive : next.transaction.active = false)
      (applied : u.store.Applied next.transaction.mutations next.store)
      (ended : (u.sent call).countP StoreCall.ends = 1)
  | givesUp (state : next.transaction.state = .rolledBack) (inactive : next.transaction.active = false)
      (spared : Spares (u, call)) (ended : (u.sent call).countP StoreCall.ends = 1)

theorem turns_of_running (running : u.transaction.state = .active) (active : u.transaction.active = true)
    (staged : Staged u.transaction.mutations) (call : TransactionCall) :
    u.Turns call (u.step (.own call)) := by
  obtain ⟨next, answer, after, performed, acts⟩ := Transaction.acts_of_perform running staged call u.store
  have stepped : u.step (.own call) = ⟨next, after⟩ := step_of_performed performed
  have spares (untouched : u.store.Untouched after) : Spares (u, call) := by
    show u.store.Untouched (u.step (.own call)).store
    rw [stepped]
    exact untouched
  have count (noted : List StoreCall) (notes : after.calls = u.store.calls ++ noted) :
      (u.sent call).countP StoreCall.ends = noted.countP StoreCall.ends := by
    rw [sent_eq (by rw [stepped, notes])]
  obtain ⟨committing, applied, untouched⟩ := u.store.applied_or_untouched staged u.transaction.handle
  rw [stepped]
  cases acts with
  | stages mutations stagedNext =>
      have unended := count [] (List.append_nil _).symm
      exact Turns.goesOn running active stagedNext (spares ⟨rfl, rfl, rfl⟩) unended
  | reads request reads =>
      obtain ⟨unwritten, noted, other, notes⟩ := Store.untouched_of_read (s := u.store) reads
      have unended := count [noted] notes
      rw [List.countP_singleton, other] at unended
      exact Turns.goesOn running active staged (spares unwritten) unended
  | commits made accepted => exact Turns.commits rfl rfl (applied made accepted) (count [.commit] committing)
  | fails rejected => exact Turns.givesUp rfl rfl (spares (untouched rejected)) (count [.commit] committing)
  | givesUp =>
      have spared := spares (u.store.untouched_of_rollback u.transaction.handle)
      exact Turns.givesUp rfl rfl spared (count [.rollback] rfl)

/-- A call after which the transaction goes on comes before all that happens later. -/
theorem Lived.cons (lived : Lived t calls) {call : TransactionCall} (spared : Spares (u, call))
    (unended : (u.sent call).countP StoreCall.ends = 0) : Lived t ((u, call) :: calls) := by
  have same : ends ((u, call) :: calls) = ends calls := by rw [ends_cons, unended, Nat.zero_add]
  cases lived with
  | active state active later none =>
      exact Lived.active state active (List.forall_mem_cons.mpr ⟨spared, later⟩) (same.trans none)
  | committed state inactive before after v last split applied later ended =>
      refine Lived.committed state inactive ((u, call) :: before) after v last (by rw [split, List.cons_append])
        applied ?_ (same.trans ended)
      exact List.forall_mem_cons.mpr ⟨spared, later⟩
  | rolledBack state inactive later ended =>
      exact Lived.rolledBack state inactive (List.forall_mem_cons.mpr ⟨spared, later⟩) (same.trans ended)

theorem lived_of_run (running : u.transaction.state = .active) (active : u.transaction.active = true)
    (staged : Staged u.transaction.mutations) (steps : List Step) :
    Lived (u.run steps).transaction (u.calls steps) := by
  induction steps generalizing u with
  | nil => exact Lived.active running active (List.forall_mem_nil Spares) rfl
  | cons first rest ih =>
      cases first with
      | other request =>
          rw [run_cons, calls_other]
          rw [← u.transaction_other request] at running active staged
          exact ih running active staged
      | own call =>
          -- Once the transaction is over, all later calls are idle.
          have closed (ended : (u.step (.own call)).transaction.state ≠ .active) := run_of_ended ended rest
          rw [run_cons, calls_own]
          cases turns_of_running running active staged call with
          | goesOn runningNext activeNext stagedNext spared unended =>
              exact (ih runningNext activeNext stagedNext).cons spared unended
          | commits state inactive applied ended =>
              obtain ⟨same, spared, none⟩ := closed (by rw [state]; decide)
              rw [same]
              refine Lived.committed state inactive [] _ u call rfl applied spared ?_
              rw [ends_cons, ended, none]
          | givesUp state inactive spared ended =>
              obtain ⟨same, sparedLater, none⟩ := closed (by rw [state]; decide)
              rw [same]
              refine Lived.rolledBack state inactive (List.forall_mem_cons.mpr ⟨spared, sparedLater⟩) ?_
              rw [ends_cons, ended, none]

/-- The store and the transaction with a number agree: its handle is not known once it is over. -/
structure Agrees (n : Nat) (u : Usage) : Prop where
  handle : u.transaction.handle = Store.handle n
  begun : n ≤ u.store.begun
  staged : Staged u.transaction.mutations
  gone : u.transaction.state ≠ .active → u.store.transactions.at? (Store.handle n) = none

namespace Agrees

variable {n : Nat}

theorem step (agrees : Agrees n u) (step : Step) : Agrees n (u.step step) := by
  obtain ⟨handle, begun, staged, gone⟩ := agrees
  cases step with
  | other request =>
      exact ⟨handle, Nat.le_trans begun (u.store.begun_le_of_perform request), staged, fun ended =>
        Store.gone_of_perform begun (gone ended) request⟩
  | own call =>
      by_cases running : u.transaction.state = .active
      · obtain ⟨next, answer, after, performed, acts⟩ :=
          Transaction.acts_of_perform running staged call u.store
        rw [step_of_performed performed]
        have later (request : Request) : n ≤ (u.store.perform request).2.begun :=
          Nat.le_trans begun (u.store.begun_le_of_perform request)
        have closed (request : Request) (ends : request.ends u.transaction.handle = true) :
            (u.store.perform request).2.transactions.at? (Store.handle n) = none :=
          handle ▸ u.store.closed_of_perform ends
        let commit := Request.commit u.transaction.mutations (some u.transaction.handle)
        let rollback := Request.rollback u.transaction.handle
        cases acts with
        | stages mutations stagedNext => exact ⟨handle, begun, stagedNext, fun ended => absurd running ended⟩
        | reads request reads => exact ⟨handle, later request, staged, fun ended => absurd running ended⟩
        | commits made accepted =>
            exact ⟨handle, later commit, staged, fun _ => closed commit (decide_eq_true rfl)⟩
        | fails rejected =>
            exact ⟨handle, later commit, staged, fun _ => closed commit (decide_eq_true rfl)⟩
        | givesUp =>
            exact ⟨handle, later rollback, Staged.empty, fun _ => closed rollback (decide_eq_true rfl)⟩
      · rw [(step_of_ended running call).1]
        exact ⟨handle, begun, staged, gone⟩

theorem run (agrees : Agrees n u) (steps : List Step) : Agrees n (u.run steps) := by
  induction steps generalizing u with
  | nil => exact agrees
  | cons first rest ih => exact ih (agrees.step first)

end Agrees

/-- The store knows the transaction with a number if it is active. -/
def Known (n : Nat) (u : Usage) : Prop :=
  u.transaction.state = .active → (u.store.transactions.at? (Store.handle n)).isSome = true

/-- Only another client can make the store forget an active transaction. -/
theorem Known.step {n : Nat} (known : Known n u) (agrees : Agrees n u) {step : Step}
    (unended : ∀ request, step = .other request → request.ends (Store.handle n) = false) :
    Known n (u.step step) := by
  have kept {request : Request} (goesOn : request.ends (Store.handle n) = false)
      (running : u.transaction.state = .active) :
      ((u.store.perform request).2.transactions.at? (Store.handle n)).isSome = true := by
    rw [Store.transactions_of_begun agrees.begun goesOn, Option.isSome_map, known running]
  cases step with
  | other request => exact fun running => kept (unended request rfl) running
  | own call =>
      by_cases running : u.transaction.state = .active
      · obtain ⟨next, answer, after, performed, acts⟩ :=
          Transaction.acts_of_perform running agrees.staged call u.store
        rw [step_of_performed performed]
        intro runningNext
        cases acts with
        | stages mutations staged => exact known running
        | reads request reads => exact kept (Request.ends_of_reads reads _) running
        | commits | fails | givesUp => cases runningNext
      · rw [(step_of_ended running call).1]
        exact known

theorem Known.run {n : Nat} (known : Known n u) (agrees : Agrees n u) {steps : List Step}
    (unended : ∀ request, .other request ∈ steps → request.ends (Store.handle n) = false) :
    Known n (u.run steps) := by
  induction steps generalizing u with
  | nil => exact known
  | cons first rest ih =>
      refine ih (known.step agrees fun request here => ?_) (agrees.step first) fun request later => ?_
      · exact unended request (here ▸ List.mem_cons_self)
      · exact unended request (List.mem_cons_of_mem _ later)

/-- A transaction among calls of other clients ends at most once, with the one commit or rollback that it makes.  When
it is over, calls on it are turned away without a change to it or to the store. -/
theorem ends_once (limits : StoreLimits) (requests : List Request) (steps : List Step) :
    let u := (start limits requests).run steps
    Lived u.transaction ((start limits requests).calls steps) ∧
      (u.transaction.active = true ↔ u.transaction.state = .active) ∧
      (∀ next, (u.step next).transaction.state ≠ u.transaction.state → u.transaction.state = .active) ∧
      (u.transaction.state ≠ .active → ∀ call, u.step (.own call) = u ∧
        u.answer call = call.closing u.transaction.state) ∧
      (∀ state, (Error.finished state).kind? = some .failedPrecondition) ∧
      (u.transaction.state ≠ .active → u.store.transactions.at? u.transaction.handle = none) ∧
      (u.transaction.state = .active →
        (∀ request, .other request ∈ steps → request.ends u.transaction.handle = false) →
        (u.store.transactions.at? u.transaction.handle).isSome = true) := by
  intro u
  let n := (Store.reached limits requests).begun + 1
  have lived : Lived u.transaction ((start limits requests).calls steps) :=
    lived_of_run rfl rfl Staged.empty steps
  have begins : Agrees n (start limits requests) := ⟨rfl, Nat.le_refl n, Staged.empty, fun ended => absurd rfl ended⟩
  have agrees : Agrees n u := begins.run steps
  have opened : Known n (start limits requests) := fun _ => by
    rw [show (start limits requests).store.transactions.at? (Store.handle n) = _ from Bindings.at?_put_self _ _ _]
    rfl
  refine ⟨lived, ?_, fun next moved => ?_, fun ended call => step_of_ended ended call, fun state => rfl, ?_, ?_⟩
  · cases lived with
    | active state active => simp [state, active]
    | committed state inactive => simp [state, inactive]
    | rolledBack state inactive => simp [state, inactive]
  · by_contra ended
    cases next with
    | other request => exact moved rfl
    | own call => exact moved (congrArg (·.transaction.state) (step_of_ended ended call).1)
  · rw [agrees.handle]
    exact agrees.gone
  · rw [agrees.handle]
    exact fun running unended => opened.run begins unended running

/-- A transaction puts an entity and is committed; then it is to be given up, which is refused. -/
theorem ends_once_by_commit :
    let key : Key := ⟨⟨⟨"app", by decide⟩, none, [], ⟨"Task", by decide⟩⟩, .id ⟨1, by decide⟩⟩
    let entity : Entity := ⟨.stored, key, []⟩
    let steps : List Step := [.own (.stage .put [.entity (.keyed entity)]), .other (.lookup [key] none),
      .own .commit, .own .rollback]
    let u := (start .standard []).run steps
    u.transaction.state = .committed ∧ u.store.entities = [(key, entity)] ∧
      u.store.calls = [.beginTransaction, .lookup, .commit] ∧
      ∀ call, u.step (.own call) = u ∧ u.answer call = call.closing .committed := by
  intro key entity steps u
  have state : u.transaction.state = .committed := by rfl
  have closed := (ends_once .standard [] steps).2.2.2.1 (by rw [state]; decide)
  refine ⟨state, by rfl, by rfl, fun call => ?_⟩
  obtain ⟨same, answer⟩ := closed call
  exact ⟨same, state ▸ answer⟩

end Usage

end EntityStore
