import EntityStore.Proofs.Arguments
import EntityStore.Proofs.Equality
import EntityStore.Proofs.Lifecycle

set_option autoImplicit false

namespace EntityStore

/-- A call that was made to stage mutations, and whether it failed. -/
structure Attempt where
  kind : MutationKind
  arguments : List Datum
  answer : Except Error Unit

namespace Attempt

/-- What an attempt adds to the staged mutations: one for each argument if it is accepted, and otherwise nothing. -/
inductive Leaves : Attempt → List Mutation → Prop where
  | accepted {kind : MutationKind} {arguments : List Datum} {added : List Mutation}
      (each : List.Forall₂ (Mutation.StagedFor kind) arguments added) : Leaves ⟨kind, arguments, .ok ()⟩ added
  | refused (kind : MutationKind) (arguments : List Datum) (e : Error) : Leaves ⟨kind, arguments, .error e⟩ []

/-- What some attempts leave together, in their order. -/
def LeaveAll (attempts : List Attempt) (mutations : List Mutation) : Prop :=
  ∃ parts, List.Forall₂ Leaves attempts parts ∧ mutations = parts.flatten

theorem LeaveAll.nil : LeaveAll [] [] := ⟨[], .nil, rfl⟩

theorem Leaves.single {a : Attempt} {added : List Mutation} (leaves : a.Leaves added) : LeaveAll [a] added :=
  ⟨[added], .cons leaves .nil, (List.append_nil added).symm⟩

theorem LeaveAll.append {first second : List Attempt} {added further : List Mutation} (early : LeaveAll first added)
    (late : LeaveAll second further) : LeaveAll (first ++ second) (added ++ further) := by
  obtain ⟨parts, each, rfl⟩ := early
  obtain ⟨more, eachLater, rfl⟩ := late
  exact ⟨parts ++ more, List.rel_append each eachLater, List.flatten_append.symm⟩

/-- Every mutation that is staged was made for some datum. -/
theorem LeaveAll.staged {attempts : List Attempt} {mutations : List Mutation} (leave : LeaveAll attempts mutations) :
    ∀ m ∈ mutations, ∃ kind d, Mutation.StagedFor kind d m := by
  obtain ⟨parts, each, rfl⟩ := leave
  intro m member
  obtain ⟨part, inParts, here⟩ := List.mem_flatten.mp member
  obtain ⟨a, -, leaves⟩ := exists_mem_of_forall₂ each.flip inParts
  cases leaves with
  | accepted each =>
      obtain ⟨d, -, staged⟩ := exists_mem_of_forall₂ each.flip here
      exact ⟨_, d, staged⟩
  | refused => cases here

end Attempt

theorem Mutation.StagedFor.isStageable {kind : MutationKind} {d : Datum} {m : Mutation}
    (staged : StagedFor kind d m) : m.isStageable = true := by
  cases staged <;> rfl

theorem staged_of_made {mutations : List Mutation}
    (made : ∀ m ∈ mutations, ∃ kind d, Mutation.StagedFor kind d m) : Staged mutations := by
  rw [staged_iff]
  intro m member
  obtain ⟨_, _, staged⟩ := made m member
  exact staged.isStageable

/-- Mutations that no store finds malformed, whatever it holds: entities with complete keys are put and updated, and
complete keys are deleted. -/
structure WellFormed (mutations : List Mutation) : Prop where
  entities : ∀ m ∈ mutations, m.kind = .put ∨ m.kind = .update → ∃ e : Entity, m.subject = .entity (.keyed e)
  keys : ∀ m ∈ mutations, m.kind = .delete → ∃ k : Key, m.subject = .key (.complete k)
  valid : ∀ (s : Store) (handle? : Option Handle) (response : CommitResponse) (rejection : Rejection),
    (s.commit mutations handle?).1 = .ok response → response.rejection? = some rejection →
    rejection.code ≠ .invalidArgument
  complete : ∀ (s : Store) (handle? : Option Handle),
    (s.commit mutations handle?).1 ≠ .error (.failure .incompleteDelete)

theorem wellFormed_of_staged {mutations : List Mutation}
    (staged : ∀ m ∈ mutations, ∃ kind d, Mutation.StagedFor kind d m) : WellFormed mutations where
  entities m member kind := by
    obtain ⟨_, _, made⟩ := staged m member
    cases made with
    | added | deleted => simp at kind
    | put | updated => exact ⟨_, rfl⟩
  keys m member kind := by
    obtain ⟨_, _, made⟩ := staged m member
    cases made with
    | deleted k => exact ⟨k, rfl⟩
    | added | put | updated => cases kind
  valid s handle? response rejection answered rejected := by
    obtain ⟨other, next, committed, ends⟩ := s.commit_ends (staged_of_made staged) handle?
    rw [committed] at answered
    cases ends with
    | unknown | conflict =>
        cases answered
        cases rejected
        exact nofun
    | refused r counters clear grows unmet =>
        cases answered
        cases rejected
        rcases firstUnmet_code unmet with present | absent
        · rw [present]
          exact nofun
        · rw [absent]
          exact nofun
    | failed => cases answered
    | applied =>
        cases answered
        cases rejected
  complete s handle? := by
    have settles := s.settles_of_commit (staged_of_made staged) handle?
    generalize (s.commit mutations handle?).1 = response at settles
    cases settles <;> exact nofun

/-- What a call does that stages mutations: it stages one for each of its arguments, or one of them does not fit and
nothing changes. -/
inductive StagingCall {σ : Type} (kind : MutationKind) (arguments : List Datum) (before : σ)
    (staging : List Mutation → σ) : Except Error Unit → σ → Prop where
  | accepted {added : List Mutation} (each : List.Forall₂ (Mutation.StagedFor kind) arguments added) :
      StagingCall kind arguments before staging (.ok ()) (staging added)
  | unfit {e : Error} {d : Datum} (invalid : e.kind? = some .invalidArgument) (member : d ∈ arguments)
      (unfit : ∀ m, ¬ Mutation.StagedFor kind d m) : StagingCall kind arguments before staging (.error e) before

namespace StagingCall

variable {σ : Type} {kind : MutationKind} {arguments : List Datum} {before after : σ}
  {staging : List Mutation → σ} {answer : Except Error Unit}

/-- What such a call leaves stands behind what was staged before. -/
theorem leaves (call : StagingCall kind arguments before staging answer after) (staged : σ → List Mutation)
    (behind : ∀ added, staged (staging added) = staged before ++ added) :
    ∃ added, Attempt.LeaveAll [⟨kind, arguments, answer⟩] added ∧ staged after = staged before ++ added := by
  cases call with
  | accepted each => exact ⟨_, (Attempt.Leaves.accepted each).single, behind _⟩
  | unfit => exact ⟨[], (Attempt.Leaves.refused kind arguments _).single, (List.append_nil _).symm⟩

/-- What does not depend on the staged mutations is as it was. -/
theorem keeps {α : Type} (call : StagingCall kind arguments before staging answer after) (part : σ → α)
    (same : ∀ added, part (staging added) = part before) : part after = part before := by
  cases call with
  | accepted each => exact same _
  | unfit => rfl

end StagingCall

/-- A call on a batch. -/
inductive BatchCall where
  | stage (kind : MutationKind) (arguments : List Datum)
  | submit

/-- The attempt to stage mutations that a call is, if it is one. -/
def BatchCall.attempts (answer : Except Error Unit) : BatchCall → List Attempt
  | stage kind arguments => [⟨kind, arguments, answer⟩]
  | submit => []

/-- A call on a batch and whether it failed. -/
def Batch.perform (b : Batch) : BatchCall → StateM Store (Batch × Except Error Unit)
  | .stage kind arguments =>
    match b.stage kind arguments with
    | .error e => return (b, .error e)
    | .ok next => return (next, .ok ())
  | .submit => do
    let (next, result) ← b.submit Store.remote
    return (next, result.map fun _ => ())

/-- A batch that a client fills, and the store, which other clients use as well. -/
structure BatchUsage where
  batch : Batch
  store : Store

namespace BatchUsage

/-- What can happen next: a call on the batch, or a call of another client on the store. -/
inductive Step where
  | own (call : BatchCall)
  | other (request : Request)

/-- A client has an empty batch and a store that other clients have used. -/
def start (limits : StoreLimits) (requests : List Request) : BatchUsage := ⟨.empty, Store.reached limits requests⟩

def step (u : BatchUsage) : Step → BatchUsage
  | .own call =>
    let ((batch, _), store) := u.batch.perform call u.store
    ⟨batch, store⟩
  | .other request => { u with store := (u.store.perform request).2 }

def run (u : BatchUsage) (steps : List Step) : BatchUsage := steps.foldl step u

/-- The answer to a call on the batch. -/
def answer (u : BatchUsage) (call : BatchCall) : Except Error Unit := (u.batch.perform call u.store).1.2

/-- The attempts to stage mutations, in their order. -/
def attempts (u : BatchUsage) : List Step → List Attempt
  | [] => []
  | .own call :: rest => call.attempts (u.answer call) ++ (u.step (.own call)).attempts rest
  | .other request :: rest => (u.step (.other request)).attempts rest

/-- The calls that the store noted for those on the batch. -/
def sent (u : BatchUsage) : List Step → List StoreCall
  | [] => []
  | .own call :: rest =>
    (u.step (.own call)).store.calls.drop u.store.calls.length ++ (u.step (.own call)).sent rest
  | .other request :: rest => (u.step (.other request)).sent rest

/-- More mutations are staged. -/
def staging (u : BatchUsage) (added : List Mutation) : BatchUsage :=
  { u with batch := { u.batch with mutations := u.batch.mutations ++ added } }

variable {u : BatchUsage}

theorem stages (active : u.batch.active = true) (kind : MutationKind) (arguments : List Datum) :
    StagingCall kind arguments u u.staging (u.answer (.stage kind arguments))
      (u.step (.own (.stage kind arguments))) := by
  obtain ⟨⟨mutations, active⟩, s⟩ := u
  cases active
  have reads := Mutation.reads_stage kind arguments
  simp only [answer, step, Batch.perform, Batch.stage, Batch.check, ↓reduceIte, bind, Except.bind]
  generalize Mutation.stage kind arguments = result at reads
  cases reads with
  | read added each => exact .accepted each
  | unfit e invalid d member unfit => exact .unfit invalid member unfit

theorem submits (active : u.batch.active = true) :
    u.step (.own .submit) =
      ⟨{ u.batch with active := false }, (u.store.commit u.batch.mutations none).2⟩ := by
  obtain ⟨⟨mutations, active⟩, s⟩ := u
  cases active
  simp only [step, Batch.perform, Batch.submit, Batch.check, ↓reduceIte, bind, StateT.bind]
  rw [Store.submit_remote]
  rfl

theorem step_of_inactive (inactive : u.batch.active = false) (call : BatchCall) :
    u.step (.own call) = u ∧ u.answer call = .error (.inactive "Batch") := by
  obtain ⟨⟨mutations, active⟩, s⟩ := u
  cases inactive
  cases call <;> exact ⟨rfl, rfl⟩

/-- A call stages behind what was staged before. -/
theorem mutations_of_step (u : BatchUsage) (call : BatchCall) :
    ∃ added, Attempt.LeaveAll (call.attempts (u.answer call)) added ∧
      (u.step (.own call)).batch.mutations = u.batch.mutations ++ added := by
  cases active : u.batch.active with
  | false =>
      obtain ⟨same, answer⟩ := step_of_inactive active call
      rw [same, answer]
      refine ⟨[], ?_, (List.append_nil _).symm⟩
      cases call with
      | submit => exact .nil
      | stage kind arguments => exact (Attempt.Leaves.refused kind arguments _).single
  | true =>
      cases call with
      | submit =>
          rw [submits active]
          exact ⟨[], .nil, (List.append_nil _).symm⟩
      | stage kind arguments => exact (stages active kind arguments).leaves (·.batch.mutations) fun _ => rfl

/-- What is staged in a run stands behind what was staged before it. -/
theorem mutations_of_run (u : BatchUsage) (steps : List Step) :
    ∃ added, Attempt.LeaveAll (u.attempts steps) added ∧
      (u.run steps).batch.mutations = u.batch.mutations ++ added := by
  induction steps generalizing u with
  | nil => exact ⟨[], .nil, (List.append_nil _).symm⟩
  | cons first rest ih =>
      obtain ⟨later, leave, mutations⟩ := ih (u.step first)
      cases first with
      | other request => exact ⟨later, leave, mutations⟩
      | own call =>
          obtain ⟨added, leaves, staged⟩ := u.mutations_of_step call
          refine ⟨added ++ later, leaves.append leave, ?_⟩
          rw [← List.append_assoc, ← staged]
          exact mutations

theorem active_step_iff (u : BatchUsage) (first : Step) :
    (u.step first).batch.active = true ↔ u.batch.active = true ∧ first ≠ .own .submit := by
  cases first with
  | other request => simp [step]
  | own call =>
      cases active : u.batch.active with
      | false => simp [(step_of_inactive active call).1, active]
      | true =>
          cases call with
          | submit => simp [submits active]
          | stage kind arguments =>
              have kept := (stages active kind arguments).keeps (·.batch.active) fun _ => rfl
              simp [kept, active]

/-- A batch can be used until it is submitted. -/
theorem active_run_iff (u : BatchUsage) (steps : List Step) :
    (u.run steps).batch.active = true ↔ u.batch.active = true ∧ .own .submit ∉ steps := by
  induction steps generalizing u with
  | nil => simp [run]
  | cons first rest ih =>
      have later := ih (u.step first)
      rw [u.active_step_iff first, and_assoc] at later
      rw [List.mem_cons, not_or, ← ne_eq, ne_comm]
      exact later

/-- Calls on a batch that was submitted do not reach the store. -/
theorem sent_of_inactive (inactive : u.batch.active = false) (steps : List Step) : u.sent steps = [] := by
  induction steps generalizing u with
  | nil => rfl
  | cons first rest ih =>
      cases first with
      | other request => exact ih inactive
      | own call => rw [sent, (step_of_inactive inactive call).1, List.drop_length, ih inactive, List.append_nil]

/-- The only call that a batch makes is the commit by which it is submitted. -/
theorem sent_of_run (active : u.batch.active = true) (steps : List Step) :
    u.sent steps = if (u.run steps).batch.active then [] else [.commit] := by
  induction steps generalizing u with
  | nil => exact (if_pos active).symm
  | cons first rest ih =>
      show u.sent (first :: rest) = if ((u.step first).run rest).batch.active then [] else [.commit]
      cases first with
      | other request => exact ih active
      | own call =>
          have goesOn := u.active_step_iff (.own call)
          rw [sent]
          cases call with
          | submit =>
              -- From here on the batch is closed, so this commit stays the only call.
              have inactive : (u.step (.own .submit)).batch.active = false := by rw [submits active]
              have closed : ((u.step (.own .submit)).run rest).batch.active = false := by
                rw [← Bool.not_eq_true, active_run_iff]
                simp [inactive]
              rw [sent_of_inactive inactive, closed, submits active, Store.calls_of_commit, List.drop_left]
              rfl
          | stage kind arguments =>
              have activeNext := goesOn.mpr ⟨active, nofun⟩
              have store := (stages active kind arguments).keeps (·.store) fun _ => rfl
              rw [ih activeNext, store, List.drop_length, List.nil_append]

end BatchUsage

/-- The attempt to stage mutations that a call is, if it is one. -/
def TransactionCall.attempts (answer : Except Error Unit) : TransactionCall → List Attempt
  | stage kind arguments => [⟨kind, arguments, answer⟩]
  | _ => []

namespace Transaction

variable {t : Transaction}

theorem ended_of_commit (t : Transaction) (s : Store) : (t.commit Store.remote s).1.1.state ≠ .active := by
  intro running
  obtain ⟨h, state, mutations, active⟩ := t
  cases state with
  | committed | rolledBack => cases running
  | active =>
      simp only [commit, check, bind, StateT.bind] at running
      rcases answered : Store.remote.submit mutations (some h) s with ⟨result, after⟩
      rw [answered] at running
      cases result <;> cases running

theorem ended_of_rollback (t : Transaction) (s : Store) : (t.rollback Store.remote s).1.1.state ≠ .active := by
  intro running
  obtain ⟨h, state, mutations, active⟩ := t
  cases state <;> cases running

theorem ended_of_leave (running : t.state = .active) (outcome : Except Error Unit) (s : Store) :
    (t.leave Store.remote outcome s).1.1.state ≠ .active := by
  have live : ¬ t.state ≠ .active := fun ended => ended running
  cases outcome with
  | ok _ =>
      have ended := t.ended_of_commit s
      simp only [leave, live, ↓reduceIte, bind, StateT.bind]
      rcases committed : t.commit Store.remote s with ⟨⟨next, result⟩, after⟩
      rw [committed] at ended
      exact ended
  | error e =>
      have ended := t.ended_of_rollback s
      simp only [leave, live, ↓reduceIte, bind, StateT.bind]
      rcases rolledBack : t.rollback Store.remote s with ⟨⟨next, result⟩, after⟩
      rw [rolledBack] at ended
      exact ended

end Transaction

namespace Usage

/-- The attempts to stage mutations, in their order. -/
def attempts (u : Usage) : List Step → List Attempt
  | [] => []
  | .own call :: rest => call.attempts (u.answer call) ++ (u.step (.own call)).attempts rest
  | .other request :: rest => (u.step (.other request)).attempts rest

/-- More mutations are staged. -/
def staging (u : Usage) (added : List Mutation) : Usage :=
  { u with transaction := { u.transaction with mutations := u.transaction.mutations ++ added } }

variable {u : Usage}

theorem stages (running : u.transaction.state = .active) (kind : MutationKind) (arguments : List Datum) :
    StagingCall kind arguments u u.staging (u.answer (.stage kind arguments))
      (u.step (.own (.stage kind arguments))) := by
  obtain ⟨⟨h, state, mutations, active⟩, s⟩ := u
  cases running
  have reads := Mutation.reads_stage kind arguments
  simp only [answer, step, Transaction.perform, Transaction.stage, Transaction.check, bind, Except.bind]
  generalize Mutation.stage kind arguments = result at reads
  cases reads with
  | read added each => exact .accepted each
  | unfit e invalid d member unfit => exact .unfit invalid member unfit

/-- As long as a transaction goes on, only staging changes what is staged. -/
theorem mutations_of_step (running : u.transaction.state = .active) {call : TransactionCall}
    (goesOn : (u.step (.own call)).transaction.state = .active) :
    ∃ added, Attempt.LeaveAll (call.attempts (u.answer call)) added ∧
      (u.step (.own call)).transaction.mutations = u.transaction.mutations ++ added := by
  cases call with
  | stage kind arguments => exact (stages running kind arguments).leaves (·.transaction.mutations) fun _ => rfl
  | getMany | run => exact ⟨[], .nil, (List.append_nil _).symm⟩
  | commit => exact absurd goesOn (u.transaction.ended_of_commit u.store)
  | rollback => exact absurd goesOn (u.transaction.ended_of_rollback u.store)
  | leave outcome => exact absurd goesOn (Transaction.ended_of_leave running outcome u.store)

/-- What is staged while a transaction goes on stands behind what was staged before. -/
theorem mutations_of_run {steps : List Step} (goesOn : (u.run steps).transaction.state = .active) :
    ∃ added, Attempt.LeaveAll (u.attempts steps) added ∧
      (u.run steps).transaction.mutations = u.transaction.mutations ++ added := by
  induction steps generalizing u with
  | nil => exact ⟨[], .nil, (List.append_nil _).symm⟩
  | cons first rest ih =>
      have running (v : Usage) (steps : List Step) (goesOn : (v.run steps).transaction.state = .active) :
          v.transaction.state = .active := by
        by_contra ended
        rw [(run_of_ended ended steps).1] at goesOn
        exact ended goesOn
      rw [run_cons] at goesOn ⊢
      obtain ⟨later, leave, mutations⟩ := ih goesOn
      cases first with
      | other request => exact ⟨later, leave, mutations⟩
      | own call =>
          have here := running _ rest goesOn
          obtain ⟨added, leaves, staged⟩ := mutations_of_step (running u [.own call] here) here
          refine ⟨added ++ later, leaves.append leave, ?_⟩
          rw [← List.append_assoc, ← staged]
          exact mutations

end Usage

/-- What is staged are the mutations for the accepted calls, call by call and argument by argument.  A call that is
turned away changes nothing, and a batch is submitted once, in one call to the store. -/
theorem staged_in_order :
    (∀ (limits : StoreLimits) (requests : List Request) (steps : List BatchUsage.Step),
      let begun := BatchUsage.start limits requests
      let u := begun.run steps
      Attempt.LeaveAll (begun.attempts steps) u.batch.mutations ∧
        WellFormed u.batch.mutations ∧
        (u.batch.active = true ↔ .own .submit ∉ steps) ∧
        (u.batch.active = true → ∀ kind arguments, StagingCall kind arguments u u.staging
          (u.answer (.stage kind arguments)) (u.step (.own (.stage kind arguments)))) ∧
        (u.batch.active = false → ∀ call, u.step (.own call) = u ∧ u.answer call = .error (.inactive "Batch")) ∧
        (Error.inactive "Batch").kind? = some .failedPrecondition ∧
        begun.sent steps = if u.batch.active then [] else [.commit]) ∧
    ∀ (limits : StoreLimits) (requests : List Request) (steps : List Usage.Step),
      let begun := Usage.start limits requests
      let u := begun.run steps
      u.transaction.state = .active →
        Attempt.LeaveAll (begun.attempts steps) u.transaction.mutations ∧
        WellFormed u.transaction.mutations ∧
        ∀ kind arguments, StagingCall kind arguments u u.staging
          (u.answer (.stage kind arguments)) (u.step (.own (.stage kind arguments))) := by
  constructor
  · intro limits requests steps begun u
    obtain ⟨added, leave, mutations⟩ := begun.mutations_of_run steps
    have all : u.batch.mutations = added := mutations.trans (List.nil_append added)
    rw [all]
    have active := begun.active_run_iff steps
    refine ⟨leave, wellFormed_of_staged leave.staged, active.trans (and_iff_right rfl), BatchUsage.stages,
      BatchUsage.step_of_inactive, rfl, BatchUsage.sent_of_run rfl steps⟩
  · intro limits requests steps begun u goesOn
    obtain ⟨added, leave, mutations⟩ := Usage.mutations_of_run goesOn
    have all : u.transaction.mutations = added := mutations.trans (List.nil_append added)
    rw [all]
    exact ⟨leave, wellFormed_of_staged leave.staged, Usage.stages goesOn⟩

/-- A call with two arguments of which the second does not fit is made on a batch, which is submitted later, and on a
transaction that goes on. -/
theorem staged_in_order_beside_misfits :
    let key : Key := ⟨⟨⟨"app", by decide⟩, none, [], ⟨"Task", by decide⟩⟩, .id ⟨1, by decide⟩⟩
    let entity : Entity := ⟨.stored, key, []⟩
    let fits : Datum := .entity (.keyed entity)
    let steps : List BatchUsage.Step := [.own (.stage .put [fits]), .own (.stage .update [fits, .none]),
      .own (.stage .delete [.key (.complete key)]), .own .submit, .own (.stage .add [fits])]
    let begun := BatchUsage.start .standard []
    let u := begun.run steps
    let v := (Usage.start .standard []).run [.own (.stage .put [fits]), .own (.getMany [.key (.complete key)]),
      .own (.stage .update [fits, .none])]
    u.batch.mutations = [⟨.put, .entity (.keyed entity)⟩, ⟨.delete, .key (.complete key)⟩] ∧
      WellFormed u.batch.mutations ∧ begun.sent steps = [.commit] ∧
      (∀ call, u.step (.own call) = u ∧ u.answer call = .error (.inactive "Batch")) ∧
      v.transaction.mutations = [⟨.put, .entity (.keyed entity)⟩] ∧ WellFormed v.transaction.mutations := by
  intro key entity fits steps begun u v
  obtain ⟨-, wellFormed, -, -, closed, -, sent⟩ := staged_in_order.1 .standard [] steps
  obtain ⟨-, alsoWellFormed, -⟩ := staged_in_order.2 .standard []
    [.own (.stage .put [fits]), .own (.getMany [.key (.complete key)]), .own (.stage .update [fits, .none])] rfl
  exact ⟨rfl, wellFormed, sent.trans rfl, closed rfl, rfl, alsoWellFormed⟩

end EntityStore
