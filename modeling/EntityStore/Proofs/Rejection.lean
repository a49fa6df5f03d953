import EntityStore.Proofs.Commit
import EntityStore.Proofs.Reads
import EntityStore.Session.Basic
import Mathlib

set_option autoImplicit false

namespace EntityStore

/-- A read with its arguments as a caller hands them in: the keys of a lookup are not checked yet, and a query asks for
its first page or for the one behind a token. -/
inductive Read where
  | lookup (keys : List Datum) (handle? : Option Handle)
  | query (query : Query) (handle? : Option Handle) (token : Datum)

/-- A store serves a read. -/
def Read.serve {σ : Type} (host : Host σ) : Read → StateM σ (Except Error (List (Option Entity) ⊕ QueryPage))
  | lookup keys handle? => do return (← host.lookup keys handle?).map Sum.inl
  | query q handle? token => do return (← host.remote.runQuery q handle? token).map Sum.inr

namespace Store

/-! ### Nothing looks at the list of calls -/

/-- The store with another list of calls. -/
def logging (s : Store) (calls : List StoreCall) : Store := { s with calls }

variable (s : Store) (calls : List StoreCall)

theorem noting_logging (call : StoreCall) :
    (s.logging calls).noting call = (s.noting call).logging (calls ++ [call]) := rfl

theorem lookup_logging (keys : List Key) (handle? : Option Handle) :
    (s.logging calls).lookup keys handle? =
      (s.lookup keys handle?).map id (·.logging (calls ++ [.lookup])) := by
  cases handle? with
  | none => rfl
  | some h => cases found : s.transactions.at? h <;> simp only [lookup, noting, logging, found] <;> rfl

theorem execute_logging (query : Query) (handle? : Option Handle) :
    (s.logging calls).execute query handle? = (s.execute query handle?).map (Prod.map id (·.logging calls)) := by
  unfold execute
  cases query.toStructured with
  | error e => rfl
  | ok q =>
      cases handle? with
      | none =>
          simp only [bind, Except.bind, logging]
          cases answer q s.entities <;> rfl
      | some h =>
          cases found : s.transactions.at? h with
          | none =>
              simp only [bind, Except.bind, logging, found]
              rfl
          | some t =>
              simp only [bind, Except.bind, logging, found]
              cases answer q t.snapshot <;> rfl

theorem serve_logging (number : Nat) (token : Datum) (cursor : Cursor) (start : Int) :
    (s.logging calls).serve number token cursor start =
      (s.serve number token cursor start).map id (·.logging calls) := by
  unfold serve
  dsimp only [logging]
  split <;> rfl

/-- What is served for a token after the unfinished query that it names was looked for. -/
def serveResumed (s : Store) (token : Datum) (resumed? : Option (Nat × Datum × Cursor × Datum)) :
    Except Error QueryPage × Store :=
  match resumed? with
  | none => (.error (CallFault.pageToken token.describe).error, s)
  | some (number, name, cursor, .int n) => (s.serve number name cursor n).map .ok id
  | some (number, name, cursor, .bool b) => (s.serve number name cursor (if b then 1 else 0)).map .ok id
  | some _ => (.error (.failure .argumentType), s)

theorem runQuery_of_resuming {token : Datum} (resumes : token ≠ .none) (query : Query) (handle? : Option Handle) :
    s.runQuery query handle? token =
      (s.noting .runQuery).serveResumed token ((s.noting .runQuery).resume? token) := by
  unfold runQuery
  dsimp only
  split
  · exact absurd rfl resumes
  · cases (s.noting .runQuery).resume? token with
    | none => rfl
    | some found =>
        obtain ⟨number, name, cursor, start⟩ := found
        cases start <;> rfl

theorem serveResumed_logging (token : Datum) (resumed? : Option (Nat × Datum × Cursor × Datum)) :
    (s.logging calls).serveResumed token resumed? =
      (s.serveResumed token resumed?).map id (·.logging calls) := by
  unfold serveResumed
  split
  · rfl
  · rw [serve_logging]
    rfl
  · rw [serve_logging]
    rfl
  · rfl

theorem runQuery_logging (query : Query) (handle? : Option Handle) (token : Datum) :
    (s.logging calls).runQuery query handle? token =
      (s.runQuery query handle? token).map id (·.logging (calls ++ [.runQuery])) := by
  by_cases first : token = .none
  · subst first
    have executes := (s.noting .runQuery).execute_logging (calls ++ [.runQuery]) query handle?
    simp only [runQuery, noting_logging, executes]
    cases (s.noting .runQuery).execute query handle? with
    | error e => rfl
    | ok found =>
        obtain ⟨cursor, next⟩ := found
        have served := (next.keep cursor).2.serve_logging (calls ++ [.runQuery]) (next.keep cursor).1
          (.int (next.keep cursor).1) cursor 0
        exact congrArg (Prod.map Except.ok id) served
  · rw [runQuery_of_resuming _ first, runQuery_of_resuming _ first, noting_logging]
    exact serveResumed_logging _ _ token _

theorem applyMutations_logging (mutations : List Mutation) :
    (s.logging calls).applyMutations mutations = (s.applyMutations mutations).map id (·.logging calls) := by
  unfold applyMutations
  dsimp only [logging]
  split
  · rfl
  · rfl
  · split <;> rfl

theorem commit_logging (mutations : List Mutation) (handle? : Option Handle) :
    (s.logging calls).commit mutations handle? =
      (s.commit mutations handle?).map id (·.logging (calls ++ [.commit])) := by
  cases handle? with
  | none => exact (s.noting .commit).applyMutations_logging (calls ++ [.commit]) mutations
  | some h =>
      cases found : s.transactions.at? h with
      | none =>
          rw [commit_of_unknown found, commit_of_unknown (s := s.logging calls) found]
          rfl
      | some t =>
          cases conflict : t.conflict? s mutations with
          | none =>
              rw [commit_of_clear found conflict, commit_of_clear (s := s.logging calls) found conflict]
              exact (s.closing (some h)).applyMutations_logging (calls ++ [.commit]) mutations
          | some k =>
              rw [commit_of_conflict found conflict, commit_of_conflict (s := s.logging calls) found conflict]
              rfl

/-- A call does the same whatever the calls before it are called. -/
theorem perform_logging (request : Request) :
    ∃ later, (s.logging calls).perform request = (s.perform request).map id (·.logging later) := by
  cases request with
  | lookup keys handle? =>
      refine ⟨calls ++ [.lookup], ?_⟩
      simp only [perform, lookup_logging]
      rfl
  | runQuery query handle? token =>
      refine ⟨calls ++ [.runQuery], ?_⟩
      simp only [perform, runQuery_logging]
      rfl
  | commit mutations handle? =>
      refine ⟨calls ++ [.commit], ?_⟩
      simp only [perform, commit_logging]
      rfl
  | beginTransaction => exact ⟨calls ++ [.beginTransaction], rfl⟩
  | rollback h => exact ⟨calls ++ [.rollback], rfl⟩
  | allocateIds keys =>
      simp only [perform, allocateIds]
      cases PartialKey.checkAll keys with
      | error e => exact ⟨calls, rfl⟩
      | ok spaces => exact ⟨calls ++ [.allocateIds], rfl⟩

theorem run_logging (requests : List Request) :
    ∃ later, (s.logging calls).run requests = (s.run requests).map id (·.logging later) := by
  induction requests generalizing s calls with
  | nil => exact ⟨calls, rfl⟩
  | cons request rest ih =>
      obtain ⟨noted, performed⟩ := s.perform_logging calls request
      obtain ⟨later, ran⟩ := ih (s.perform request).2 noted
      refine ⟨later, ?_⟩
      rw [run_cons, run_cons, performed]
      dsimp only [Prod.map]
      rw [ran]
      rfl

/-! ### Failing comes before every change -/

theorem lookup_of_failed {keys : List Key} {handle? : Option Handle} {e : Error}
    (failed : (s.lookup keys handle?).1 = .error e) : (s.lookup keys handle?).2 = s.noting .lookup := by
  cases seen : s.seen? handle? with
  | none =>
      obtain ⟨_, unanswered⟩ := lookup_of_unseen seen keys
      rw [unanswered]
  | some stored =>
      rw [lookup_of_seen seen] at failed
      cases failed

theorem runQuery_noted_of_failed {query : Query} {handle? : Option Handle} {token : Datum} {e : Error}
    (failed : (s.runQuery query handle? token).1 = .error e) :
    (s.runQuery query handle? token).2 = s.noting .runQuery := by
  by_cases first : token = .none
  · subst first
    obtain ⟨page, next, ran, queries⟩ := s.runQuery_queries query handle?
    rw [ran] at failed ⊢
    cases queries with
    | failed => rfl
    | answered => cases failed
  · rw [runQuery_of_resuming _ first] at failed ⊢
    unfold serveResumed at failed ⊢
    split at failed
    · rfl
    · cases failed
    · cases failed
    · rfl

theorem error_of_map {α β γ : Type} {f : α → β} {served : Except Error α × γ} {e : Error}
    (failed : (Prod.map (Except.map f) id served).1 = .error e) : served.1 = .error e := by
  obtain ⟨answer, after⟩ := served
  cases answer with
  | error other =>
      cases failed
      rfl
  | ok a => cases failed

/-- A read that fails leaves at most an entry in the list of calls. -/
theorem exists_logging_of_failed {dataset namespaceName : Datum} {read : Read} {e : Error}
    (failed : (read.serve (Host.memory dataset namespaceName) s).1 = .error e) :
    ∃ calls, (read.serve (Host.memory dataset namespaceName) s).2 = s.logging calls := by
  cases read with
  | lookup keys handle? =>
      have unanswered : ((Host.memory dataset namespaceName).lookup keys handle? s).1 = .error e := error_of_map failed
      show ∃ calls, ((Host.memory dataset namespaceName).lookup keys handle? s).2 = s.logging calls
      simp only [Host.memory] at unanswered ⊢
      cases checked : Key.checkAll keys with
      | error e => exact ⟨s.calls, rfl⟩
      | ok complete =>
          rw [checked] at unanswered
          exact ⟨s.calls ++ [StoreCall.lookup], s.lookup_of_failed unanswered⟩
  | query q handle? token =>
      have unanswered : (s.runQuery q handle? token).1 = .error e := error_of_map failed
      exact ⟨s.calls ++ [StoreCall.runQuery], s.runQuery_noted_of_failed unanswered⟩

/-- A read that fails changes nothing but the list of calls, so whatever is called later is answered as if it had not
been made. -/
theorem untraced_of_failed (dataset namespaceName : Datum) (read : Read) (s : Store) {e : Error}
    (failed : (read.serve (Host.memory dataset namespaceName) s).1 = .error e) :
    let after := (read.serve (Host.memory dataset namespaceName) s).2
    after = { s with calls := after.calls } ∧
      ∀ requests, (after.run requests).1 = (s.run requests).1 ∧
        (after.run requests).2 = { (s.run requests).2 with calls := (after.run requests).2.calls } := by
  obtain ⟨calls, left⟩ := s.exists_logging_of_failed failed
  intro after
  have same : after = s.logging calls := left
  rw [same]
  refine ⟨rfl, fun requests => ?_⟩
  obtain ⟨later, ran⟩ := s.run_logging calls requests
  rw [ran]
  exact ⟨rfl, rfl⟩

/-- A lookup of a key without an id, a lookup for a transaction that is not there, a query that compares with a list and
one for an unknown page, all beside a transaction that then commits. -/
theorem untraced_of_failed_beside_commit :
    let space : PartialKey := ⟨⟨"app", by decide⟩, none, [], ⟨"Task", by decide⟩⟩
    let key : Key := space.withIdentifier (.id ⟨1, by decide⟩)
    let write : Mutation := ⟨.put, .entity (.keyed ⟨.stored, key, []⟩)⟩
    let listed : Condition := .compare "tags" .equal (.list [] ⟨none, none⟩)
    let q : StructuredQuery := ⟨.full, none, none, some (.condition listed), [], [], [], none, 0⟩
    let s := reached .standard [.commit [write] none, .beginTransaction, .lookup [key] (some (handle 1))]
    let reads : List Read := [.lookup [.key (.incomplete space)] (some (handle 1)),
      .lookup [.key (.complete key)] (some (handle 2)), .query (.structured q) (some (handle 1)) .none,
      .query (.structured q) none (.tuple [.int 1, .int 50])]
    ∀ read ∈ reads, ∃ e after, read.serve (Host.memory .none .none) s = (.error e, after) ∧
      (after.commit [write] (some (handle 1))).1 = (s.commit [write] (some (handle 1))).1 := by
  intro space key write listed q s reads
  have answers : ∀ read : Read, (∃ e, (read.serve (Host.memory .none .none) s).1 = .error e) →
      ∃ e after, read.serve (Host.memory .none .none) s = (.error e, after) ∧
        (after.commit [write] (some (handle 1))).1 = (s.commit [write] (some (handle 1))).1 := by
    rintro read ⟨e, failed⟩
    obtain ⟨-, later⟩ := untraced_of_failed .none .none read s failed
    obtain ⟨same, -⟩ := later [.commit [write] (some (handle 1))]
    refine ⟨e, _, Prod.ext failed rfl, ?_⟩
    simpa [run_cons, run, perform] using same
  refine List.forall_mem_cons.mpr ⟨answers _ ⟨(CallFault.lookupKey (AnyKey.incomplete space).text).error, rfl⟩, ?_⟩
  refine List.forall_mem_cons.mpr ⟨answers _ ⟨.unknownTransaction (handle 2).text, ?_⟩, ?_⟩
  · subst s write key space
    cbv
  refine List.forall_mem_cons.mpr ⟨answers _ ⟨(QueryFault.filterValue "tags" .list).error, ?_⟩, ?_⟩
  · subst s q listed write key space
    cbv
  · refine List.forall_mem_singleton.mpr (answers _ ⟨(CallFault.pageToken "(1, 50)").error, ?_⟩)
    subst s q listed write key space
    cbv

end Store

end EntityStore
