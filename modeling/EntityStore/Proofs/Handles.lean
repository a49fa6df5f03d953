import EntityStore.Error.Report
import EntityStore.Proofs.Records
import Mathlib

set_option autoImplicit false

namespace EntityStore

/-- The kind of error that callers see. -/
def Error.kind? (e : Error) : Option ErrorKind := e.report?.map Report.kind

namespace Store

variable {s : Store} {h : Handle}

theorem handles_of_run (s : Store) (requests : List Request) :
    ∃ count, (s.run requests).2.begun = s.begun + count ∧
      (s.run requests).1.filterMap Event.begun? = (List.range' (s.begun + 1) count).map handle := by
  induction requests generalizing s with
  | nil => exact ⟨0, rfl, rfl⟩
  | cons request rest ih =>
      obtain ⟨first, begun, one⟩ := s.begun_of_perform request
      obtain ⟨more, last, others⟩ := ih (s.perform request).2
      have split : ((s.perform request).1 :: ((s.perform request).2.run rest).1).filterMap Event.begun? =
          (s.perform request).1.begun?.toList ++
            ((s.perform request).2.run rest).1.filterMap Event.begun? := by
        rw [List.filterMap_cons]
        cases (s.perform request).1.begun? <;> rfl
      refine ⟨first + more, ?_, ?_⟩
      · rw [run_cons, last, begun, Nat.add_assoc]
      · rw [run_cons, split, one, others, begun, ← List.map_append]
        congr 1
        rw [← List.range'_append_1]
        congr 2
        omega

theorem handles_distinct (s : Store) (requests : List Request) :
    ((s.run requests).1.filterMap Event.begun?).Nodup := by
  obtain ⟨count, -, handles⟩ := s.handles_of_run requests
  rw [handles]
  have injective : Function.Injective handle := fun _ _ => handle_injective
  have distinct : (List.range' (s.begun + 1) count).Nodup := List.nodup_range'
  exact distinct.map injective

/-- A handle that was given out has one of the numbers of the transactions begun so far. -/
theorem number_of_begun {requests : List Request}
    (issued : .beginTransaction h ∈ (s.run requests).1) : ∃ n, n ≤ (s.run requests).2.begun ∧ h = handle n := by
  obtain ⟨count, begun, handles⟩ := s.handles_of_run requests
  have listed : h ∈ (s.run requests).1.filterMap Event.begun? := List.mem_filterMap.mpr ⟨_, issued, rfl⟩
  rw [handles] at listed
  obtain ⟨n, within, same⟩ := List.mem_map.mp listed
  rw [List.mem_range'_1] at within
  exact ⟨n, by omega, same.symm⟩

/-- What a call does to a transaction that has begun and that it does not end. -/
theorem transactions_of_begun {n : Nat} (old : n ≤ s.begun) {request : Request}
    (unended : request.ends (handle n) = false) :
    (s.perform request).2.transactions.at? (handle n) =
      (s.transactions.at? (handle n)).map (·.after (handle n) (s.perform request).1) := by
  refine s.transactions_of_perform unended fun _ same => ?_
  have number := handle_injective same
  omega

/-- A handle that was given out and is not known is never known again. -/
theorem gone_of_perform {n : Nat} (old : n ≤ s.begun) (gone : s.transactions.at? (handle n) = none)
    (request : Request) : (s.perform request).2.transactions.at? (handle n) = none := by
  cases ended : request.ends (handle n) with
  | true => exact s.closed_of_perform ended
  | false => rw [transactions_of_begun old ended, gone, Option.map_none]

theorem gone_of_run {n : Nat} (old : n ≤ s.begun) (gone : s.transactions.at? (handle n) = none)
    (requests : List Request) : (s.run requests).2.transactions.at? (handle n) = none := by
  induction requests generalizing s with
  | nil => exact gone
  | cons request rest ih =>
      exact ih (Nat.le_trans old (s.begun_le_of_perform request)) (gone_of_perform old gone request)

theorem lookup_of_gone (gone : s.transactions.at? h = none) (keys : List Key) :
    s.lookup keys (some h) = (.error (.unknownTransaction h.text), s.noting .lookup) := by
  simp only [lookup, noting, gone]

/-- What is wrong with the text of a query comes first. -/
theorem runQuery_of_gone (gone : s.transactions.at? h = none) (query : Query) :
    s.runQuery query (some h) .none = (match query.toStructured with
      | .ok _ => .error (.unknownTransaction h.text)
      | .error e => .error e, s.noting .runQuery) := by
  have known : (s.noting .runQuery).transactions.at? h = none := gone
  cases structured : query.toStructured with
  | error e =>
      have executed : (s.noting .runQuery).execute query (some h) = .error e := by
        simp only [execute, structured]
        rfl
      exact runQuery_of_failed executed
  | ok q =>
      have executed : (s.noting .runQuery).execute query (some h) = .error (.unknownTransaction h.text) := by
        simp only [execute, structured, known]
        rfl
      exact runQuery_of_failed executed

/-- For the pages after the first one no handle is looked at. -/
theorem runQuery_of_page {token : Datum} (resumes : token ≠ .none) (s : Store) (query : Query)
    (handle? : Option Handle) : s.runQuery query handle? token = s.runQuery query none token := by
  cases token with
  | none => exact absurd rfl resumes
  | _ => rfl

theorem rollback_of_gone (gone : s.transactions.at? h = none) : s.rollback h = s.noting .rollback := by
  have same : s.transactions.remove h = s.transactions := Bindings.remove_of_at?_eq_none gone
  simp only [rollback, noting, same]

theorem commit_of_gone (gone : s.transactions.at? h = none) (mutations : List Mutation) :
    s.commit mutations (some h) =
      (.ok ⟨[], some ⟨.failedPrecondition, "Unknown or finished transaction"⟩⟩, s.noting .commit) := by
  simp only [commit, noting, gone]
  rfl

/-- Handles are used once.  After a commit or rollback has named a handle, it is refused for everything but the later
pages of a query, which are served to whoever has their token. -/
theorem refused_after_end (limits : StoreLimits) (requests : List Request) :
    (((empty limits).run requests).1.filterMap Event.begun?).Nodup ∧
    ∀ earlier ending later h, requests = earlier ++ ending :: later →
      .beginTransaction h ∈ ((empty limits).run earlier).1 → ending.ends h = true →
      let s := reached limits requests
      (∀ keys, s.lookup keys (some h) = (.error (.unknownTransaction h.text), s.noting .lookup)) ∧
      (∀ query, s.runQuery query (some h) .none = (match query.toStructured with
        | .ok _ => .error (.unknownTransaction h.text)
        | .error e => .error e, s.noting .runQuery)) ∧
      (Error.unknownTransaction h.text).kind? = some .failedPrecondition ∧
      (∀ query token, token ≠ .none → s.runQuery query (some h) token = s.runQuery query none token) ∧
      (∀ mutations, s.commit mutations (some h) =
        (.ok ⟨[], some ⟨.failedPrecondition, "Unknown or finished transaction"⟩⟩, s.noting .commit)) ∧
      s.rollback h = s.noting .rollback := by
  refine ⟨(empty limits).handles_distinct requests, ?_⟩
  rintro earlier ending later h rfl issued ended
  intro s
  have gone : s.transactions.at? h = none := by
    obtain ⟨n, old, rfl⟩ := number_of_begun issued
    have last : s = ((((empty limits).run earlier).2.perform ending).2.run later).2 :=
      (empty limits).run_append earlier (ending :: later)
    rw [last]
    have begun := ((empty limits).run earlier).2.begun_le_of_perform ending
    exact gone_of_run (Nat.le_trans old begun) (closed_of_perform _ ended) later
  exact ⟨lookup_of_gone gone, runQuery_of_gone gone, rfl, fun query _ resumes => runQuery_of_page resumes s query _,
    commit_of_gone gone, rollback_of_gone gone⟩

/-- The first transaction was rolled back and a second one has begun. -/
theorem refused_after_rollback :
    let requests : List Request := [.beginTransaction, .rollback (handle 1), .beginTransaction]
    let s := reached .standard requests
    requests = [.beginTransaction] ++ .rollback (handle 1) :: [.beginTransaction] ∧
      .beginTransaction (handle 1) ∈ ((empty .standard).run [.beginTransaction]).1 ∧
      (Request.rollback (handle 1)).ends (handle 1) = true ∧
      s.lookup [] (some (handle 1)) = (.error (.unknownTransaction "txn-1"), s.noting .lookup) ∧
      (s.lookup [] (some (handle 2))).1 = .ok [] := by
  intro requests s
  have issued : Event.beginTransaction (handle 1) ∈ ((empty .standard).run [.beginTransaction]).1 :=
    List.mem_singleton_self _
  have refused := (refused_after_end .standard requests).2 [.beginTransaction] (.rollback (handle 1))
    [.beginTransaction] (handle 1) rfl issued (by decide)
  exact ⟨rfl, issued, by decide, refused.1 [], by rfl⟩

/-- A transaction ran a query of two pages and was committed.  The second page is served under its handle. -/
theorem page_after_end :
    let key (n : EntityId) : Key := ⟨⟨⟨"app", by decide⟩, none, [], ⟨"Task", by decide⟩⟩, .id n⟩
    let first := key ⟨1, by decide⟩
    let second := key ⟨2, by decide⟩
    let query : Query := .structured ⟨.keyOnly, none, some "Task", none, [], [], [], none, 0⟩
    let earlier : List Request :=
      [.commit [⟨.put, .entity (.keyed ⟨.stored, first, []⟩)⟩,
        ⟨.put, .entity (.keyed ⟨.stored, second, []⟩)⟩] none,
        .beginTransaction, .runQuery query (some (handle 1)) .none]
    let ending : Request := .commit [] (some (handle 1))
    let s := reached ⟨1, 1, by decide, by decide⟩ (earlier ++ [ending])
    ending.ends (handle 1) = true ∧
      (s.runQuery query (some (handle 1)) (.tuple [.int 1, .int 1])).1.map QueryPage.results =
        .ok [.key (.complete second)] := by
  intro key first second query earlier ending s
  refine ⟨by decide, ?_⟩
  subst s ending earlier query second first key
  cbv

end Store

end EntityStore
