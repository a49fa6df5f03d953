import EntityStore.Proofs.Changes

set_option autoImplicit false

namespace EntityStore

theorem Event.query?_of_token {token : Datum} (resumes : token ≠ .none) (h : Handle) (query : Query)
    (handle? : Option Handle) (page : Except Error QueryPage) :
    (Event.runQuery query handle? token page).query? h = none := by
  unfold query?
  split
  · next same =>
      cases same
      exact absurd rfl resumes
  · rfl

theorem OpenTransaction.foldl_after (h : Handle) (events : List Event) (t : OpenTransaction) :
    events.foldl (after h) t =
      (t.reading (events.flatMap (Event.reads h t.snapshot))).watching
        (events.flatMap (Event.scopes h)) := by
  induction events generalizing t with
  | nil => simp
  | cons e rest ih =>
      rw [List.foldl_cons, ih]
      simp [after, reading, watching]

namespace Store

theorem handle_injective {m n : Nat} (same : handle m = handle n) : m = n := by
  have texts : "txn-" ++ m.repr = "txn-" ++ n.repr := congrArg Handle.text same
  have numerals : m.repr = n.repr := (String.append_right_inj "txn-").mp texts
  have digits : Nat.toDigits 10 m = Nat.toDigits 10 n := by
    simpa only [Nat.toList_repr] using congrArg String.toList numerals
  have values := congrArg (fun digits => Nat.ofDigitChars 10 digits 0) digits
  simpa using values

/-- Every open transaction has the handle of a number that was given out. -/
def Numbered (s : Store) : Prop :=
  ∀ h t, s.transactions.at? h = some t → ∃ n, n ≤ s.begun ∧ h = handle n

theorem numbered_empty (limits : StoreLimits) : (empty limits).Numbered := nofun

/-- The next handle is not in use. -/
theorem Numbered.unused {s : Store} (numbered : s.Numbered) :
    s.transactions.at? (handle (s.begun + 1)) = none := by
  cases found : s.transactions.at? (handle (s.begun + 1)) with
  | none => rfl
  | some t =>
      obtain ⟨n, old, same⟩ := numbered _ t found
      have next := handle_injective same
      omega

theorem lookup_transactions (s : Store) (keys : List Key) (handle? : Option Handle) (h : Handle) :
    (s.lookup keys handle?).2.transactions.at? h =
      (s.transactions.at? h).map (·.after h (.lookup keys handle? (s.lookup keys handle?).1)) := by
  cases seen : s.seen? handle? with
  | none =>
      obtain ⟨e, failed⟩ := lookup_of_unseen seen keys
      rw [failed]
      exact (OpenTransaction.map_after_of_idle rfl rfl _).symm
  | some stored =>
      rw [lookup_of_seen seen, recording_transactions]
      refine Option.map_congr fun t _ => ?_
      by_cases own : handle? = some h
      · simp [own, OpenTransaction.after, Event.reads, Event.scopes, Event.lookedUp, Event.query?]
      · have idle : (Event.lookup keys handle? (.ok (keys.map stored.at?))).lookedUp h = [] := if_neg own
        rw [if_neg own]
        exact (OpenTransaction.after_of_idle idle rfl t).symm

theorem runQuery_transactions (s : Store) (query : Query) (handle? : Option Handle) (token : Datum)
    (h : Handle) :
    (s.runQuery query handle? token).2.transactions.at? h = (s.transactions.at? h).map
      (·.after h (.runQuery query handle? token (s.runQuery query handle? token).1)) := by
  by_cases first : token = .none
  · subst first
    obtain ⟨page, next, ran, queries⟩ := s.runQuery_queries query handle?
    rw [ran]
    cases queries with
    | failed e rowless => exact (OpenTransaction.map_after_of_idle rfl rfl _).symm
    | answered q stored cursor cursors queried structured seen answered =>
        refine ((s.noting .runQuery).recording_transactions handle? _ q.scopes h).trans ?_
        refine Option.map_congr fun t found => ?_
        by_cases own : handle? = some h
        · subst own
          have snapshot : t.snapshot = stored := by
            have opened : s.transactions.at? h = some t := found
            simpa only [seen?, opened, Option.map_some, Option.some.injEq] using seen
          simp [OpenTransaction.after, Event.reads, Event.scopes, Event.lookedUp, Event.query?, structured,
            snapshot, Except.toOption]
        · have idle : (Event.runQuery query handle? .none
              (.ok (firstPage s.limits (s.queried + 1) cursor))).query? h = none := if_neg own
          rw [if_neg own]
          exact (OpenTransaction.after_of_idle rfl idle t).symm
  · obtain ⟨cursors, resumed⟩ := runQuery_of_token first s query handle?
    rw [resumed]
    exact (OpenTransaction.map_after_of_idle rfl (Event.query?_of_token first h query handle? _) _).symm

theorem applyMutations_transactions (s : Store) (mutations : List Mutation) :
    (s.applyMutations mutations).2.transactions = s.transactions ∧
      (s.applyMutations mutations).2.begun = s.begun := by
  unfold applyMutations
  dsimp only
  split
  · exact ⟨rfl, rfl⟩
  · exact ⟨rfl, rfl⟩
  · split
    · exact ⟨rfl, rfl⟩
    · exact ⟨rfl, rfl⟩

/-- A commit ends the transaction that it names, whatever comes of it. -/
theorem commit_transactions (s : Store) (mutations : List Mutation) (handle? : Option Handle) :
    (s.commit mutations handle?).2.transactions = handle?.elim s.transactions s.transactions.remove ∧
      (s.commit mutations handle?).2.begun = s.begun := by
  have applied := (s.closing handle?).applyMutations_transactions mutations
  cases handle? with
  | none => exact applied
  | some h =>
      cases found : s.transactions.at? h with
      | none =>
          rw [commit_of_unknown found]
          exact ⟨rfl, rfl⟩
      | some t =>
          cases conflict : t.conflict? s mutations with
          | none =>
              rw [commit_of_clear found conflict]
              exact applied
          | some k =>
              rw [commit_of_conflict found conflict]
              exact ⟨rfl, rfl⟩

theorem allocateIds_frame (s : Store) (keys : List Datum) :
    ∃ calls counters, (s.allocateIds keys).2 = { s with calls, counters } := by
  unfold allocateIds
  split
  · exact ⟨s.calls, s.counters, rfl⟩
  · exact ⟨_, _, rfl⟩

/-- What a call does to a transaction that it neither begins nor ends. -/
theorem transactions_of_perform (s : Store) {request : Request} {h : Handle}
    (unended : request.ends h = false)
    (unbegun : request = .beginTransaction → h ≠ handle (s.begun + 1)) :
    (s.perform request).2.transactions.at? h =
      (s.transactions.at? h).map (·.after h (s.perform request).1) := by
  cases request with
  | lookup keys handle? => exact s.lookup_transactions keys handle? h
  | runQuery query handle? token => exact s.runQuery_transactions query handle? token h
  | commit mutations handle? =>
      refine Eq.trans ?_ (OpenTransaction.map_after_of_idle rfl rfl _).symm
      have other : handle? ≠ some h := of_decide_eq_false unended
      show (s.commit mutations handle?).2.transactions.at? h = _
      rw [(s.commit_transactions mutations handle?).1]
      cases handle? with
      | none => rfl
      | some named => exact Bindings.at?_remove_of_ne _ fun same => other (congrArg some same)
  | beginTransaction =>
      refine Eq.trans ?_ (OpenTransaction.map_after_of_idle rfl rfl _).symm
      exact Bindings.at?_put_of_ne _ _ (unbegun rfl).symm
  | rollback named =>
      refine Eq.trans ?_ (OpenTransaction.map_after_of_idle rfl rfl _).symm
      have other : named ≠ h := of_decide_eq_false unended
      exact Bindings.at?_remove_of_ne _ other
  | allocateIds keys =>
      refine Eq.trans ?_ (OpenTransaction.map_after_of_idle rfl rfl _).symm
      obtain ⟨calls, counters, frame⟩ := s.allocateIds_frame keys
      show (s.allocateIds keys).2.transactions.at? h = _
      rw [frame]

theorem closed_of_perform (s : Store) {request : Request} {h : Handle}
    (ended : request.ends h = true) : (s.perform request).2.transactions.at? h = none := by
  cases request with
  | commit mutations handle? =>
      have named : handle? = some h := of_decide_eq_true ended
      subst named
      show (s.commit mutations (some h)).2.transactions.at? h = none
      rw [(s.commit_transactions mutations (some h)).1]
      exact Bindings.at?_remove_self _ h
  | rollback named =>
      have same : named = h := of_decide_eq_true ended
      subst same
      exact Bindings.at?_remove_self _ named
  | lookup | runQuery | beginTransaction | allocateIds => cases ended

/-- Transactions are numbered in the order in which they begin. -/
theorem begun_of_perform (s : Store) (request : Request) :
    ∃ count, (s.perform request).2.begun = s.begun + count ∧
      (s.perform request).1.begun?.toList = (List.range' (s.begun + 1) count).map handle := by
  cases request with
  | lookup keys handle? =>
      obtain ⟨transactions, frame⟩ := s.lookup_frame keys handle?
      have same : (s.lookup keys handle?).2.begun = s.begun := by rw [frame]
      exact ⟨0, same, rfl⟩
  | runQuery query handle? token =>
      obtain ⟨transactions, cursors, queried, frame⟩ := s.runQuery_frame query handle? token
      have same : (s.runQuery query handle? token).2.begun = s.begun := by rw [frame]
      exact ⟨0, same, rfl⟩
  | commit mutations handle? => exact ⟨0, (s.commit_transactions mutations handle?).2, rfl⟩
  | beginTransaction => exact ⟨1, rfl, rfl⟩
  | rollback h => exact ⟨0, rfl, rfl⟩
  | allocateIds keys =>
      obtain ⟨calls, counters, frame⟩ := s.allocateIds_frame keys
      have same : (s.allocateIds keys).2.begun = s.begun := by rw [frame]
      exact ⟨0, same, rfl⟩

theorem begun_le_of_perform (s : Store) (request : Request) : s.begun ≤ (s.perform request).2.begun := by
  obtain ⟨count, begun, -⟩ := s.begun_of_perform request
  omega

theorem numbered_of_perform {s : Store} (numbered : s.Numbered) (request : Request) :
    (s.perform request).2.Numbered := by
  intro h t found
  cases ended : request.ends h with
  | true =>
      rw [s.closed_of_perform ended] at found
      cases found
  | false =>
      by_cases begins : request = .beginTransaction ∧ h = handle (s.begun + 1)
      · obtain ⟨rfl, rfl⟩ := begins
        exact ⟨s.begun + 1, Nat.le_refl _, rfl⟩
      · rw [s.transactions_of_perform ended fun first same => begins ⟨first, same⟩] at found
        obtain ⟨earlier, opened, -⟩ := Option.map_eq_some_iff.mp found
        obtain ⟨n, old, same⟩ := numbered h earlier opened
        exact ⟨n, Nat.le_trans old (s.begun_le_of_perform request), same⟩

theorem numbered_of_run {s : Store} (numbered : s.Numbered) (requests : List Request) :
    (s.run requests).2.Numbered := by
  induction requests generalizing s with
  | nil => exact numbered
  | cons request rest ih => exact ih (numbered_of_perform numbered request)

theorem opened_of_perform {s : Store} (numbered : s.Numbered) {request : Request} {h : Handle}
    {t : OpenTransaction}
    (opened : s.transactions.at? h = some t) (unended : request.ends h = false) :
    (s.perform request).2.transactions.at? h = some (t.after h (s.perform request).1) := by
  rw [s.transactions_of_perform unended, opened, Option.map_some]
  rintro - rfl
  rw [numbered.unused] at opened
  cases opened

/-- An open transaction stays open until it is ended, and its record adds up what it has read. -/
theorem opened_of_run {s : Store} (numbered : s.Numbered) {requests : List Request} {h : Handle}
    {t : OpenTransaction}
    (opened : s.transactions.at? h = some t)
    (unended : ∀ request ∈ requests, request.ends h = false) :
    (s.run requests).2.transactions.at? h =
      some ((s.run requests).1.foldl (OpenTransaction.after h) t) := by
  induction requests generalizing s t with
  | nil => exact opened
  | cons request rest ih =>
      obtain ⟨unendedHere, unendedLater⟩ := List.forall_mem_cons.mp unended
      exact ih (numbered_of_perform numbered request) (opened_of_perform numbered opened unendedHere)
        unendedLater

end Store

/-- Whether an event, if it is a read of a transaction, is answered from certain entities. -/
def Event.IsFrom (limits : StoreLimits) (stored : Bindings Key Entity) (h : Handle) : Event → Prop
  | lookup keys handle? found => handle? = some h → found = .ok (keys.map stored.at?)
  | runQuery query handle? .none page =>
    handle? = some h → page.map QueryPage.content = Store.shown limits stored query
  | _ => True

theorem Event.isFrom_of_token {token : Datum} (resumes : token ≠ .none) (limits : StoreLimits)
    (stored : Bindings Key Entity) (h : Handle) (query : Query) (handle? : Option Handle)
    (page : Except Error QueryPage) :
    (Event.runQuery query handle? token page).IsFrom limits stored h := by
  cases token with
  | none => exact absurd rfl resumes
  | _ => trivial

namespace Store

theorem isFrom_of_perform {s : Store} {h : Handle} {t : OpenTransaction}
    (opened : s.transactions.at? h = some t) (request : Request) :
    (s.perform request).1.IsFrom s.limits t.snapshot h := by
  have seen : s.seen? (some h) = some t.snapshot := by rw [seen?, opened, Option.map_some]
  cases request with
  | lookup keys handle? =>
      rintro rfl
      exact congrArg Prod.fst (lookup_of_seen seen keys)
  | runQuery query handle? token =>
      by_cases first : token = .none
      · subst first
        rintro rfl
        exact content_of_seen seen query
      · exact Event.isFrom_of_token first s.limits t.snapshot h query handle? _
  | commit | beginTransaction | rollback | allocateIds => trivial

/-- All reads of a transaction are answered from its snapshot. -/
theorem isFrom_of_run {s : Store} (numbered : s.Numbered) {requests : List Request}
    (staged : ∀ request ∈ requests, request.IsStaged) {h : Handle} {t : OpenTransaction}
    (opened : s.transactions.at? h = some t)
    (unended : ∀ request ∈ requests, request.ends h = false) :
    ∀ e ∈ (s.run requests).1, e.IsFrom s.limits t.snapshot h := by
  induction requests generalizing s t with
  | nil => simp [run]
  | cons request rest ih =>
      intro e member
      obtain ⟨stagedHere, stagedLater⟩ := List.forall_mem_cons.mp staged
      obtain ⟨unendedHere, unendedLater⟩ := List.forall_mem_cons.mp unended
      rcases List.mem_cons.mp member with rfl | later
      · exact isFrom_of_perform opened request
      · have limits := (s.changes_of_perform stagedHere).limits
        rw [← limits]
        exact ih (numbered_of_perform numbered request) stagedLater
          (opened_of_perform numbered opened unendedHere) unendedLater e later

end Store

end EntityStore
