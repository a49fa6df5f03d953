import EntityStore.Proofs.History

set_option autoImplicit false

namespace EntityStore

/-- What a page shows.  The token of the next page counts only for there being one. -/
def QueryPage.content (p : QueryPage) : List Datum × ResultType × Bool :=
  (p.results, p.resultType, p.next?.isSome)

namespace OpenTransaction

@[simp] theorem reading_nil (t : OpenTransaction) : t.reading [] = t := by
  simp only [reading, List.append_nil]

@[simp] theorem watching_nil (t : OpenTransaction) : t.watching [] = t := by
  simp only [watching, List.append_nil]

theorem after_of_idle {h : Handle} {e : Event} (lookedUp : e.lookedUp h = [])
    (queried : e.query? h = none) (t : OpenTransaction) : t.after h e = t := by
  simp [after, Event.reads, Event.scopes, lookedUp, queried]

theorem map_after_of_idle {h : Handle} {e : Event} (lookedUp : e.lookedUp h = [])
    (queried : e.query? h = none) (t? : Option OpenTransaction) : t?.map (·.after h e) = t? := by
  simp only [after_of_idle lookedUp queried, Option.map_id']

end OpenTransaction

namespace Store

/-- The entities that a read sees: those of the store, or the snapshot of an open transaction. -/
def seen? (s : Store) : Option Handle → Option (Bindings Key Entity)
  | none => some s.entities
  | some h => (s.transactions.at? h).map OpenTransaction.snapshot

/-- The store after a transaction, if there is one and it is open, has read some keys and queried below
others. -/
def recording (s : Store) (handle? : Option Handle) (keys scopes : List Key) : Store :=
  match handle? with
  | none => s
  | some h =>
    match s.transactions.at? h with
    | none => s
    | some t => { s with transactions := s.transactions.put h ((t.reading keys).watching scopes) }

theorem recording_frame (s : Store) (handle? : Option Handle) (keys scopes : List Key) :
    ∃ transactions, s.recording handle? keys scopes = { s with transactions } := by
  unfold recording
  split
  · exact ⟨s.transactions, rfl⟩
  · split
    · exact ⟨s.transactions, rfl⟩
    · exact ⟨_, rfl⟩

theorem recording_transactions (s : Store) (handle? : Option Handle) (keys scopes : List Key)
    (h : Handle) :
    (s.recording handle? keys scopes).transactions.at? h =
      (s.transactions.at? h).map fun t =>
        if handle? = some h then (t.reading keys).watching scopes else t := by
  cases handle? with
  | none => simp [recording]
  | some named =>
      by_cases own : named = h
      · subst own
        cases found : s.transactions.at? named with
        | none => simp only [recording, found, Option.map_none]
        | some t =>
            simp only [recording, found, ↓reduceIte, Option.map_some]
            exact Bindings.at?_put_self _ named _
      · have other : some named ≠ some h := fun same => own (Option.some.inj same)
        simp only [other, ↓reduceIte, Option.map_id']
        unfold recording
        dsimp only
        split
        · rfl
        · exact Bindings.at?_put_of_ne _ _ own

theorem lookup_of_seen {s : Store} {handle? : Option Handle} {stored : Bindings Key Entity}
    (seen : s.seen? handle? = some stored) (keys : List Key) :
    s.lookup keys handle? =
      (.ok (keys.map stored.at?), (s.noting .lookup).recording handle? keys []) := by
  cases handle? with
  | none =>
      cases seen
      rfl
  | some h =>
      cases found : s.transactions.at? h with
      | none => simp [seen?, found] at seen
      | some t =>
          simp only [seen?, found, Option.map_some, Option.some.injEq] at seen
          subst seen
          simp only [lookup, recording, noting, found, OpenTransaction.watching_nil]

theorem lookup_of_unseen {s : Store} {handle? : Option Handle} (unseen : s.seen? handle? = none)
    (keys : List Key) : ∃ e, s.lookup keys handle? = (.error e, s.noting .lookup) := by
  cases handle? with
  | none => cases unseen
  | some h =>
      have closed : s.transactions.at? h = none := by simpa [seen?] using unseen
      exact ⟨.unknownTransaction h.text, by simp only [lookup, noting, closed]⟩

/-- The rows of a query over some entities. -/
def rowsOver (stored : Bindings Key Entity) (query : Query) : Except Error Cursor := do
  let q ← query.toStructured
  return (← answer q stored).1

theorem execute_of_seen {s : Store} {handle? : Option Handle} {stored : Bindings Key Entity}
    (seen : s.seen? handle? = some stored) (query : Query) (objects : Place → Place := id) :
    s.execute query handle? objects = do
      let q ← query.toStructured
      let (cursor, keys) ← answer q stored objects
      return (cursor, s.recording handle? keys q.scopes) := by
  cases handle? with
  | none =>
      cases seen
      rfl
  | some h =>
      cases found : s.transactions.at? h with
      | none => simp [seen?, found] at seen
      | some t =>
          simp only [seen?, found, Option.map_some, Option.some.injEq] at seen
          subst seen
          simp only [execute, recording, found]

theorem execute_of_unseen {s : Store} {handle? : Option Handle} (unseen : s.seen? handle? = none)
    (query : Query) : ∃ e, s.execute query handle? = .error e := by
  cases handle? with
  | none => cases unseen
  | some h =>
      have closed : s.transactions.at? h = none := by simpa [seen?] using unseen
      cases structured : query.toStructured with
      | error e => exact ⟨e, by simp only [execute, structured]; rfl⟩
      | ok q => exact ⟨.unknownTransaction h.text, by simp only [execute, structured, closed]; rfl⟩

/-- The first page of a query that is kept under a number. -/
def firstPage (limits : StoreLimits) (id : Nat) (cursor : Cursor) : QueryPage :=
  let stop : Int := 0 + limits.pageSize
  ⟨(slice cursor.rows 0 stop).map Row.datum, cursor.resultType,
    if stop < cursor.rows.length then some (.tuple [.int id, .int stop]) else none⟩

theorem content_firstPage (limits : StoreLimits) (id other : Nat) (cursor : Cursor) :
    (firstPage limits id cursor).content = (firstPage limits other cursor).content := by
  unfold firstPage QueryPage.content
  dsimp only
  split <;> rfl

theorem serve_frame (s : Store) (id : Nat) (token : Datum) (cursor : Cursor) (start : Int) :
    ∃ cursors, (s.serve id token cursor start).2 = { s with cursors } := by
  unfold serve
  dsimp only
  split
  · exact ⟨s.cursors, rfl⟩
  · exact ⟨_, rfl⟩

theorem serve_first (s : Store) (id : Nat) (cursor : Cursor) :
    (s.serve id (.int id) cursor 0).1 = firstPage s.limits id cursor := by
  unfold serve firstPage
  dsimp only
  split <;> rfl

/-- The ways in which a query for a first page can end. -/
inductive Queries (s : Store) (query : Query) (handle? : Option Handle) :
    Except Error QueryPage → Store → Prop where
  | failed (e : Error)
      (rowless : ∀ stored, s.seen? handle? = some stored → rowsOver stored query = .error e) :
      Queries s query handle? (.error e) (s.noting .runQuery)
  | answered (q : StructuredQuery) (stored : Bindings Key Entity) (cursor : Cursor)
      (cursors : Bindings Nat Cursor) (queried : Nat) (structured : query.toStructured = .ok q)
      (seen : s.seen? handle? = some stored)
      (answered : answer q stored = .ok (cursor, (q.select (stored.map Prod.snd)).map Entity.key)) :
      Queries s query handle? (.ok (firstPage s.limits (s.queried + 1) cursor))
        { (s.noting .runQuery).recording handle? ((q.select (stored.map Prod.snd)).map Entity.key)
            q.scopes with cursors, queried }

theorem keys_of_answer {q : StructuredQuery} {stored : Bindings Key Entity} {cursor : Cursor}
    {keys : List Key} (answered : answer q stored = .ok (cursor, keys)) :
    keys = (q.select (stored.map Prod.snd)).map Entity.key := by
  unfold answer at answered
  cases checked : q.check with
  | error e => simp [checked, bind, Except.bind] at answered
  | ok _ =>
      simp only [checked, bind, Except.bind, pure, Except.pure, Except.ok.injEq, Prod.mk.injEq] at answered
      exact answered.2.symm

theorem queries_of_executed {s next : Store} {query : Query} {handle? : Option Handle}
    {cursor : Cursor} (executed : (s.noting .runQuery).execute query handle? = .ok (cursor, next))
    (frame : ∃ transactions, next = { s.noting .runQuery with transactions }) :
    ∃ cursors queried, s.runQuery query handle? .none =
      (.ok (firstPage s.limits (s.queried + 1) cursor), { next with cursors, queried }) := by
  obtain ⟨transactions, rfl⟩ := frame
  obtain ⟨cursors, served⟩ := serve_frame (keep { s.noting .runQuery with transactions } cursor).2
    (s.queried + 1) (.int (s.queried + 1 : Nat)) cursor 0
  refine ⟨cursors, s.queried + 1, ?_⟩
  simp only [runQuery, executed]
  refine Prod.ext ?_ served
  exact congrArg Except.ok (serve_first _ (s.queried + 1) cursor)

theorem runQuery_of_failed {s : Store} {query : Query} {handle? : Option Handle} {e : Error}
    (failed : (s.noting .runQuery).execute query handle? = .error e) :
    s.runQuery query handle? .none = (.error e, s.noting .runQuery) := by
  simp only [runQuery, failed]

theorem queries_of_seen {s : Store} {handle? : Option Handle} {stored : Bindings Key Entity}
    (seen : s.seen? handle? = some stored) (query : Query) :
    ∃ page next, s.runQuery query handle? .none = (page, next) ∧ Queries s query handle? page next := by
  have executes := execute_of_seen (s := s.noting .runQuery) seen query
  have rowless : ∀ e, rowsOver stored query = .error e → ∀ other, s.seen? handle? = some other →
      rowsOver other query = .error e := by
    intro e failed other visible
    rw [seen] at visible
    cases visible
    exact failed
  cases structured : query.toStructured with
  | error e =>
      rw [structured] at executes
      refine ⟨_, _, runQuery_of_failed executes, Queries.failed e (rowless e ?_)⟩
      rw [rowsOver, structured]
      rfl
  | ok q =>
      cases answered : answer q stored with
      | error e =>
          simp only [structured, bind, Except.bind, answered] at executes
          refine ⟨_, _, runQuery_of_failed executes, Queries.failed e (rowless e ?_)⟩
          simp only [rowsOver, structured, bind, Except.bind, answered]
      | ok found =>
          obtain ⟨cursor, keys⟩ := found
          simp only [structured, bind, Except.bind, answered] at executes
          obtain ⟨cursors, queried, ran⟩ := queries_of_executed executes
            ((s.noting .runQuery).recording_frame handle? keys q.scopes)
          have same := keys_of_answer answered
          subst same
          exact ⟨_, _, ran, Queries.answered q stored cursor cursors queried structured seen answered⟩

theorem runQuery_queries (s : Store) (query : Query) (handle? : Option Handle) :
    ∃ page next, s.runQuery query handle? .none = (page, next) ∧ Queries s query handle? page next := by
  cases seen : s.seen? handle? with
  | none =>
      obtain ⟨e, failed⟩ := execute_of_unseen (s := s.noting .runQuery) seen query
      refine ⟨_, _, runQuery_of_failed failed, Queries.failed e fun stored visible => ?_⟩
      rw [seen] at visible
      cases visible
  | some stored => exact queries_of_seen seen query

theorem runQuery_of_token {token : Datum} (resumes : token ≠ .none) (s : Store) (query : Query)
    (handle? : Option Handle) :
    ∃ cursors, (s.runQuery query handle? token).2 = { s with cursors, calls := s.calls ++ [.runQuery] } := by
  unfold runQuery
  dsimp only
  split
  · exact absurd rfl resumes
  · split
    · exact ⟨s.cursors, rfl⟩
    · next id name cursor start _ =>
        split
        · next n _ => exact (s.noting .runQuery).serve_frame id name cursor n
        · next b _ => exact (s.noting .runQuery).serve_frame id name cursor (if b then 1 else 0)
        · exact ⟨s.cursors, rfl⟩

/-- A query shows its first page of the rows over the entities that it sees. -/
theorem runQuery_of_seen {s : Store} {handle? : Option Handle} {stored : Bindings Key Entity}
    (seen : s.seen? handle? = some stored) (query : Query) :
    (s.runQuery query handle? .none).1 =
      (rowsOver stored query).map (firstPage s.limits (s.queried + 1)) := by
  obtain ⟨page, next, ran, queries⟩ := s.runQuery_queries query handle?
  rw [ran]
  cases queries with
  | failed e rowless =>
      rw [rowless stored seen]
      rfl
  | answered q other cursor cursors queried structured visible answered =>
      rw [seen] at visible
      cases visible
      simp only [rowsOver, structured, bind, Except.bind, answered]
      rfl

/-- What the first page of a query over some entities shows. -/
def shown (limits : StoreLimits) (stored : Bindings Key Entity) (query : Query) :
    Except Error (List Datum × ResultType × Bool) :=
  (rowsOver stored query).map fun cursor => (firstPage limits 0 cursor).content

theorem content_of_seen {s : Store} {handle? : Option Handle} {stored : Bindings Key Entity}
    (seen : s.seen? handle? = some stored) (query : Query) :
    (s.runQuery query handle? .none).1.map QueryPage.content = shown s.limits stored query := by
  rw [runQuery_of_seen seen, shown]
  cases rowsOver stored query with
  | error e => rfl
  | ok cursor => exact congrArg Except.ok (content_firstPage s.limits _ 0 cursor)

/-- The rows of a query that passes its checks depend on the entities that it selects. -/
theorem rowsOver_congr {query : Query} {q : StructuredQuery} (structured : query.toStructured = .ok q)
    {first second : Bindings Key Entity} (filed : Filed first) (refiled : Filed second)
    (agree : q.check = .ok () → ∀ e, q.selects e = true →
      (first.at? e.key = some e ↔ second.at? e.key = some e)) :
    rowsOver first query = rowsOver second query := by
  have answers : answer q first = answer q second := by
    cases checked : q.check with
    | error e => simp only [answer, checked, bind, Except.bind]
    | ok _ => exact answer_congr q filed refiled (agree checked)
  rw [rowsOver, rowsOver, structured]
  simp only [bind, Except.bind, answers]

theorem shown_of_checked {query : Query} {q : StructuredQuery} (structured : query.toStructured = .ok q)
    (checked : q.check = .ok ()) (limits : StoreLimits) (stored : Bindings Key Entity) :
    ∃ content, shown limits stored query = .ok content := by
  rw [shown, rowsOver, structured]
  simp only [bind, Except.bind, answer, checked]
  exact ⟨_, rfl⟩

theorem lookup_frame (s : Store) (keys : List Key) (handle? : Option Handle) :
    ∃ transactions, (s.lookup keys handle?).2 = { s with transactions, calls := s.calls ++ [.lookup] } := by
  cases seen : s.seen? handle? with
  | none =>
      obtain ⟨e, failed⟩ := lookup_of_unseen seen keys
      exact ⟨s.transactions, congrArg Prod.snd failed⟩
  | some stored =>
      rw [lookup_of_seen seen]
      exact (s.noting .lookup).recording_frame handle? keys []

theorem runQuery_frame (s : Store) (query : Query) (handle? : Option Handle) (token : Datum) :
    ∃ transactions cursors queried,
      (s.runQuery query handle? token).2 =
        { s with transactions, cursors, queried, calls := s.calls ++ [.runQuery] } := by
  by_cases first : token = .none
  · subst first
    obtain ⟨page, next, ran, queries⟩ := s.runQuery_queries query handle?
    rw [ran]
    cases queries with
    | failed e rowless => exact ⟨s.transactions, s.cursors, s.queried, rfl⟩
    | answered q stored cursor cursors queried structured seen answered =>
        obtain ⟨transactions, recorded⟩ := (s.noting .runQuery).recording_frame handle?
          ((q.select (stored.map Prod.snd)).map Entity.key) q.scopes
        rw [recorded]
        exact ⟨transactions, cursors, queried, rfl⟩
  · obtain ⟨cursors, resumed⟩ := runQuery_of_token first s query handle?
    exact ⟨s.transactions, cursors, s.queried, resumed⟩

end Store

end EntityStore
