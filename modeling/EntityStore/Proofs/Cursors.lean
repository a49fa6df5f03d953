import EntityStore.Proofs.Records
import EntityStore.Store.Memory

set_option autoImplicit false

namespace EntityStore

namespace Bindings

theorem names_append {κ ν : Type} (first second : Bindings κ ν) :
    names (first ++ second) = first.names ++ second.names := List.map_append

theorem names_drop {κ ν : Type} (b : Bindings κ ν) (count : Nat) :
    names (b.drop count) = b.names.drop count := List.map_drop

variable {κ ν : Type} [DecidableEq κ]

theorem put_of_unbound {b : Bindings κ ν} {key : κ} (unbound : key ∉ b.names) (value : ν) :
    b.put key value = b ++ [(key, value)] := by
  induction b with
  | nil => rfl
  | cons entry rest ih =>
      obtain ⟨k, v⟩ := entry
      have apart : key ≠ k ∧ key ∉ names rest := by simpa [names] using unbound
      rw [put, if_neg (Ne.symm apart.1), ih apart.2]
      rfl

/-- Dropping the oldest bindings leaves what is bound to a name or drops it. -/
theorem at?_drop {b : Bindings κ ν} (distinct : b.names.Nodup) (count : Nat) (key : κ) :
    at? (b.drop count) key = b.at? key ∨ at? (b.drop count) key = none := by
  cases found : at? (b.drop count) key with
  | none => exact Or.inr rfl
  | some value =>
      have member : (key, value) ∈ b := List.mem_of_mem_drop (mem_of_at? found)
      exact Or.inl ((mem_iff_at? distinct key value).mp member).symm

theorem remove_append (first second : Bindings κ ν) (key : κ) :
    remove (first ++ second) key = first.remove key ++ second.remove key := by
  induction first with
  | nil => rfl
  | cons entry rest ih =>
      obtain ⟨k, v⟩ := entry
      by_cases here : k = key
      · simpa only [List.cons_append, remove, here, ↓reduceIte] using ih
      · simp only [List.cons_append, remove, here, ↓reduceIte, ih]

theorem length_remove_le (b : Bindings κ ν) (key : κ) : (b.remove key).length ≤ b.length := by
  induction b with
  | nil => exact Nat.le_refl 0
  | cons entry rest ih =>
      obtain ⟨k, v⟩ := entry
      rw [remove, List.length_cons]
      split
      · omega
      · rw [List.length_cons]
        omega

end Bindings

/-- The number of the query of which a token asks for a page. -/
def Datum.queryNumber? (token : Datum) : Option Int :=
  match token.parts? with
  | some [number, _] => number.integer?
  | _ => Option.none

namespace Request

/-- Whether the call starts a query. -/
def starts : Request → Bool
  | runQuery _ _ .none => true
  | _ => false

/-- Whether the call asks for a page of the query with a number. -/
def fetches (id : Nat) : Request → Bool
  | runQuery _ _ token => token.queryNumber? = some (id : Int)
  | _ => false

end Request

namespace Event

/-- The first page of a query that was started. -/
def opened? : Event → Option QueryPage
  | runQuery _ _ .none (.ok page) => some page
  | _ => none

/-- Whether the last page of the query with a number was fetched. -/
def finishes (id : Nat) : Event → Bool
  | runQuery _ _ token (.ok page) => token.queryNumber? = some (id : Int) && page.next?.isNone
  | _ => false

theorem opened?_of_token {token : Datum} (resumes : token ≠ .none) (query : Query) (handle? : Option Handle)
    (page : Except Error QueryPage) : (runQuery query handle? token page).opened? = none := by
  cases token with
  | none => exact absurd rfl resumes
  | _ => rfl

end Event

namespace Store

/-- What a call does to the unfinished queries.  A query whose rows are all on its first page is kept, which can
drop another one, and then removed. -/
inductive Tends (s : Store) (request : Request) (event : Event) (next : Store) : Prop where
  | idle (cursors : next.cursors = s.cursors) (queried : next.queried = s.queried)
      (unopened : event.opened? = none) (unfinished : ∀ id, event.finishes id = false)
  | finished (id : Nat) (fetched : request.fetches id = true) (cursors : next.cursors = s.cursors.remove id)
      (queried : next.queried = s.queried) (unopened : event.opened? = none)
      (finishes : ∀ other, event.finishes other = true ↔ other = id)
  | started (cursor : Cursor) (starts : request.starts = true) (more : s.limits.pageSize < cursor.rows.length)
      (cursors : next.cursors = (s.keep cursor).2.cursors) (queried : next.queried = s.queried + 1)
      (opened : event.opened? = some (firstPage s.limits (s.queried + 1) cursor))
      (unfinished : ∀ id, event.finishes id = false)
  | answered (cursor : Cursor) (starts : request.starts = true) (all : cursor.rows.length ≤ s.limits.pageSize)
      (cursors : next.cursors = (s.keep cursor).2.cursors.remove (s.queried + 1))
      (queried : next.queried = s.queried + 1)
      (opened : event.opened? = some (firstPage s.limits (s.queried + 1) cursor))
      (unfinished : ∀ id, event.finishes id = false)

theorem applyMutations_cursors (s : Store) (mutations : List Mutation) :
    (s.applyMutations mutations).2.cursors = s.cursors ∧
      (s.applyMutations mutations).2.queried = s.queried ∧
      (s.applyMutations mutations).2.limits = s.limits := by
  unfold applyMutations
  dsimp only
  split
  · exact ⟨rfl, rfl, rfl⟩
  · exact ⟨rfl, rfl, rfl⟩
  · split
    · exact ⟨rfl, rfl, rfl⟩
    · exact ⟨rfl, rfl, rfl⟩

theorem commit_cursors (s : Store) (mutations : List Mutation) (handle? : Option Handle) :
    (s.commit mutations handle?).2.cursors = s.cursors ∧
      (s.commit mutations handle?).2.queried = s.queried ∧
      (s.commit mutations handle?).2.limits = s.limits := by
  unfold commit
  dsimp only
  split
  · exact applyMutations_cursors _ mutations
  · split
    · exact ⟨rfl, rfl, rfl⟩
    · split
      · exact ⟨rfl, rfl, rfl⟩
      · exact applyMutations_cursors _ mutations

/-- A query is executed over the entities that it sees. -/
theorem rowsOver_of_executed {s next : Store} {query : Query} {handle? : Option Handle} {cursor : Cursor}
    (executed : s.execute query handle? = .ok (cursor, next)) :
    ∃ stored transactions, s.seen? handle? = some stored ∧ rowsOver stored query = .ok cursor ∧
      next = { s with transactions } := by
  cases seen : s.seen? handle? with
  | none =>
      obtain ⟨e, failed⟩ := execute_of_unseen seen query
      rw [failed] at executed
      cases executed
  | some stored =>
      rw [execute_of_seen seen] at executed
      cases structured : query.toStructured with
      | error e => simp [structured, bind, Except.bind] at executed
      | ok q =>
          cases answered : answer q stored with
          | error e => simp [structured, answered, bind, Except.bind] at executed
          | ok found =>
              simp only [structured, answered, bind, Except.bind, pure, Except.pure, Except.ok.injEq,
                Prod.mk.injEq] at executed
              obtain ⟨rows, recording⟩ := executed
              obtain ⟨transactions, recorded⟩ := s.recording_frame handle? found.2 q.scopes
              refine ⟨stored, transactions, rfl, ?_, recording.symm.trans recorded⟩
              simp only [rowsOver, structured, answered, bind, Except.bind, pure, Except.pure, rows]

/-- A query that is executed is kept and its first page is served. -/
theorem runQuery_of_executed {s next : Store} {query : Query} {handle? : Option Handle} {cursor : Cursor}
    (executed : (s.noting .runQuery).execute query handle? = .ok (cursor, next)) :
    s.runQuery query handle? .none =
      let id := next.queried + 1
      let served := (next.keep cursor).2.serve id (.int id) cursor 0
      (.ok served.1, served.2) := by
  simp only [runQuery, executed]
  rfl

/-- A query is kept as long as it has more rows than were served. -/
theorem serve_cursors (s : Store) (id : Nat) (token : Datum) (cursor : Cursor) (start : Int) :
    (start + s.limits.pageSize < cursor.rows.length ∧
        (s.serve id token cursor start).1.next?.isNone = false ∧
        (s.serve id token cursor start).2.cursors = s.cursors) ∨
      (cursor.rows.length ≤ start + s.limits.pageSize ∧
        (s.serve id token cursor start).1.next?.isNone = true ∧
        (s.serve id token cursor start).2.cursors = s.cursors.remove id) := by
  unfold serve
  dsimp only
  split
  · next more => exact Or.inl ⟨more, rfl, rfl⟩
  · next all => exact Or.inr ⟨by omega, rfl, rfl⟩

theorem serve_queried (s : Store) (id : Nat) (token : Datum) (cursor : Cursor) (start : Int) :
    (s.serve id token cursor start).2.queried = s.queried := by
  obtain ⟨cursors, served⟩ := s.serve_frame id token cursor start
  rw [served]

theorem queryNumber?_of_resume? {s : Store} {token name start : Datum} {id : Nat} {cursor : Cursor}
    (resumed : s.resume? token = some (id, name, cursor, start)) :
    token.queryNumber? = some (id : Int) := by
  unfold resume? at resumed
  unfold Datum.queryNumber?
  cases parts : token.parts? with
  | none => simp [parts] at resumed
  | some items =>
      simp only [parts, bind, Option.bind] at resumed
      split at resumed
      · next number place =>
          cases numbered : number.integer? with
          | none => simp [numbered] at resumed
          | some n =>
              simp only [numbered] at resumed
              split at resumed
              · cases resumed
              · next natural =>
                  cases found : s.cursors.at? n.toNat with
                  | none => simp [found] at resumed
                  | some kept =>
                      simp only [found, pure, Option.some.injEq, Prod.mk.injEq] at resumed
                      have value : n = id := by omega
                      exact numbered.trans (congrArg some value)
      · cases resumed

theorem tends_of_first (s : Store) (query : Query) (handle? : Option Handle) :
    Tends s (.runQuery query handle? .none) (.runQuery query handle? .none (s.runQuery query handle? .none).1)
      (s.runQuery query handle? .none).2 := by
  cases executed : (s.noting .runQuery).execute query handle? with
  | error e =>
      rw [runQuery_of_failed executed]
      exact Tends.idle rfl rfl rfl fun id => rfl
  | ok found =>
      obtain ⟨cursor, next⟩ := found
      obtain ⟨-, transactions, -, -, rfl⟩ := rowsOver_of_executed executed
      rw [runQuery_of_executed executed]
      -- The page and the queries that are kept do not depend on the record of the transaction.
      have page := serve_first (keep { s.noting .runQuery with transactions } cursor).2 (s.queried + 1) cursor
      have queried := serve_queried (keep { s.noting .runQuery with transactions } cursor).2 (s.queried + 1)
        (.int (s.queried + 1 : Nat)) cursor 0
      rcases serve_cursors (keep { s.noting .runQuery with transactions } cursor).2 (s.queried + 1)
        (.int (s.queried + 1 : Nat)) cursor 0 with ⟨more, -, same⟩ | ⟨all, -, removed⟩
      · rw [Int.zero_add] at more
        exact Tends.started cursor rfl (Int.ofNat_lt.mp more) same queried (congrArg some page) fun id => rfl
      · rw [Int.zero_add] at all
        exact Tends.answered cursor rfl (Int.ofNat_le.mp all) removed queried (congrArg some page) fun id => rfl

/-- A page of an unfinished query is served. -/
theorem tends_of_resumed {s : Store} {token name start : Datum} {id : Nat} {cursor : Cursor}
    (resumes : token ≠ .none) (resumed : (s.noting .runQuery).resume? token = some (id, name, cursor, start))
    (query : Query) (handle? : Option Handle) (place : Int) :
    Tends s (.runQuery query handle? token)
      (.runQuery query handle? token (.ok ((s.noting .runQuery).serve id name cursor place).1))
      ((s.noting .runQuery).serve id name cursor place).2 := by
  have number := queryNumber?_of_resume? resumed
  have unopened := Event.opened?_of_token resumes query handle?
    (.ok ((s.noting .runQuery).serve id name cursor place).1)
  rcases (s.noting .runQuery).serve_cursors id name cursor place with ⟨-, more, same⟩ | ⟨-, last, removed⟩
  · refine Tends.idle same (serve_queried _ _ _ _ _) unopened fun other => ?_
    rw [Event.finishes, more, Bool.and_false]
  · refine Tends.finished id (decide_eq_true number) removed (serve_queried _ _ _ _ _) unopened fun other => ?_
    rw [Event.finishes, last, Bool.and_true, number, decide_eq_true_eq, Option.some.injEq]
    omega

theorem tends_of_runQuery (s : Store) (query : Query) (handle? : Option Handle) (token : Datum) :
    Tends s (.runQuery query handle? token) (.runQuery query handle? token (s.runQuery query handle? token).1)
      (s.runQuery query handle? token).2 := by
  by_cases first : token = .none
  · subst first
    exact s.tends_of_first query handle?
  · have refused (e : Error) : Tends s (.runQuery query handle? token)
        (.runQuery query handle? token (.error e)) (s.noting .runQuery) :=
      Tends.idle rfl rfl (Event.opened?_of_token first query handle? _) fun id => rfl
    unfold runQuery
    dsimp only
    split
    · exact absurd rfl first
    · split
      · exact refused _
      · next id name cursor start resumed =>
          split
          · exact tends_of_resumed first resumed query handle? _
          · exact tends_of_resumed first resumed query handle? _
          · exact refused _

theorem tends_of_perform (s : Store) (request : Request) :
    Tends s request (s.perform request).1 (s.perform request).2 := by
  cases request with
  | lookup keys handle? =>
      obtain ⟨transactions, frame⟩ := s.lookup_frame keys handle?
      show Tends s _ _ (s.lookup keys handle?).2
      rw [frame]
      exact Tends.idle rfl rfl rfl fun id => rfl
  | runQuery query handle? token => exact s.tends_of_runQuery query handle? token
  | commit mutations handle? =>
      obtain ⟨cursors, queried, -⟩ := s.commit_cursors mutations handle?
      exact Tends.idle cursors queried rfl fun id => rfl
  | beginTransaction => exact Tends.idle rfl rfl rfl fun id => rfl
  | rollback h => exact Tends.idle rfl rfl rfl fun id => rfl
  | allocateIds keys =>
      obtain ⟨calls, counters, frame⟩ := s.allocateIds_frame keys
      show Tends s _ _ (s.allocateIds keys).2
      rw [frame]
      exact Tends.idle rfl rfl rfl fun id => rfl

theorem limits_of_perform (s : Store) (request : Request) : (s.perform request).2.limits = s.limits := by
  cases request with
  | lookup keys handle? =>
      obtain ⟨transactions, frame⟩ := s.lookup_frame keys handle?
      show (s.lookup keys handle?).2.limits = s.limits
      rw [frame]
  | runQuery query handle? token =>
      obtain ⟨transactions, cursors, queried, frame⟩ := s.runQuery_frame query handle? token
      show (s.runQuery query handle? token).2.limits = s.limits
      rw [frame]
  | commit mutations handle? => exact (s.commit_cursors mutations handle?).2.2
  | beginTransaction => rfl
  | rollback h => rfl
  | allocateIds keys =>
      obtain ⟨calls, counters, frame⟩ := s.allocateIds_frame keys
      show (s.allocateIds keys).2.limits = s.limits
      rw [frame]

theorem limits_reached (limits : StoreLimits) (requests : List Request) :
    (reached limits requests).limits = limits := by
  have run : ∀ (requests : List Request) (s : Store), (s.run requests).2.limits = s.limits := by
    intro requests
    induction requests with
    | nil => exact fun s => rfl
    | cons request rest ih => exact fun s => (ih _).trans (s.limits_of_perform request)
  exact run requests (empty limits)

/-- Unfinished queries have different numbers, none of them above the number of queries begun so far. -/
structure CursorsNumbered (s : Store) : Prop where
  distinct : s.cursors.names.Nodup
  bounded : ∀ id ∈ s.cursors.names, id ≤ s.queried

theorem cursorsNumbered_empty (limits : StoreLimits) : (empty limits).CursorsNumbered :=
  ⟨List.nodup_nil, by simp [empty, Bindings.names]⟩

namespace CursorsNumbered

variable {s : Store}

theorem unbound (numbered : s.CursorsNumbered) : s.queried + 1 ∉ s.cursors.names := fun bound => by
  have := numbered.bounded _ bound
  omega

/-- A new query is kept behind all others, and the first ones are dropped if there are too many. -/
theorem cursors_keep (numbered : s.CursorsNumbered) (cursor : Cursor) :
    (s.keep cursor).2.cursors =
      (s.cursors ++ [(s.queried + 1, cursor)]).drop (s.cursors.length + 1 - s.limits.maxCursors) := by
  simp only [Store.keep, Bindings.put_of_unbound numbered.unbound, List.length_append, List.length_singleton]

theorem names_keep (numbered : s.CursorsNumbered) (cursor : Cursor) :
    (s.keep cursor).2.cursors.names =
      (s.cursors.names ++ [s.queried + 1]).drop (s.cursors.length + 1 - s.limits.maxCursors) := by
  rw [numbered.cursors_keep, Bindings.names_drop, Bindings.names_append]
  rfl

theorem keep (numbered : s.CursorsNumbered) (cursor : Cursor) : (s.keep cursor).2.CursorsNumbered := by
  refine ⟨?_, ?_⟩
  · rw [numbered.names_keep]
    have distinct : (s.cursors.names ++ [s.queried + 1]).Nodup := by
      refine List.nodup_append.mpr ⟨numbered.distinct, by simp, ?_⟩
      intro id member last newest same
      exact numbered.unbound (List.mem_singleton.mp newest ▸ same ▸ member)
    exact distinct.sublist (List.drop_sublist _ _)
  · intro id member
    rw [numbered.names_keep] at member
    show id ≤ s.queried + 1
    rcases List.mem_append.mp (List.mem_of_mem_drop member) with old | newest
    · have := numbered.bounded id old
      omega
    · exact Nat.le_of_eq (List.mem_singleton.mp newest)

theorem remove (numbered : s.CursorsNumbered) {next : Store} {id : Nat}
    (cursors : next.cursors = s.cursors.remove id) (queried : next.queried = s.queried) :
    next.CursorsNumbered := by
  refine ⟨cursors ▸ Bindings.nodup_remove numbered.distinct id, fun other member => ?_⟩
  rw [cursors, Bindings.names_remove] at member
  rw [queried]
  exact numbered.bounded other (List.mem_filter.mp member).1

end CursorsNumbered

namespace Tends

variable {s next : Store} {request : Request} {event : Event}

theorem numbered (tends : Tends s request event next) (numbered : s.CursorsNumbered) :
    next.CursorsNumbered := by
  cases tends with
  | idle cursors queried => exact ⟨cursors ▸ numbered.distinct, cursors ▸ queried ▸ numbered.bounded⟩
  | finished id fetched cursors queried => exact numbered.remove cursors queried
  | started cursor starts more cursors queried =>
      exact ⟨cursors ▸ (numbered.keep cursor).distinct, cursors ▸ queried ▸ (numbered.keep cursor).bounded⟩
  | answered cursor starts all cursors queried => exact (numbered.keep cursor).remove cursors queried

theorem queried_le (tends : Tends s request event next) : s.queried ≤ next.queried := by
  cases tends <;> omega

/-- The rows kept under a number in use stay the same or are dropped. -/
theorem at?_eq (tends : Tends s request event next) (numbered : s.CursorsNumbered) {id : Nat}
    (used : id ≤ s.queried) : next.cursors.at? id = s.cursors.at? id ∨ next.cursors.at? id = none := by
  have removed : ∀ (b : Bindings Nat Cursor) other, (b.remove other).at? id = b.at? id ∨
      (b.remove other).at? id = none := by
    intro b other
    rw [Bindings.at?_remove]
    split
    · exact Or.inr rfl
    · exact Or.inl rfl
  have kept : ∀ cursor, (s.keep cursor).2.cursors.at? id = s.cursors.at? id ∨
      (s.keep cursor).2.cursors.at? id = none := by
    intro cursor
    have other : s.queried + 1 ≠ id := by omega
    rw [← Bindings.at?_put_of_ne s.cursors cursor other]
    exact Bindings.at?_drop (Bindings.nodup_put numbered.distinct _ _) _ id
  cases tends with
  | idle cursors queried => exact Or.inl (congrArg (·.at? id) cursors)
  | finished other fetched cursors queried =>
      rw [cursors]
      exact removed s.cursors other
  | started cursor starts more cursors queried =>
      rw [cursors]
      exact kept cursor
  | answered cursor starts all cursors queried =>
      rw [cursors]
      rcases removed (s.keep cursor).2.cursors (s.queried + 1) with left | gone
      · rw [left]
        exact kept cursor
      · exact Or.inr gone

end Tends

theorem cursorsNumbered_reached (limits : StoreLimits) (requests : List Request) :
    (reached limits requests).CursorsNumbered := by
  have run : ∀ (requests : List Request) (s : Store), s.CursorsNumbered → (s.run requests).2.CursorsNumbered := by
    intro requests
    induction requests with
    | nil => exact fun s numbered => numbered
    | cons request rest ih =>
        intro s numbered
        exact ih _ ((s.tends_of_perform request).numbered numbered)
  exact run requests _ (cursorsNumbered_empty limits)

/-- A query is kept with its rows, and at most a number of younger ones are. -/
def Holds (cursors : Bindings Nat Cursor) (id : Nat) (cursor : Cursor) (younger : Nat) : Prop :=
  ∃ before after, cursors = before ++ (id, cursor) :: after ∧ after.length ≤ younger

namespace Holds

variable {s next : Store} {id : Nat} {cursor : Cursor} {younger : Nat}

theorem at?_eq (holds : Holds s.cursors id cursor younger) (numbered : s.CursorsNumbered) :
    s.cursors.at? id = some cursor := by
  obtain ⟨before, after, cursors, -⟩ := holds
  refine (Bindings.mem_iff_at? numbered.distinct id cursor).mp ?_
  rw [cursors]
  exact List.mem_append_right _ List.mem_cons_self

theorem remove {cursors : Bindings Nat Cursor} (holds : Holds cursors id cursor younger) {other : Nat}
    (different : id ≠ other) : Holds (cursors.remove other) id cursor younger := by
  obtain ⟨before, after, rfl, few⟩ := holds
  refine ⟨Bindings.remove before other, Bindings.remove after other, ?_, ?_⟩
  · rw [Bindings.remove_append, Bindings.remove, if_neg different]
  · exact Nat.le_trans (Bindings.length_remove_le after other) few

/-- A new query does not push out one that has room for a younger one behind it. -/
theorem keep (holds : Holds s.cursors id cursor younger) (numbered : s.CursorsNumbered)
    (room : younger + 1 < s.limits.maxCursors) (newest : Cursor) :
    Holds (s.keep newest).2.cursors id cursor (younger + 1) := by
  obtain ⟨before, after, cursors, few⟩ := holds
  have size : s.cursors.length = before.length + (after.length + 1) := by
    rw [cursors, List.length_append, List.length_cons]
  have early : s.cursors.length + 1 - s.limits.maxCursors ≤ before.length := by omega
  refine ⟨before.drop (s.cursors.length + 1 - s.limits.maxCursors), after ++ [(s.queried + 1, newest)], ?_, ?_⟩
  · rw [numbered.cursors_keep, cursors, List.append_assoc, ← cursors, List.drop_append_of_le_length early]
    rfl
  · rw [List.length_append, List.length_singleton]
    omega

theorem newest (numbered : s.CursorsNumbered) (cursor : Cursor) :
    Holds (s.keep cursor).2.cursors (s.queried + 1) cursor 0 := by
  have positive := s.limits.maxCursors_pos
  refine ⟨s.cursors.drop (s.cursors.length + 1 - s.limits.maxCursors), [], ?_, Nat.le_refl 0⟩
  rw [numbered.cursors_keep, List.drop_append_of_le_length (by omega)]

/-- Only a fetch of its last page or younger queries can make a store drop a query. -/
theorem of_tends {request : Request} {event : Event} (holds : Holds s.cursors id cursor younger)
    (tends : Tends s request event next) (numbered : s.CursorsNumbered) (used : id ≤ s.queried)
    (unfetched : request.fetches id = false)
    (room : younger + request.starts.toNat < s.limits.maxCursors) :
    Holds next.cursors id cursor (younger + request.starts.toNat) := by
  cases tends with
  | idle cursors queried =>
      obtain ⟨before, after, split, few⟩ := holds
      exact ⟨before, after, cursors.trans split, Nat.le_add_right_of_le few⟩
  | finished other fetched cursors queried =>
      have different : id ≠ other := by
        rintro rfl
        rw [unfetched] at fetched
        cases fetched
      rw [cursors]
      obtain ⟨before, after, split, few⟩ := holds.remove different
      exact ⟨before, after, split, Nat.le_add_right_of_le few⟩
  | started newest starts more cursors queried =>
      rw [starts, Bool.toNat_true] at room ⊢
      rw [cursors]
      exact holds.keep numbered room newest
  | answered newest starts all cursors queried =>
      rw [starts, Bool.toNat_true] at room ⊢
      rw [cursors]
      exact (holds.keep numbered room newest).remove (by omega)

end Holds

end Store

end EntityStore
