import EntityStore.Client.Basic
import EntityStore.Client.Transaction
import EntityStore.Proofs.Cursors

set_option autoImplicit false

namespace EntityStore

theorem slice_nat {α : Type} (items : List α) (start stop : Nat) :
    slice items start stop = (items.take stop).drop start := by
  have natural : ∀ n : Nat, (if (n : Int) < 0 then (n : Int) + items.length else n).toNat = n := by
    intro n
    rw [if_neg (by omega), Int.toNat_natCast]
  simp only [slice, natural]

/-- The rows as they are shown. -/
def Cursor.shown (cursor : Cursor) : List Datum := cursor.rows.map Row.datum

theorem Cursor.length_shown (cursor : Cursor) : cursor.shown.length = cursor.rows.length := List.length_map _

/-- The token that asks for the page of a query from a place on. -/
def pageToken (id stop : Nat) : Datum := .tuple [.int id, .int stop]

namespace Store

/-- The page of a query from a place on. -/
def pageFrom (limits : StoreLimits) (id : Nat) (cursor : Cursor) (start : Nat) : QueryPage :=
  ⟨(cursor.shown.take (start + limits.pageSize)).drop start, cursor.resultType,
    if start + limits.pageSize < cursor.rows.length then some (pageToken id (start + limits.pageSize)) else none⟩

theorem serve_page (s : Store) (id : Nat) (cursor : Cursor) (start : Nat) :
    (s.serve id (.int id) cursor start).1 = pageFrom s.limits id cursor start := by
  have stop : (start : Int) + s.limits.pageSize = ((start + s.limits.pageSize : Nat) : Int) := by omega
  unfold serve pageFrom
  dsimp only
  rw [stop, slice_nat, List.map_drop, List.map_take]
  by_cases more : start + s.limits.pageSize < cursor.rows.length
  · rw [if_pos more, if_pos (by omega)]
    rfl
  · rw [if_neg more, if_neg (by omega)]
    rfl

/-- A query that has more pages is kept. -/
theorem serve_more {s : Store} {id start : Nat} {cursor : Cursor}
    (more : start + s.limits.pageSize < cursor.rows.length) :
    (s.serve id (.int id) cursor start).2 = s := by
  unfold serve
  dsimp only
  rw [if_pos (by omega)]

theorem more_of_next? {limits : StoreLimits} {id start : Nat} {cursor : Cursor}
    (pending : (pageFrom limits id cursor start).next?.isSome = true) :
    start + limits.pageSize < cursor.rows.length := by
  by_cases more : start + limits.pageSize < cursor.rows.length
  · exact more
  · simp [pageFrom, more] at pending

@[simp] theorem remote_runQuery (query : Query) (handle? : Option Handle) (token : Datum) (s : Store) :
    remote.runQuery query handle? token s = s.runQuery query handle? token := rfl

theorem rows_le_sum {cursors : Bindings Nat Cursor} {id : Nat} {cursor : Cursor} (member : (id, cursor) ∈ cursors) :
    cursor.rows.length ≤ cursors.foldr (fun entry count => entry.2.rows.length + count) 0 := by
  induction cursors with
  | nil => cases member
  | cons entry rest ih =>
      rw [List.foldr_cons]
      rcases List.mem_cons.mp member with rfl | later
      · exact Nat.le_add_right _ _
      · exact Nat.le_trans (ih later) (Nat.le_add_left _ _)

theorem rows_lt_pagesLeft (s : Store) {id : Nat} {cursor : Cursor} (kept : s.cursors.at? id = some cursor) :
    cursor.rows.length < s.pagesLeft :=
  Nat.lt_succ_of_le (rows_le_sum (Bindings.mem_of_at? kept))

theorem resume?_of_kept {s : Store} {id : Nat} {cursor : Cursor} (kept : s.cursors.at? id = some cursor)
    (stop : Nat) : s.resume? (pageToken id stop) = some (id, .int id, cursor, .int stop) := by
  simp [resume?, pageToken, Datum.parts?, Datum.items?, Datum.integer?, Datum.number?, kept]

theorem resume?_of_dropped {s : Store} {id : Nat} (dropped : s.cursors.at? id = none)
    (stop : Nat) : s.resume? (pageToken id stop) = none := by
  simp [resume?, pageToken, Datum.parts?, Datum.items?, Datum.integer?, Datum.number?, dropped]

theorem runQuery_of_kept {s : Store} {id : Nat} {cursor : Cursor} (kept : s.cursors.at? id = some cursor)
    (query : Query) (handle? : Option Handle) (stop : Nat) :
    s.runQuery query handle? (pageToken id stop) =
      (.ok (pageFrom s.limits id cursor stop), ((s.noting .runQuery).serve id (.int id) cursor stop).2) := by
  have resumed := resume?_of_kept (s := s.noting .runQuery) kept stop
  have page := (s.noting .runQuery).serve_page id cursor stop
  simp only [runQuery, pageToken] at resumed ⊢
  simp only [resumed, page]
  rfl

theorem runQuery_of_dropped {s : Store} {id : Nat} (dropped : s.cursors.at? id = none) (query : Query)
    (handle? : Option Handle) (stop : Nat) :
    s.runQuery query handle? (pageToken id stop) =
      (.error (CallFault.pageToken (pageToken id stop).describe).error, s.noting .runQuery) := by
  have resumed := resume?_of_dropped (s := s.noting .runQuery) dropped stop
  simp only [runQuery, pageToken] at resumed ⊢
  simp only [resumed]

end Store

namespace QueryResults

/-- The rows of the page that are not read yet. -/
def rest (r : QueryResults) : List Datum := r.page.results.drop r.position

theorem row?_eq (r : QueryResults) : r.page.results[r.position]? = r.rest.head? := by
  rw [rest, List.head?_drop]

variable {σ : Type} {remote : Remote σ} {r : QueryResults} {s next : σ}

theorem advance_of_rest (left : r.rest ≠ []) (rounds : Nat) :
    advance remote rounds r s = ((r, .ok true), s) := by
  have inside : r.position < r.page.results.length := by
    rw [rest, ne_eq, List.drop_eq_nil_iff] at left
    omega
  unfold advance
  simp only [inside, if_true]
  rfl

theorem advance_of_last (left : r.rest = []) (last : r.page.next? = none) (rounds : Nat) :
    advance remote rounds r s = ((r, .ok false), s) := by
  have outside : ¬ r.position < r.page.results.length := by
    rw [rest, List.drop_eq_nil_iff] at left
    omega
  unfold advance
  simp only [outside, if_false, last]
  rfl

theorem advance_of_token (left : r.rest = []) {token : Datum} (more : r.page.next? = some token) (rounds : Nat) :
    advance remote (rounds + 1) r s = match remote.runQuery r.query r.handle? token s with
      | (.error e, next) => ((r, .error e), next)
      | (.ok page, next) => advance remote rounds { r with page, position := 0 } next := by
  have outside : ¬ r.position < r.page.results.length := by
    rw [rest, List.drop_eq_nil_iff] at left
    omega
  rw [advance.eq_def]
  simp only [outside, if_false, more, bind, StateT.bind]
  rcases remote.runQuery r.query r.handle? token s with ⟨e | page, next⟩
  · rfl
  · rfl

/-- The next row is looked for, and then read. -/
theorem next_eq (remote : Remote σ) (r : QueryResults) (s : σ) :
    r.next remote s =
      match r.hasNext remote s with
      | ((results, .error e), after) => ((results, .error e), after)
      | ((results, .ok _), after) =>
        match results.rest with
        | [] => ((results, .error (.failure .exhausted)), after)
        | row :: _ => (({ results with position := results.position + 1 }, .ok row), after) := by
  unfold next
  simp only [bind, StateT.bind]
  rcases r.hasNext remote s with ⟨⟨results, outcome⟩, after⟩
  cases outcome with
  | error e => rfl
  | ok more =>
      dsimp only
      rw [row?_eq]
      cases results.rest with
      | nil => rfl
      | cons row rest => rfl

theorem drainPages_of_last (last : r.page.next? = none) (rounds : Nat) :
    (drainPages remote rounds r s).1.2 = .ok r.rest := by
  rw [drainPages.eq_def]
  simp only [last]
  rfl

theorem drainPages_of_token {token : Datum} (more : r.page.next? = some token) (rounds : Nat) :
    (drainPages remote (rounds + 1) r s).1.2 = match remote.runQuery r.query r.handle? token s with
      | (.error e, _) => .error e
      | (.ok page, next) =>
        (drainPages remote rounds { r with page, position := 0 } next).1.2.map (r.rest ++ ·) := by
  rw [drainPages.eq_def]
  simp only [more, bind, StateT.bind]
  rcases remote.runQuery r.query r.handle? token s with ⟨e | page, next⟩
  · rfl
  · rfl

end QueryResults

/-- A query that is being read: its results, the store as it is now, and the rows read so far. -/
structure Reading where
  results : QueryResults
  store : Store
  read : List Datum

/-- What can happen while a query is read: a call of any client, or a step of the reader. -/
inductive Turn where
  | call (request : Request)
  | hasNext
  | next

namespace Turn

/-- Whether a query is started. -/
def starts : Turn → Bool
  | call request => request.starts
  | hasNext | next => false

/-- Whether a client other than the reader fetches a page of the query with a number. -/
def fetches (id : Nat) : Turn → Bool
  | call request => request.fetches id
  | hasNext | next => false

end Turn

namespace Reading

/-- The answer when asked for a further row. -/
def hasNext (x : Reading) : Except Error Bool := (x.results.hasNext Store.remote x.store).1.2

/-- The answer when asked for the next row. -/
def next (x : Reading) : Except Error Datum := (x.results.next Store.remote x.store).1.2

/-- The answer when asked for all rows that are left. -/
def drain (x : Reading) : Except Error (List Datum) := (x.results.drain Store.remote x.store).1.2

def turn (x : Reading) : Turn → Reading
  | .call request => { x with store := (x.store.perform request).2 }
  | .hasNext =>
    let ((results, _), store) := x.results.hasNext Store.remote x.store
    ⟨results, store, x.read⟩
  | .next =>
    let ((results, row), store) := x.results.next Store.remote x.store
    ⟨results, store, x.read ++ row.toOption.toList⟩

/-- What is read, the rest of the page and the pages that the token stands for make up the rows. -/
inductive Leads (id : Nat) (cursor : Cursor) (results : QueryResults) (read : List Datum) : Prop where
  | last (token : results.page.next? = none) (rows : read ++ results.rest = cursor.shown)
  | more (stop : Nat) (token : results.page.next? = some (pageToken id stop))
      (inside : stop < cursor.rows.length) (rows : read ++ results.rest = cursor.shown.take stop)

/-- The state of a reading of the rows kept under a number. -/
structure Keeps (id : Nat) (cursor : Cursor) (x : Reading) : Prop where
  numbered : x.store.CursorsNumbered
  used : id ≤ x.store.queried
  kept : x.store.cursors.at? id = some cursor ∨ x.store.cursors.at? id = none
  leads : Leads id cursor x.results x.read

/-- As long as there are more pages, the query is kept, and at most a number of younger ones are. -/
structure Safe (limits : StoreLimits) (id : Nat) (cursor : Cursor) (younger : Nat) (x : Reading) : Prop where
  limits : x.store.limits = limits
  holds : x.results.page.next?.isSome = true → Store.Holds x.store.cursors id cursor younger

variable {id : Nat} {cursor : Cursor} {x : Reading}

/-- The page after the one that is read. -/
theorem leads_pageFrom (limits : StoreLimits) {stop : Nat} {read : List Datum}
    (rows : read = cursor.shown.take stop) (query : Query) (handle? : Option Handle) :
    Leads id cursor ⟨query, handle?, Store.pageFrom limits id cursor stop, 0⟩ read := by
  have page : read ++ (QueryResults.mk query handle? (Store.pageFrom limits id cursor stop) 0).rest =
      cursor.shown.take (stop + limits.pageSize) := by
    rw [rows, ← List.take_append_drop stop (cursor.shown.take (stop + limits.pageSize)), List.take_take,
      Nat.min_eq_left (Nat.le_add_right _ _)]
    rfl
  by_cases more : stop + limits.pageSize < cursor.rows.length
  · exact Leads.more (stop + limits.pageSize) (if_pos more) more page
  · refine Leads.last (if_neg more) (page.trans ?_)
    rw [List.take_of_length_le]
    rw [cursor.length_shown]
    omega

/-- A page of rows that are left has one. -/
theorem rest_pageFrom (limits : StoreLimits) (id : Nat) {stop : Nat} (inside : stop < cursor.rows.length)
    (query : Query) (handle? : Option Handle) :
    (QueryResults.mk query handle? (Store.pageFrom limits id cursor stop) 0).rest ≠ [] := by
  have positive := limits.pageSize_pos
  intro empty
  have size := congrArg List.length empty
  simp only [QueryResults.rest, Store.pageFrom, List.drop_zero, List.length_drop, List.length_take,
    cursor.length_shown, List.length_nil] at size
  omega

/-- Reading a row of the page moves it from what is ahead to what is read. -/
theorem Leads.read {results : QueryResults} {read later : List Datum} {row : Datum}
    (leads : Leads id cursor results read) (rest : results.rest = row :: later) :
    Leads id cursor { results with position := results.position + 1 } (read ++ [row]) ∧
      ∃ further, cursor.shown = read ++ row :: further := by
  have tail : (QueryResults.mk results.query results.handle? results.page (results.position + 1)).rest = later := by
    have dropped := congrArg List.tail rest
    rwa [QueryResults.rest, List.tail_drop] at dropped
  cases leads with
  | last token rows =>
      rw [rest] at rows
      refine ⟨Leads.last token ?_, later, rows.symm⟩
      rw [tail, List.append_assoc, List.singleton_append, rows]
  | more stop token inside rows =>
      rw [rest] at rows
      refine ⟨Leads.more stop token inside ?_, later ++ cursor.shown.drop stop, ?_⟩
      · rw [tail, List.append_assoc, List.singleton_append, rows]
      · rw [← List.cons_append, ← List.append_assoc, rows, List.take_append_drop]

theorem Leads.isPrefix {results : QueryResults} {read : List Datum} (leads : Leads id cursor results read) :
    read <+: cursor.shown := by
  cases leads with
  | last token rows => exact ⟨results.rest, rows⟩
  | more stop token inside rows =>
      exact ⟨results.rest ++ cursor.shown.drop stop, by rw [← List.append_assoc, rows, List.take_append_drop]⟩

theorem Leads.unread {results : QueryResults} {read : List Datum} (leads : Leads id cursor results read)
    (rest : results.rest ≠ []) : read ≠ cursor.shown := by
  obtain ⟨row, later, split⟩ := List.exists_cons_of_ne_nil rest
  obtain ⟨-, further, ahead⟩ := leads.read split
  intro all
  rw [← all] at ahead
  exact absurd (List.self_eq_append_right.mp ahead) (List.cons_ne_nil row further)

/-- What comes of looking for a further row. -/
inductive Looks (id : Nat) (cursor : Cursor) (x after : Reading) : Except Error Bool → Prop where
  | found (rest : after.results.rest ≠ []) (unread : x.read ≠ cursor.shown) :
      Looks id cursor x after (.ok true)
  | ended (rest : after.results.rest = []) (all : x.read = cursor.shown) : Looks id cursor x after (.ok false)
  | dropped (stop : Nat) (pending : x.results.page.next?.isSome = true) (gone : x.store.cursors.at? id = none) :
      Looks id cursor x after (.error (CallFault.pageToken (pageToken id stop).describe).error)

/-- A page is fetched from the store.  If it is not the last one, the store keeps all that it kept. -/
theorem Keeps.turnPage (keeps : x.Keeps id cursor) (kept : x.store.cursors.at? id = some cursor) {stop : Nat}
    {read : List Datum} (rows : read = cursor.shown.take stop) :
    let after : Reading := ⟨{ x.results with page := Store.pageFrom x.store.limits id cursor stop, position := 0 },
      ((x.store.noting .runQuery).serve id (.int id) cursor stop).2, read⟩
    after.Keeps id cursor ∧
      (after.results.page.next?.isSome = true → after.store = x.store.noting .runQuery) := by
  have tends := x.store.tends_of_runQuery x.results.query x.results.handle? (pageToken id stop)
  rw [Store.runQuery_of_kept kept] at tends
  have held := tends.at?_eq keeps.numbered keeps.used
  rw [kept] at held
  refine ⟨⟨tends.numbered keeps.numbered, Nat.le_trans keeps.used tends.queried_le, held,
    leads_pageFrom x.store.limits rows _ _⟩, ?_⟩
  intro pending
  exact Store.serve_more (s := x.store.noting .runQuery) (Store.more_of_next? pending)

theorem Keeps.hasNext (keeps : x.Keeps id cursor) :
    (x.turn .hasNext).Keeps id cursor ∧ x.Looks id cursor (x.turn .hasNext) x.hasNext ∧
      ∀ limits younger, x.Safe limits id cursor younger → (x.turn .hasNext).Safe limits id cursor younger := by
  have looked : ∃ rounds, x.results.hasNext Store.remote x.store =
      QueryResults.advance Store.remote (rounds + 1) x.results x.store := ⟨_, rfl⟩
  obtain ⟨rounds, looked⟩ := looked
  unfold turn Reading.hasNext
  rw [looked]
  by_cases left : x.results.rest = []
  · cases keeps.leads with
    | last token rows =>
        rw [QueryResults.advance_of_last left token]
        refine ⟨keeps, Looks.ended left ?_, fun limits younger safe => safe⟩
        rw [← rows, left, List.append_nil]
    | more stop token inside rows =>
        rw [left, List.append_nil] at rows
        have pending : x.results.page.next?.isSome = true := by rw [token, Option.isSome_some]
        rw [QueryResults.advance_of_token left token, Store.remote_runQuery]
        rcases keeps.kept with kept | gone
        · obtain ⟨after, unchanged⟩ := keeps.turnPage kept rows
          have further := rest_pageFrom x.store.limits id inside x.results.query x.results.handle?
          rw [Store.runQuery_of_kept kept]
          dsimp only
          rw [QueryResults.advance_of_rest further]
          refine ⟨after, Looks.found further (after.leads.unread further), fun limits younger safe => ?_⟩
          refine ⟨?_, fun more => ?_⟩
          · obtain ⟨cursors, served⟩ := (x.store.noting .runQuery).serve_frame id (.int id) cursor stop
            rw [served]
            exact safe.limits
          · rw [unchanged more]
            exact safe.holds pending
        · rw [Store.runQuery_of_dropped gone]
          refine ⟨⟨⟨keeps.numbered.distinct, keeps.numbered.bounded⟩, keeps.used, Or.inr gone, keeps.leads⟩,
            Looks.dropped stop pending gone, fun limits younger safe => ⟨safe.limits, safe.holds⟩⟩
  · rw [QueryResults.advance_of_rest left]
    exact ⟨keeps, Looks.found left (keeps.leads.unread left), fun limits younger safe => safe⟩

theorem next_eq (x : Reading) :
    (x.next, x.turn .next) =
      match x.hasNext with
      | .error e => (.error e, x.turn .hasNext)
      | .ok _ =>
        match (x.turn .hasNext).results.rest with
        | [] => (.error (.failure .exhausted), x.turn .hasNext)
        | row :: _ =>
          (.ok row, ⟨{ (x.turn .hasNext).results with position := (x.turn .hasNext).results.position + 1 },
            (x.turn .hasNext).store, x.read ++ [row]⟩) := by
  have unread (results : QueryResults) (store : Store) (e : Error) :
      Reading.mk results store (x.read ++ (Except.error e : Except Error Datum).toOption.toList) =
        ⟨results, store, x.read⟩ := by
    rw [show (Except.error e : Except Error Datum).toOption.toList = [] from rfl, List.append_nil]
  unfold next turn hasNext
  rw [QueryResults.next_eq]
  rcases x.results.hasNext Store.remote x.store with ⟨⟨results, outcome⟩, store⟩
  cases outcome with
  | error e => exact congrArg (Prod.mk _) (unread _ _ _)
  | ok found =>
      dsimp only
      cases results.rest with
      | nil => exact congrArg (Prod.mk _) (unread _ _ _)
      | cons row rest => rfl

/-- What comes of reading the next row. -/
inductive Reads (id : Nat) (cursor : Cursor) (x after : Reading) : Except Error Datum → Prop where
  | row (row : Datum) (later : List Datum) (ahead : cursor.shown = x.read ++ row :: later)
      (read : after.read = x.read ++ [row]) : Reads id cursor x after (.ok row)
  | ended (all : x.read = cursor.shown) (read : after.read = x.read) :
      Reads id cursor x after (.error (.failure .exhausted))
  | dropped (stop : Nat) (pending : x.results.page.next?.isSome = true)
      (gone : x.store.cursors.at? id = none) (read : after.read = x.read) :
      Reads id cursor x after (.error (CallFault.pageToken (pageToken id stop).describe).error)

theorem Keeps.next (keeps : x.Keeps id cursor) :
    (x.turn .next).Keeps id cursor ∧ x.Reads id cursor (x.turn .next) x.next ∧
      ∀ limits younger, x.Safe limits id cursor younger → (x.turn .next).Safe limits id cursor younger := by
  obtain ⟨kept, looks, safe⟩ := keeps.hasNext
  have unread : (x.turn .hasNext).read = x.read := rfl
  have steps := x.next_eq
  generalize x.hasNext = outcome at looks steps
  generalize x.turn .hasNext = looked at kept looks safe steps unread
  cases looks with
  | found rest ahead =>
      obtain ⟨row, later, split⟩ := List.exists_cons_of_ne_nil rest
      simp only [split, Prod.mk.injEq] at steps
      obtain ⟨leads, further, ahead⟩ := kept.leads.read split
      rw [steps.1, steps.2]
      rw [unread] at leads ahead
      refine ⟨⟨kept.numbered, kept.used, kept.kept, leads⟩, Reads.row row further ahead rfl, ?_⟩
      intro limits younger before
      obtain ⟨same, holds⟩ := safe limits younger before
      exact ⟨same, holds⟩
  | ended rest all =>
      simp only [rest, Prod.mk.injEq] at steps
      rw [steps.1, steps.2]
      exact ⟨kept, Reads.ended all unread, safe⟩
  | dropped stop pending gone =>
      simp only [Prod.mk.injEq] at steps
      rw [steps.1, steps.2]
      exact ⟨kept, Reads.dropped stop pending gone unread, safe⟩

/-- What comes of reading all rows that are left. -/
inductive Drains (id : Nat) (cursor : Cursor) (x : Reading) : Except Error (List Datum) → Prop where
  | rows (more : List Datum) (all : x.read ++ more = cursor.shown) : Drains id cursor x (.ok more)
  | dropped (stop : Nat) (pending : x.results.page.next?.isSome = true) (gone : x.store.cursors.at? id = none) :
      Drains id cursor x (.error (CallFault.pageToken (pageToken id stop).describe).error)

/-- What comes of the page and of what is behind it.  A query that has more pages is not dropped by the fetch. -/
theorem Drains.behindPage {after : Reading} {outcome : Except Error (List Datum)}
    (drains : after.Drains id cursor outcome) (kept : x.store.cursors.at? id = some cursor)
    (read : after.read = x.read ++ x.results.rest)
    (unchanged : after.results.page.next?.isSome = true → after.store = x.store.noting .runQuery) :
    x.Drains id cursor (outcome.map (x.results.rest ++ ·)) := by
  cases drains with
  | rows more all =>
      rw [read, List.append_assoc] at all
      exact Drains.rows _ all
  | dropped stop further gone =>
      rw [unchanged further] at gone
      rw [show x.store.cursors.at? id = none from gone] at kept
      cases kept

/-- One round for each row that is not on the page is enough, since no page is empty. -/
theorem Keeps.drainPages (keeps : x.Keeps id cursor) {rounds : Nat}
    (enough : x.results.page.next?.isSome = true → 0 < rounds ∧ (x.store.cursors.at? id = some cursor →
      cursor.rows.length ≤ x.read.length + x.results.rest.length + rounds)) :
    x.Drains id cursor (QueryResults.drainPages Store.remote rounds x.results x.store).1.2 := by
  induction rounds generalizing x with
  | zero =>
      cases keeps.leads with
      | last token rows =>
          rw [QueryResults.drainPages_of_last token]
          exact Drains.rows _ rows
      | more stop token inside rows =>
          have pending : x.results.page.next?.isSome = true := by rw [token, Option.isSome_some]
          exact absurd (enough pending).1 (Nat.lt_irrefl 0)
  | succ rounds ih =>
      cases keeps.leads with
      | last token rows =>
          rw [QueryResults.drainPages_of_last token]
          exact Drains.rows _ rows
      | more stop token inside rows =>
          have pending : x.results.page.next?.isSome = true := by rw [token, Option.isSome_some]
          rw [QueryResults.drainPages_of_token token, Store.remote_runQuery]
          rcases keeps.kept with kept | gone
          · obtain ⟨after, unchanged⟩ := keeps.turnPage kept rows
            rw [Store.runQuery_of_kept kept]
            dsimp only
            have bound := (enough pending).2 kept
            have reached : x.read.length + x.results.rest.length = stop := by
              rw [← List.length_append, rows, List.length_take, cursor.length_shown, Nat.min_eq_left (by omega)]
            have positive := x.store.limits.pageSize_pos
            refine (ih after fun further => ?_).behindPage kept rfl unchanged
            have more := Store.more_of_next? further
            refine ⟨by omega, fun _ => ?_⟩
            have page : 0 < (QueryResults.mk x.results.query x.results.handle?
                (Store.pageFrom x.store.limits id cursor stop) 0).rest.length :=
              List.length_pos_iff.mpr (rest_pageFrom x.store.limits id inside _ _)
            dsimp only
            rw [List.length_append, reached]
            omega
          · rw [Store.runQuery_of_dropped gone]
            exact Drains.dropped stop pending gone

/-- A call of any client leaves the page and the rows that the token stands for. -/
theorem Keeps.call (keeps : x.Keeps id cursor) (request : Request) :
    (x.turn (.call request)).Keeps id cursor := by
  have tends := x.store.tends_of_perform request
  refine ⟨tends.numbered keeps.numbered, Nat.le_trans keeps.used tends.queried_le, ?_, keeps.leads⟩
  rcases tends.at?_eq keeps.numbered keeps.used with same | gone
  · exact keeps.kept.imp same.trans same.trans
  · exact Or.inr gone

theorem Keeps.turn (keeps : x.Keeps id cursor) (t : Turn) : (x.turn t).Keeps id cursor := by
  cases t with
  | call request => exact keeps.call request
  | hasNext => exact keeps.hasNext.1
  | next => exact keeps.next.1

/-- A reading after some turns. -/
def run (x : Reading) (turns : List Turn) : Reading := turns.foldl Reading.turn x

theorem Keeps.run (keeps : x.Keeps id cursor) (turns : List Turn) : (x.run turns).Keeps id cursor := by
  induction turns generalizing x with
  | nil => exact keeps
  | cons t rest ih => exact ih (keeps.turn t)

/-- A query is dropped only by a fetch of its pages that is not the reader's, or for younger ones. -/
theorem Safe.turn {limits : StoreLimits} {younger : Nat} (safe : x.Safe limits id cursor younger)
    (keeps : x.Keeps id cursor) {t : Turn} (unfetched : t.fetches id = false)
    (room : younger + t.starts.toNat < limits.maxCursors) :
    (x.turn t).Safe limits id cursor (younger + t.starts.toNat) := by
  cases t with
  | call request =>
      refine ⟨(x.store.limits_of_perform request).trans safe.limits, fun pending => ?_⟩
      exact (safe.holds pending).of_tends (x.store.tends_of_perform request) keeps.numbered keeps.used unfetched
        (safe.limits ▸ room)
  | hasNext => exact keeps.hasNext.2.2 limits younger safe
  | next => exact keeps.next.2.2 limits younger safe

theorem Safe.run {limits : StoreLimits} {younger : Nat} (safe : x.Safe limits id cursor younger)
    (keeps : x.Keeps id cursor) {turns : List Turn} (unfetched : ∀ t ∈ turns, t.fetches id = false)
    (room : younger + turns.countP Turn.starts < limits.maxCursors) :
    (x.run turns).Safe limits id cursor (younger + turns.countP Turn.starts) := by
  induction turns generalizing x younger with
  | nil => exact safe
  | cons t rest ih =>
      obtain ⟨unfetchedHere, unfetchedLater⟩ := List.forall_mem_cons.mp unfetched
      have split : (t :: rest).countP Turn.starts = t.starts.toNat + rest.countP Turn.starts := by
        rw [List.countP_cons, Nat.add_comm]
        cases t.starts <;> rfl
      rw [split] at room ⊢
      rw [← Nat.add_assoc]
      have next := safe.turn keeps unfetchedHere (by omega)
      exact ih next (keeps.turn t) unfetchedLater (by omega)

theorem Keeps.drain (keeps : x.Keeps id cursor) : x.Drains id cursor x.drain := by
  refine keeps.drainPages fun pending => ⟨Nat.succ_pos _, fun kept => ?_⟩
  have rounds := x.store.rows_lt_pagesLeft kept
  show _ ≤ _ + x.store.pagesLeft
  omega

/-- A reading begins with the first page.  If there are more pages the query is the newest one kept. -/
theorem keeps_firstPage {s : Store} (numbered : s.CursorsNumbered) (query : Query) (handle? : Option Handle)
    (cursor : Cursor) :
    let id := s.queried + 1
    let served := (s.keep cursor).2.serve id (.int id) cursor 0
    let x : Reading := ⟨⟨query, handle?, served.1, 0⟩, served.2, []⟩
    x.Keeps id cursor ∧ x.Safe s.limits id cursor 0 := by
  intro id served x
  have newest := Store.Holds.newest numbered cursor
  have page : served.1 = Store.pageFrom s.limits id cursor 0 := (s.keep cursor).2.serve_page id cursor 0
  have queried : served.2.queried = id := Store.serve_queried _ _ _ _ _
  have numberedNext : served.2.CursorsNumbered ∧
      (served.2.cursors.at? id = some cursor ∨ served.2.cursors.at? id = none) := by
    rcases (s.keep cursor).2.serve_cursors id (.int id) cursor 0 with ⟨-, -, same⟩ | ⟨-, -, removed⟩
    · have held := newest.at?_eq (numbered.keep cursor)
      refine ⟨⟨same ▸ (numbered.keep cursor).distinct, ?_⟩, Or.inl (same ▸ held)⟩
      exact same ▸ queried ▸ (numbered.keep cursor).bounded
    · refine ⟨(numbered.keep cursor).remove removed queried, Or.inr ?_⟩
      rw [removed]
      exact Bindings.at?_remove_self _ id
  have leads : Leads id cursor ⟨query, handle?, served.1, 0⟩ [] := by
    rw [page]
    exact leads_pageFrom s.limits rfl query handle?
  refine ⟨⟨numberedNext.1, Nat.le_of_eq queried.symm, numberedNext.2, leads⟩, ?_, fun pending => ?_⟩
  · obtain ⟨cursors, frame⟩ := (s.keep cursor).2.serve_frame id (.int id) cursor 0
    show served.2.limits = s.limits
    rw [show served.2 = _ from frame]
    rfl
  · have further : (Store.pageFrom s.limits id cursor 0).next?.isSome = true := page ▸ pending
    have same : served.2 = (s.keep cursor).2 := Store.serve_more (Store.more_of_next? further)
    show Store.Holds served.2.cursors id cursor 0
    rw [same]
    exact newest

theorem begins {s next : Store} (numbered : s.CursorsNumbered) {query : Query} {handle? : Option Handle}
    {r : QueryResults} (started : QueryResults.start Store.remote query handle? s = (.ok r, next)) :
    ∃ stored cursor, s.seen? handle? = some stored ∧ Store.rowsOver stored query = .ok cursor ∧
      (Reading.mk r next []).Keeps (s.queried + 1) cursor ∧
      (Reading.mk r next []).Safe s.limits (s.queried + 1) cursor 0 := by
  simp only [QueryResults.start, bind, StateT.bind, Store.remote_runQuery] at started
  cases executed : (s.noting .runQuery).execute query handle? with
  | error e =>
      rw [Store.runQuery_of_failed executed] at started
      cases started
  | ok found =>
      obtain ⟨cursor, executing⟩ := found
      obtain ⟨stored, transactions, seen, rows, same⟩ := Store.rowsOver_of_executed executed
      have seenHere : s.seen? handle? = some stored := by
        rw [← seen]
        cases handle? <;> rfl
      have numberedHere : executing.CursorsNumbered := by
        rw [same]
        exact ⟨numbered.distinct, numbered.bounded⟩
      have first := keeps_firstPage numberedHere query handle? cursor
      have queried : executing.queried = s.queried := by rw [same]; rfl
      have limits : executing.limits = s.limits := by rw [same]; rfl
      rw [Store.runQuery_of_executed executed] at started
      cases started
      rw [queried, limits] at first
      exact ⟨stored, cursor, seenHere, rows, queried ▸ first.1, queried ▸ first.2⟩

/-- Runs a query through the client, or through a transaction. -/
def opening (t? : Option Transaction) (query : Query) : StateM Store (Except Error QueryResults) :=
  match t? with
  | none => Client.run Store.remote query
  | some t => t.run Store.remote query

theorem start_of_opening {s next : Store} {t? : Option Transaction} {query : Query} {r : QueryResults}
    (opened : opening t? query s = (.ok r, next)) :
    QueryResults.start Store.remote query (t?.map Transaction.handle) s = (.ok r, next) := by
  cases t? with
  | none => exact opened
  | some t =>
      obtain ⟨h, state, mutations⟩ := t
      cases state with
      | active => exact opened
      | committed => cases opened
      | rolledBack => cases opened

/-- A query is read as it was when it was run, whatever is called between the steps of the reader, or a step fails
because the store has dropped the query. -/
theorem reads_rows (limits : StoreLimits) (requests : List Request) {t? : Option Transaction} {query : Query}
    {r : QueryResults} {next : Store}
    (opened : opening t? query (Store.reached limits requests) = (.ok r, next)) :
    let s := Store.reached limits requests
    let id := s.queried + 1
    ∃ stored cursor, s.seen? (t?.map Transaction.handle) = some stored ∧
      Store.rowsOver stored query = .ok cursor ∧
      ∀ turns, let x := (Reading.mk r next []).run turns
        x.read <+: cursor.shown ∧ x.Reads id cursor (x.turn .next) x.next ∧
          x.Looks id cursor (x.turn .hasNext) x.hasNext ∧ x.Drains id cursor x.drain ∧
          (turns.countP Turn.starts < limits.maxCursors → (∀ t ∈ turns, t.fetches id = false) →
            x.results.page.next?.isSome = true → x.store.cursors.at? id = some cursor) := by
  intro s id
  have numbered := Store.cursorsNumbered_reached limits requests
  obtain ⟨stored, cursor, seen, rows, keeps, safe⟩ := begins numbered (start_of_opening opened)
  refine ⟨stored, cursor, seen, rows, fun turns => ?_⟩
  intro x
  have kept := keeps.run turns
  refine ⟨kept.leads.isPrefix, kept.next.2.1, kept.hasNext.2.1, kept.drain, ?_⟩
  intro few unfetched pending
  have room : 0 + turns.countP Turn.starts < (Store.reached limits requests).limits.maxCursors := by
    rw [Store.limits_reached]
    omega
  exact ((safe.run keeps unfetched room).holds pending).at?_eq kept.numbered

/-- The second row is read though its entity is deleted before its page is fetched. -/
theorem reads_rows_after_delete :
    let key (n : EntityId) : Key := ⟨⟨⟨"app", by decide⟩, none, [], ⟨"Task", by decide⟩⟩, .id n⟩
    let first := key ⟨1, by decide⟩
    let second := key ⟨2, by decide⟩
    let limits : StoreLimits := ⟨1, 1, by decide, by decide⟩
    let requests : List Request :=
      [.commit [⟨.put, .entity (.keyed ⟨.stored, first, []⟩)⟩,
        ⟨.put, .entity (.keyed ⟨.stored, second, []⟩)⟩] none]
    let query : Query := .structured ⟨.keyOnly, none, some "Task", none, [], [], [], none, 0⟩
    let turns : List Turn := [.next, .call (.commit [⟨.delete, .key (.complete second)⟩] none)]
    ∃ r next, opening none query (Store.reached limits requests) = (.ok r, next) ∧
      ((Reading.mk r next []).run turns).read = [.key (.complete first)] ∧
      ((Reading.mk r next []).run turns).drain = .ok [.key (.complete second)] := by
  intro key first second limits requests query turns
  have started : (opening none query (Store.reached limits requests)).1.toOption.isSome = true := by
    decide +revert
  have computed : Store.rowsOver (Store.reached limits requests).entities query =
      .ok ⟨.keyOnly, [.key first, .key second]⟩ := by
    subst turns query requests limits second first key
    cbv
  rcases opened : opening none query (Store.reached limits requests) with ⟨_ | r, next⟩
  · rw [opened] at started
    cases started
  obtain ⟨stored, cursor, seen, rows, reads⟩ := reads_rows limits requests opened
  cases seen
  cases rows.symm.trans computed
  have one : ((Reading.mk r next []).run turns).read = [.key (.complete first)] := by
    obtain ⟨-, step, -, -, kept⟩ := reads []
    generalize ((Reading.mk r next []).run []).next = outcome at step
    cases step with
    | row row later ahead read =>
        cases ahead
        exact read
    | ended all => cases all
    | dropped stop pending gone =>
        cases (kept (by decide) (fun _ none => absurd none List.not_mem_nil) pending).symm.trans gone
  obtain ⟨-, -, -, drains, kept⟩ := reads turns
  refine ⟨r, next, rfl, one, ?_⟩
  generalize ((Reading.mk r next []).run turns).drain = outcome at drains ⊢
  cases drains with
  | rows more all =>
      rw [one] at all
      cases all
      rfl
  | dropped stop pending gone =>
      cases (kept (by decide) (by decide) pending).symm.trans gone

end Reading

end EntityStore
