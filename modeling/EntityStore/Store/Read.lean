import EntityStore.Store.Basic

set_option autoImplicit false

namespace EntityStore

/-- Only complete keys can be looked up. -/
def Key.checkAll : List Datum → Except Error (List Key)
  | [] => .ok []
  | .key (.complete k) :: rest => (k :: ·) <$> checkAll rest
  | d :: _ => .error (CallFault.lookupKey d.describe).error

namespace OpenTransaction

/-- The transaction has read some keys. -/
def reading (t : OpenTransaction) (keys : List Key) : OpenTransaction :=
  { t with reads := t.reads ++ keys }

/-- The transaction has queried at and below some keys. -/
def watching (t : OpenTransaction) (scopes : List Key) : OpenTransaction :=
  { t with scopes := t.scopes ++ scopes }

end OpenTransaction

/-- A row as a datum. -/
def Row.datum : Row → Datum
  | .entity e => .entity (.keyed e)
  | .key k => .key (.complete k)

/-- The items between two places, where negative places count from the end. -/
def slice {α : Type} (items : List α) (start stop : Int) : List α :=
  let place (n : Int) : Nat := (if n < 0 then n + items.length else n).toNat
  (items.take (place stop)).drop (place start)

namespace Store

/-- Looks up entities. -/
def lookup (s : Store) (keys : List Key) (handle? : Option Handle) :
    Except Error (List (Option Entity)) × Store :=
  let s := s.noting .lookup
  match handle? with
  | none => (.ok (keys.map s.entities.at?), s)
  | some h =>
    match s.transactions.at? h with
    | none => (.error (.unknownTransaction h.text), s)
    | some t =>
      (.ok (keys.map t.snapshot.at?),
        { s with transactions := s.transactions.put h (t.reading keys) })

/-- The rows of a query over some entities, and the keys of the selected entities. -/
def answer (q : StructuredQuery) (entities : Bindings Key Entity) (objects : Place → Place := id) :
    Except Error (Cursor × List Key) := do
  q.check
  let selected := q.select (entities.map Prod.snd)
  return (⟨q.resultType, q.window (q.rows selected objects)⟩, selected.map (·.key))

/-- Computes all rows of a query. -/
def execute (s : Store) (query : Query) (handle? : Option Handle) (objects : Place → Place := id) :
    Except Error (Cursor × Store) := do
  let q ← query.toStructured
  match handle? with
  | none => return ((← answer q s.entities objects).1, s)
  | some h =>
    match s.transactions.at? h with
    | none => throw (.unknownTransaction h.text)
    | some t =>
      let (cursor, keys) ← answer q t.snapshot objects
      let read := (t.reading keys).watching q.scopes
      return (cursor, { s with transactions := s.transactions.put h read })

/-- Serves the page from a place on.  A query is forgotten once its last page is served. -/
def serve (s : Store) (id : Nat) (token : Datum) (cursor : Cursor) (start : Int) :
    QueryPage × Store :=
  let stop := start + s.limits.pageSize
  let results := (slice cursor.rows start stop).map Row.datum
  if stop < cursor.rows.length then
    (⟨results, cursor.resultType, some (.tuple [token, .int stop])⟩, s)
  else (⟨results, cursor.resultType, none⟩, { s with cursors := s.cursors.remove id })

/-- Keeps a new query, and drops the oldest ones if there are too many. -/
def keep (s : Store) (cursor : Cursor) : Nat × Store :=
  let id := s.queried + 1
  let cursors := s.cursors.put id cursor
  (id, { s with
    queried := id
    cursors := cursors.drop (cursors.length - s.limits.maxCursors) })

/-- The unfinished query that a token names, and the place in it. -/
def resume? (s : Store) (token : Datum) : Option (Nat × Datum × Cursor × Datum) := do
  match ← token.parts? with
  | [name, start] =>
    let id ← name.integer?
    if id < 0 then none
    let cursor ← s.cursors.at? id.toNat
    return (id.toNat, name, cursor, start)
  | _ => none

/-- Runs a query and serves its first page, or serves the page that a token asks for. -/
def runQuery (s : Store) (query : Query) (handle? : Option Handle) (token : Datum) :
    Except Error QueryPage × Store :=
  let s := s.noting .runQuery
  match token with
  | .none =>
    match s.execute query handle? with
    | .error e => (.error e, s)
    | .ok (cursor, s) =>
      let (id, s) := s.keep cursor
      let (page, s) := s.serve id (.int id) cursor 0
      (.ok page, s)
  | token =>
    match s.resume? token with
    | none => (.error (CallFault.pageToken token.describe).error, s)
    | some (id, name, cursor, start) =>
      match start with
      | .int n =>
        let (page, s) := s.serve id name cursor n
        (.ok page, s)
      | .bool b =>
        let (page, s) := s.serve id name cursor (if b then 1 else 0)
        (.ok page, s)
      | _ => (.error (.failure .argumentType), s)

end Store

end EntityStore
