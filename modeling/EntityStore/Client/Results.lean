import EntityStore.Client.Staging

set_option autoImplicit false

namespace EntityStore

structure QueryResults where
  query : Query
  handle? : Option Handle
  page : QueryPage
  /-- The number of rows read of the page. -/
  position : Nat

namespace QueryResults

variable {σ : Type}

/-- Runs a query and holds its first page. -/
def start (remote : Remote σ) (query : Query) (handle? : Option Handle) :
    StateM σ (Except Error QueryResults) := do
  match ← remote.runQuery query handle? .none with
  | .error e => return .error e
  | .ok page => return .ok ⟨query, handle?, page, 0⟩

def resultType (r : QueryResults) : ResultType := r.page.resultType

/-- Looks for a page with a row that is not read yet, in a number of pages at most. -/
def advance (remote : Remote σ) :
    Nat → QueryResults → StateM σ (QueryResults × Except Error Bool)
  | rounds, r => do
    if r.position < r.page.results.length then return (r, .ok true)
    match r.page.next?, rounds with
    | none, _ => return (r, .ok false)
    | some _, 0 => return (r, .ok false)
    | some token, rounds + 1 =>
      match ← remote.runQuery r.query r.handle? token with
      | .error e => return (r, .error e)
      | .ok page => advance remote rounds { r with page, position := 0 }

/-- Whether there is a further row. -/
def hasNext (remote : Remote σ) (r : QueryResults) :
    StateM σ (QueryResults × Except Error Bool) := do
  advance remote (remote.pagesLeft (← get)) r

/-- The next row. -/
def next (remote : Remote σ) (r : QueryResults) :
    StateM σ (QueryResults × Except Error Datum) := do
  match ← hasNext remote r with
  | (r, .error e) => return (r, .error e)
  | (r, .ok _) =>
    match r.page.results[r.position]? with
    | some row => return ({ r with position := r.position + 1 }, .ok row)
    | none => return (r, .error (.failure .exhausted))

/-- The rows not read yet, from a number of pages at most. -/
def drainPages (remote : Remote σ) :
    Nat → QueryResults → StateM σ (QueryResults × Except Error (List Datum))
  | rounds, r => do
    let rows := r.page.results.drop r.position
    let read := { r with position := r.position + rows.length }
    match r.page.next?, rounds with
    | none, _ => return (read, .ok rows)
    | some _, 0 => return (read, .ok rows)
    | some token, rounds + 1 =>
      match ← remote.runQuery r.query r.handle? token with
      | .error e => return (read, .error e)
      | .ok page =>
        let (r, more) ← drainPages remote rounds { r with page, position := 0 }
        return (r, more.map (rows ++ ·))

/-- All rows not read yet. -/
def drain (remote : Remote σ) (r : QueryResults) :
    StateM σ (QueryResults × Except Error (List Datum)) := do
  drainPages remote (remote.pagesLeft (← get)) r

end QueryResults

end EntityStore
