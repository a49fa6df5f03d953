import EntityStore.Error.Basic
import EntityStore.Store.Mutation

set_option autoImplicit false

namespace EntityStore

/-- What a store calls a transaction. -/
structure Handle where
  text : String
deriving DecidableEq

/-- Why a commit was refused as a whole. -/
structure Rejection where
  code : ErrorCode
  message : String
deriving DecidableEq

/-- The answer to a commit: the keys made for the entities that came without, in order, and the reason
if it was refused. -/
structure CommitResponse where
  assigned : List Key
  rejection? : Option Rejection
deriving DecidableEq

/-- One page of the rows of a query.  If there are more rows, a token asks for the next page. -/
structure QueryPage where
  results : List Datum
  resultType : ResultType
  next? : Option Datum

/-- The calls that a store answers. -/
inductive StoreCall where
  | lookup | runQuery | commit | beginTransaction | rollback | allocateIds
deriving DecidableEq

def StoreCall.name : StoreCall → String
  | .lookup => "lookup"
  | .runQuery => "run_query"
  | .commit => "commit"
  | .beginTransaction => "begin_transaction"
  | .rollback => "rollback"
  | .allocateIds => "allocate_ids"

/-- The operations of a store with states of some type. -/
structure Remote (σ : Type) where
  /-- The entities under some keys, in the order of the keys. -/
  lookup : List Key → Option Handle → StateM σ (Except Error (List (Option Entity)))
  /-- The first page of a query, or the one that a token asks for. -/
  runQuery : Query → Option Handle → Datum → StateM σ (Except Error QueryPage)
  /-- Applies all mutations in order, or none of them. -/
  commit : List Mutation → Option Handle → StateM σ (Except Error CommitResponse)
  beginTransaction : StateM σ Handle
  rollback : Handle → StateM σ Unit
  /-- A key with a fresh id for each partial key, in order. -/
  allocateIds : List Datum → StateM σ (Except Error (List Key))
  /-- At least the number of pages that can still follow a page. -/
  pagesLeft : σ → Nat

end EntityStore
