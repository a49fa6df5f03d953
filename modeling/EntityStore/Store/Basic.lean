import EntityStore.Query.Run
import EntityStore.Store.Remote

set_option autoImplicit false

namespace EntityStore

/-- The fault as an error. -/
def CallFault.error (fault : CallFault) : Error := .invalid (.call fault)

/-- How many rows a page holds, and how many unfinished queries are kept. -/
structure StoreLimits where
  pageSize : Nat
  maxCursors : Nat
  pageSize_pos : 0 < pageSize
  maxCursors_pos : 0 < maxCursors

def StoreLimits.create (pageSize maxCursors : Int) : Except Error StoreLimits :=
  if hp : 0 < pageSize then
    if hc : 0 < maxCursors then
      .ok ⟨pageSize.toNat, maxCursors.toNat, by omega, by omega⟩
    else .error CallFault.maxCursors.error
  else .error CallFault.pageSize.error

def StoreLimits.standard : StoreLimits := ⟨50, 100, by decide, by decide⟩

/-- A transaction that is neither committed nor rolled back: the entities and the version when it
began, the keys that it has read, and the keys at or below which it has queried. -/
structure OpenTransaction where
  snapshot : Bindings Key Entity
  version : Nat
  reads : List Key
  scopes : List Key

/-- All rows of a query that has not been served to the end. -/
structure Cursor where
  resultType : ResultType
  rows : List Row

structure Store where
  limits : StoreLimits
  entities : Bindings Key Entity
  /-- The version of the last successful commit. -/
  version : Nat
  /-- The version of the last successful commit that named a key. -/
  versions : Bindings AnyKey Nat
  transactions : Bindings Handle OpenTransaction
  /-- The number of transactions begun so far. -/
  begun : Nat
  /-- The greatest id used so far in each space of ids. -/
  counters : Bindings PartialKey Nat
  /-- Unfinished queries, the oldest first. -/
  cursors : Bindings Nat Cursor
  /-- The number of queries begun so far. -/
  queried : Nat
  calls : List StoreCall

namespace Store

def empty (limits : StoreLimits) : Store :=
  { limits, entities := [], version := 0, versions := [], transactions := [], begun := 0,
    counters := [], cursors := [], queried := 0, calls := [] }

/-- The store after a call has been noted. -/
def noting (s : Store) (call : StoreCall) : Store := { s with calls := s.calls ++ [call] }

/-- The version at which a key changed last, zero if it never did. -/
def versionOf (s : Store) (k : AnyKey) : Nat := (s.versions.at? k).getD 0

/-- The greatest id used so far in a space. -/
def counterOf (s : Store) (space : PartialKey) : Nat := (s.counters.at? space).getD 0

def entityCount (s : Store) : Nat := s.entities.length

/-- The handle of the transaction with a number. -/
def handle (number : Nat) : Handle := ⟨"txn-" ++ toString number⟩

/-- Begins a transaction, which sees the entities as they are now. -/
def beginTransaction (s : Store) : Handle × Store :=
  let s := s.noting .beginTransaction
  let h := handle (s.begun + 1)
  (h, { s with
    begun := s.begun + 1
    transactions := s.transactions.put h ⟨s.entities, s.version, [], []⟩ })

/-- Forgets a transaction. -/
def rollback (s : Store) (h : Handle) : Store :=
  let s := s.noting .rollback
  { s with transactions := s.transactions.remove h }

end Store

end EntityStore
