import EntityStore.Error.Code
import EntityStore.Error.Failure
import EntityStore.Error.Invalid

set_option autoImplicit false

namespace EntityStore

/-- The states of a transaction. -/
inductive TransactionState where
  | active | committed | rolledBack
deriving DecidableEq

def TransactionState.name : TransactionState → String
  | .active => "active"
  | .committed => "committed"
  | .rolledBack => "rolled_back"

inductive Error where
  | invalid (fault : Invalid)
  /-- A property holds a value of another sort than the one read. -/
  | propertyType (property : String) (expected actual : Variant)
  /-- An entity lacks a property; these it has. -/
  | propertyMissing (property : String) (known : List String)
  /-- A batch, or another writer, is used after it was submitted. -/
  | inactive (label : String)
  /-- A transaction is used after its end. -/
  | finished (state : TransactionState)
  /-- A store does not know a transaction, or no longer. -/
  | unknownTransaction (handle : String)
  /-- A store rejected mutations. -/
  | rejected (code : ErrorCode) (message : String) (mutations : List String)
  /-- A store assigned another number of keys than were asked for. -/
  | keyCount (assigned expected : Nat)
  /-- A store failed. -/
  | remote (code : ErrorCode) (message : String)
  | failure (cause : Failure)
deriving DecidableEq

theorem bind_eq_ok_iff {ε α β : Type} {x : Except ε α} {f : α → Except ε β} {b : β} :
    x >>= f = .ok b ↔ ∃ a, x = .ok a ∧ f a = .ok b := by
  cases x <;> simp [bind, Except.bind]

theorem map_eq_ok_iff {ε α β : Type} {x : Except ε α} {f : α → β} {b : β} :
    f <$> x = .ok b ↔ ∃ a, x = .ok a ∧ f a = b := by
  cases x <;> simp [Functor.map, Except.map]

end EntityStore
