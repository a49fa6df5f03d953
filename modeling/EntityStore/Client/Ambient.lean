import EntityStore.Client.Transaction

set_option autoImplicit false

namespace EntityStore

/-- A coordinator with the transactions that it has taken on. -/
structure Coordinator (τ : Type) where
  offered : List τ

/-- Offers a transaction to the coordinator, if there is one, which then takes it on. -/
def Coordinator.offer {τ : Type} (current? : Option (Coordinator τ)) (transaction : τ) :
    Bool × Option (Coordinator τ) :=
  match current? with
  | none => (false, none)
  | some c => (true, some ⟨c.offered ++ [transaction]⟩)

/-- What is known of a coordinated transaction: its result, once it is committed. -/
structure Synchronization where
  result? : Option CommitResult

namespace Synchronization

variable {σ : Type}

def empty : Synchronization := ⟨none⟩

/-- Commits the transaction. -/
def before (remote : Remote σ) (s : Synchronization) (t : Transaction) :
    StateM σ (Synchronization × Transaction × Except Error Unit) := do
  match ← t.commit remote with
  | (t, .ok result) => return (⟨some result⟩, t, .ok ())
  | (t, .error e) => return (s, t, .error e)

/-- Gives the transaction up if the coordinator failed before it was committed. -/
def after (remote : Remote σ) (s : Synchronization) (t : Transaction) (committed : Bool) :
    StateM σ (Transaction × Except Error Unit) :=
  if committed || s.result?.isSome then return (t, .ok ()) else t.rollback remote

end Synchronization

end EntityStore
