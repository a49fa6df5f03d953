import EntityStore.Client.Staging
import EntityStore.Key.Draft

set_option autoImplicit false

namespace EntityStore

/-- A key factory with its settings as they come; they are checked when a key is made. -/
structure KeyFactory where
  dataset : Datum
  namespaceName : Datum
  ancestors : List Datum
  kind : Datum

namespace KeyFactory

variable {σ : Type}

/-- A factory for a dataset and a namespace. -/
def start (dataset namespaceName : Datum) : KeyFactory := ⟨dataset, namespaceName, [], .none⟩

/-- The partial key that all keys are made from. -/
def space (f : KeyFactory) : Except Error PartialKey :=
  match f.kind with
  | .none => .error (.invalid (.call .factoryKind))
  | kind => PartialKey.create f.dataset kind f.namespaceName (.tuple f.ancestors)

/-- A key with a given id or name, or a partial key. -/
def newKey (f : KeyFactory) (identifier : Datum) : Except Error AnyKey := do
  let space ← f.space
  match identifier with
  | .none => return .incomplete space
  | identifier =>
    let draft ← KeyDraft.start (.key (.incomplete space)) [identifier]
    return .complete (← draft.build)

/-- A number of keys with ids from the store, in one call. -/
def allocate (remote : Remote σ) (f : KeyFactory) (count : Nat) :
    StateM σ (Except Error (List Key)) :=
  match f.space with
  | .error e => return .error e
  | .ok space => remote.allocateIds (List.replicate count (.key (.incomplete space)))

/-- As many keys as a number says, which may not be negative. -/
def allocateIds (remote : Remote σ) (f : KeyFactory) (count : Datum) :
    StateM σ (Except Error (List Key)) :=
  match count.number? with
  | none => return .error (.failure .argumentType)
  | some (.inl n) =>
    if n < 0 then return .error (.invalid (.call .negativeCount)) else f.allocate remote n.toNat
  | some (.inr x) =>
    if x.below (Double.ofMagnitude false 0) then return .error (.invalid (.call .negativeCount))
    else
      match f.space with
      | .error e => return .error e
      | .ok _ => return .error (.failure .argumentType)

end KeyFactory

end EntityStore
