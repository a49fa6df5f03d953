import EntityStore.Client.Staging

set_option autoImplicit false

namespace EntityStore

structure Batch where
  mutations : List Mutation
  active : Bool

namespace Batch

def empty : Batch := ⟨[], true⟩

def check (b : Batch) : Except Error Unit := if b.active then .ok () else .error (.inactive "Batch")

/-- Stages mutations of a kind for some data, after those staged before. -/
def stage (b : Batch) (kind : MutationKind) (arguments : List Datum) : Except Error Batch := do
  b.check
  let added ← Mutation.stage kind arguments
  return { b with mutations := b.mutations ++ added }

/-- Submits all mutations.  Whatever comes of it, the batch cannot be used again. -/
def submit {σ : Type} (remote : Remote σ) (b : Batch) :
    StateM σ (Batch × Except Error CommitResult) := do
  match b.check with
  | .error e => return (b, .error e)
  | .ok () => return ({ b with active := false }, ← remote.submit b.mutations none)

end Batch

end EntityStore
