import EntityStore.Client.Batch
import EntityStore.Client.Transaction

set_option autoImplicit false

namespace EntityStore

/-- The lists of mutations that can be staged, call by call. -/
inductive Staged : List Mutation → Prop where
  | empty : Staged []
  | call {mutations added : List Mutation} (kind : MutationKind) (arguments : List Datum)
      (before : Staged mutations) (accepted : Mutation.stage kind arguments = .ok added) :
      Staged (mutations ++ added)

private theorem added_of_accepted {σ : Type} {check : Except Error Unit}
    {made : Except Error (List Mutation)} {extend : List Mutation → σ} {next : σ}
    (accepted : (do check; let added ← made; return extend added) = Except.ok next) :
    ∃ added, made = .ok added ∧ extend added = next := by
  cases check with
  | error e => cases accepted
  | ok _ =>
      cases made with
      | error e => cases accepted
      | ok added => exact ⟨added, rfl, Except.ok.inj accepted⟩

theorem Batch.staged_of_stage {b next : Batch} {kind : MutationKind} {arguments : List Datum}
    (before : Staged b.mutations) (accepted : b.stage kind arguments = .ok next) :
    Staged next.mutations := by
  obtain ⟨added, made, rfl⟩ := added_of_accepted accepted
  exact Staged.call kind arguments before made

theorem Transaction.staged_of_stage {t next : Transaction} {kind : MutationKind}
    {arguments : List Datum} (before : Staged t.mutations)
    (accepted : t.stage kind arguments = .ok next) : Staged next.mutations := by
  obtain ⟨added, made, rfl⟩ := added_of_accepted accepted
  exact Staged.call kind arguments before made

namespace Mutation

/-- Whether a mutation is one that staging makes. -/
def isStageable (m : Mutation) : Bool :=
  match m.kind, m.subject with
  | .add, .entity _ => true
  | .put, .entity (.keyed _) => true
  | .update, .entity (.keyed _) => true
  | .delete, .key (.complete _) => true
  | _, _ => false

theorem stageable_of_stage {kind : MutationKind} {arguments : List Datum} {made : List Mutation}
    (accepted : stage kind arguments = .ok made) : ∀ m ∈ made, m.isStageable = true := by
  have mapped : ∀ {α : Type} (checked : Except Error (List α)) (f : α → Mutation),
      (List.map f <$> checked) = .ok made → (∀ x, (f x).isStageable = true) →
      ∀ m ∈ made, m.isStageable = true := by
    intro α checked f built all m member
    cases checked with
    | error e => cases built
    | ok items =>
        cases built
        obtain ⟨x, -, rfl⟩ := List.mem_map.mp member
        exact all x
  cases kind with
  | add => exact mapped _ _ accepted fun _ => rfl
  | put => exact mapped _ _ accepted fun _ => rfl
  | update => exact mapped _ _ accepted fun _ => rfl
  | delete => exact mapped _ _ accepted fun _ => rfl

/-- Each such mutation can be staged on its own. -/
theorem exists_stage_of_stageable {m : Mutation} (stageable : m.isStageable = true) :
    ∃ argument, stage m.kind [argument] = .ok [m] := by
  obtain ⟨kind, subject⟩ := m
  cases kind with
  | add =>
      rcases subject with e | k
      · exact ⟨.entity e, rfl⟩
      · cases stageable
  | put =>
      rcases subject with (⟨k, properties⟩ | e) | k
      · cases stageable
      · exact ⟨.entity (.keyed e), rfl⟩
      · cases stageable
  | update =>
      rcases subject with (⟨k, properties⟩ | e) | k
      · cases stageable
      · exact ⟨.entity (.keyed e), rfl⟩
      · cases stageable
  | delete =>
      rcases subject with e | (space | k)
      · cases stageable
      · cases stageable
      · exact ⟨.key (.complete k), rfl⟩

/-- Only what is added may lack an id or name. -/
theorem kind_of_incomplete {m : Mutation} {space : PartialKey} (stageable : m.isStageable = true)
    (lacking : m.key = .incomplete space) : m.kind = .add := by
  obtain ⟨kind, subject⟩ := m
  cases kind with
  | add => rfl
  | put =>
      rcases subject with (⟨k, properties⟩ | e) | k
      · cases stageable
      · cases lacking
      · cases stageable
  | update =>
      rcases subject with (⟨k, properties⟩ | e) | k
      · cases stageable
      · cases lacking
      · cases stageable
  | delete =>
      rcases subject with e | (other | k)
      · cases stageable
      · cases stageable
      · cases lacking

end Mutation

/-- What is staged are the lists of such mutations. -/
theorem staged_iff (mutations : List Mutation) :
    Staged mutations ↔ ∀ m ∈ mutations, m.isStageable = true := by
  constructor
  · intro staged
    induction staged with
    | empty => simp
    | call kind arguments before accepted ih =>
        intro m member
        rcases List.mem_append.mp member with old | new
        · exact ih m old
        · exact Mutation.stageable_of_stage accepted m new
  · intro stageable
    suffices extended : ∀ before, Staged before → Staged (before ++ mutations) from
      extended [] Staged.empty
    induction mutations with
    | nil =>
        intro before staged
        rwa [List.append_nil]
    | cons m rest ih =>
        intro before staged
        obtain ⟨stageableHere, stageableLater⟩ := List.forall_mem_cons.mp stageable
        obtain ⟨argument, made⟩ := Mutation.exists_stage_of_stageable stageableHere
        have next := ih stageableLater (before ++ [m]) (Staged.call m.kind [argument] staged made)
        rwa [List.append_assoc] at next

instance (mutations : List Mutation) : Decidable (Staged mutations) :=
  decidable_of_iff _ (staged_iff mutations).symm

end EntityStore
