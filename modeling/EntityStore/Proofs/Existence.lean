import EntityStore.Proofs.Application

set_option autoImplicit false

namespace EntityStore

/-- Why a mutation cannot be applied when certain keys are stored. -/
def Mutation.unmet? (stored : Key → Bool) (m : Mutation) : Option Refusal :=
  match m.kind, m.key with
  | .add, .complete k => if stored k then some (.present k) else none
  | .update, .complete k => if stored k then none else some (.absent k)
  | _, _ => none

/-- Which keys are stored after a mutation, apart from a key made for it. -/
def Mutation.storedAfter (stored : Key → Bool) (m : Mutation) (k : Key) : Bool :=
  if m.key = .complete k then m.kind ≠ .delete else stored k

/-- The first demand of some mutations that is not met. -/
def firstUnmet : (Key → Bool) → List Mutation → Option Refusal
  | _, [] => none
  | stored, m :: rest => (m.unmet? stored).or (firstUnmet (m.storedAfter stored) rest)

theorem mem_namedKeys_cons (m : Mutation) (rest : List Mutation) (k : Key) :
    k ∈ namedKeys (m :: rest) ↔ m.key = .complete k ∨ k ∈ namedKeys rest := by
  cases key : m.key with
  | incomplete space => simp [namedKeys, key, AnyKey.key?]
  | complete other => simp [namedKeys, key, AnyKey.key?, eq_comm]

/-- Only the named keys matter. -/
theorem firstUnmet_congr {mutations : List Mutation} {stored other : Key → Bool}
    (agree : ∀ k ∈ namedKeys mutations, stored k = other k) :
    firstUnmet stored mutations = firstUnmet other mutations := by
  induction mutations generalizing stored other with
  | nil => rfl
  | cons m rest ih =>
      have demand : m.unmet? stored = m.unmet? other := by
        unfold Mutation.unmet?
        split
        · next k _ key => rw [agree k ((mem_namedKeys_cons m rest k).mpr (Or.inl key))]
        · next k _ key => rw [agree k ((mem_namedKeys_cons m rest k).mpr (Or.inl key))]
        · rfl
      have later : firstUnmet (m.storedAfter stored) rest = firstUnmet (m.storedAfter other) rest := by
        refine ih fun k member => ?_
        unfold Mutation.storedAfter
        rw [agree k ((mem_namedKeys_cons m rest k).mpr (Or.inr member))]
      rw [firstUnmet, firstUnmet, demand, later]

namespace Progress

theorem Writes.unmet? {reserved : List Key} {p q : Progress} {m : Mutation}
    (writes : Writes reserved p m q) : m.unmet? p.entities.binds = none := by
  unfold Mutation.unmet?
  cases writes with
  | removed k kind key => simp [kind]
  | stored k kind key unmet met =>
      split
      · next other add same =>
          rw [key] at same
          cases same
          simp [unmet add]
      · next other update same =>
          rw [key] at same
          cases same
          simp [met update]
      · rfl
  | made space k counters kind key found => simp [kind, key]

/-- A key that is reserved is not made, so it is stored afterwards only if it is named or was stored. -/
theorem Writes.binds {reserved : List Key} {p q : Progress} {m : Mutation}
    (writes : Writes reserved p m q) {k : Key} (named : k ∈ reserved) :
    q.entities.binds k = m.storedAfter p.entities.binds k := by
  unfold Mutation.storedAfter
  cases writes with
  | removed other kind key =>
      rw [Bindings.binds_remove]
      by_cases here : k = other
      · simp [key, here, kind]
      · simp [key, here, Ne.symm here]
  | stored other kind key _ _ =>
      simp only [store, Bindings.binds_put]
      by_cases here : k = other
      · simp [key, here, kind]
      · simp [key, here, Ne.symm here]
  | made space other counters kind key found =>
      have free := (Counters.mints_of_allocate found).2.2
      have here : k ≠ other := fun same => free (List.mem_append_left _ (same ▸ named))
      simp [store, Bindings.binds_put, key, here]

theorem unmet?_of_refused {reserved : List Key} {p : Progress} {m : Mutation} {r : Refusal}
    (stageable : m.isStageable = true) (halted : p.apply reserved m = .error (.refused r)) :
    m.unmet? p.entities.binds = some r := by
  unfold apply at halted
  split at halted
  · cases halted
  · cases halted
  · split at halted <;> cases halted
  · next space kind key => cases kind.symm.trans (Mutation.kind_of_incomplete stageable key)
  · next space kind key => cases kind.symm.trans (Mutation.kind_of_incomplete stageable key)
  · next k kind key =>
      split at halted
      · next present =>
          cases halted
          simp [Mutation.unmet?, kind, key, present]
      · cases halted
  · next k kind key =>
      split at halted
      · cases halted
      · next absent =>
          cases halted
          simp [Mutation.unmet?, kind, key, absent]
  · cases halted

theorem Applies.firstUnmet {reserved : List Key} {p q : Progress} {before : List Mutation}
    (applied : Applies reserved p before q) (after : List Mutation)
    (stageable : ∀ m ∈ before, m.isStageable = true)
    (named : ∀ k ∈ namedKeys (before ++ after), k ∈ reserved) :
    firstUnmet p.entities.binds (before ++ after) = firstUnmet q.entities.binds after := by
  induction applied with
  | done p => rfl
  | @next p q r m rest first later ih =>
      obtain ⟨stageableHere, stageableLater⟩ := List.forall_mem_cons.mp stageable
      have writes := writes_of_apply stageableHere first
      have namedLater : ∀ k ∈ namedKeys (rest ++ after), k ∈ reserved := fun k member =>
        named k ((mem_namedKeys_cons m (rest ++ after) k).mpr (Or.inr member))
      rw [← ih stageableLater namedLater,
        List.cons_append, EntityStore.firstUnmet, writes.unmet?, Option.none_or]
      exact firstUnmet_congr fun k member => (writes.binds (namedLater k member)).symm

end Progress

end EntityStore
