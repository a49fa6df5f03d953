import EntityStore.Proofs.Allocation
import EntityStore.Proofs.Selection
import EntityStore.Proofs.Staging
import EntityStore.Store.Commit

set_option autoImplicit false

namespace EntityStore

theorem Bindings.binds_put (b : Bindings Key Entity) (key other : Key) (e : Entity) :
    (b.put key e).binds other = (decide (other = key) || b.binds other) := by
  rw [binds, at?_put]
  by_cases here : key = other
  · simp [here]
  · simp [here, Ne.symm here, binds]

theorem Bindings.binds_remove (b : Bindings Key Entity) (key other : Key) :
    (b.remove key).binds other = (decide (other ≠ key) && b.binds other) := by
  rw [binds, at?_remove]
  by_cases here : key = other
  · simp [here]
  · simp [here, Ne.symm here, binds]

/-- The spaces in which mutations ask for keys, in order. -/
def requestedSpaces (mutations : List Mutation) : List PartialKey :=
  mutations.filterMap fun m => if m.needsId then some m.key.toPartialKey else none

namespace Progress

/-- What a staged mutation does to a commit under way. -/
inductive Writes (reserved : List Key) (p : Progress) (m : Mutation) : Progress → Prop where
  | removed (k : Key) (kind : m.kind = .delete) (key : m.key = .complete k) :
      Writes reserved p m
        { p with entities := p.entities.remove k, touched := p.touched ++ [.complete k] }
  | stored (k : Key) (kind : m.kind ≠ .delete) (key : m.key = .complete k)
      (unmet : m.kind = .add → p.entities.binds k = false)
      (met : m.kind = .update → p.entities.binds k = true) :
      Writes reserved p m (p.store ⟨m.shape, k, m.properties⟩)
  | made (space : PartialKey) (k : Key) (counters : Counters) (kind : m.kind = .add)
      (key : m.key = .incomplete space)
      (found : p.counters.allocate (reserved ++ p.entities.names) space = .ok (k, counters)) :
      Writes reserved p m
        ({ p with counters, assigned := p.assigned ++ [k] }.store ⟨.stored, k, m.properties⟩)

theorem writes_of_apply {reserved : List Key} {p q : Progress} {m : Mutation}
    (stageable : m.isStageable = true) (applied : p.apply reserved m = .ok q) :
    Writes reserved p m q := by
  unfold apply at applied
  split at applied
  · next space kind key => cases kind.symm.trans (Mutation.kind_of_incomplete stageable key)
  · next k kind key =>
      cases applied
      exact Writes.removed k kind key
  · next space kind key =>
      split at applied
      · cases applied
      · next k counters found =>
          cases applied
          exact Writes.made space k counters kind key found
  · cases applied
  · cases applied
  · next k kind key =>
      split at applied
      · cases applied
      · next absent =>
          cases applied
          exact Writes.stored k (by simp [kind]) key (fun _ => by simpa using absent) (by simp [kind])
  · next k kind key =>
      split at applied
      · next present =>
          cases applied
          exact Writes.stored k (by simp [kind]) key (by simp [kind]) (fun _ => present)
      · cases applied
  · next k kind key =>
      cases applied
      exact Writes.stored k (by simp [kind]) key (by simp [kind]) (by simp [kind])

/-- No mutation lowers a counter. -/
theorem growsTo_of_apply {reserved : List Key} {p q : Progress} {m : Mutation}
    (applied : p.apply reserved m = .ok q) : p.counters.GrowsTo q.counters := by
  unfold apply at applied
  split at applied
  · cases applied
    exact Counters.GrowsTo.refl _
  · cases applied
    exact Counters.GrowsTo.refl _
  · split at applied
    · cases applied
    · next k counters found =>
        cases applied
        exact (Counters.mints_of_allocate found).1.grows
  · cases applied
  · cases applied
  · split at applied
    · cases applied
    · cases applied
      exact Counters.GrowsTo.refl _
  · split at applied
    · cases applied
      exact Counters.GrowsTo.refl _
    · cases applied
  · cases applied
    exact Counters.GrowsTo.refl _

/-- Mutations that are applied one after the other. -/
inductive Applies (reserved : List Key) : Progress → List Mutation → Progress → Prop where
  | done (p : Progress) : Applies reserved p [] p
  | next {p q r : Progress} {m : Mutation} {rest : List Mutation}
      (first : p.apply reserved m = .ok q) (later : Applies reserved q rest r) :
      Applies reserved p (m :: rest) r

theorem applies_of_applyAll {reserved : List Key} {p q : Progress} {mutations : List Mutation}
    (ended : applyAll reserved p mutations = (q, .ok ())) : Applies reserved p mutations q := by
  induction mutations generalizing p with
  | nil =>
      cases ended
      exact Applies.done _
  | cons m rest ih =>
      rw [applyAll] at ended
      split at ended
      · next next first => exact Applies.next first (ih ended)
      · cases ended

/-- The mutations before the one that halts a commit are applied. -/
theorem applies_of_halt {reserved : List Key} {p q : Progress} {mutations : List Mutation} {halt : Halt}
    (ended : applyAll reserved p mutations = (q, .error halt)) :
    ∃ before m after, mutations = before ++ m :: after ∧ Applies reserved p before q ∧
      q.apply reserved m = .error halt := by
  induction mutations generalizing p with
  | nil => cases ended
  | cons m rest ih =>
      rw [applyAll] at ended
      split at ended
      · next next first =>
          obtain ⟨before, last, after, rfl, applied, halted⟩ := ih ended
          exact ⟨m :: before, last, after, rfl, Applies.next first applied, halted⟩
      · next halted first =>
          cases ended
          exact ⟨[], m, rest, rfl, Applies.done _, first⟩

theorem Applies.growsTo {reserved : List Key} {p q : Progress} {mutations : List Mutation}
    (applied : Applies reserved p mutations q) : p.counters.GrowsTo q.counters := by
  induction applied with
  | done p => exact Counters.GrowsTo.refl _
  | next first _ ih => exact (growsTo_of_apply first).trans ih

/-- What mutations add to a commit under way: the keys made, and all the keys written. -/
structure Adds (reserved : List Key) (mutations : List Mutation) (p q : Progress)
    (made written : List Key) : Prop where
  assigned : q.assigned = p.assigned ++ made
  touched : q.touched = p.touched ++ written.map .complete
  keys : ∀ k, k ∈ written ↔ k ∈ namedKeys mutations ∨ k ∈ made
  minted : Counters.Mints p.counters q.counters made
  spaces : made.map Key.toPartialKey = requestedSpaces mutations
  unreserved : ∀ k ∈ made, k ∉ reserved
  frame : ∀ k, k ∉ written → q.entities.at? k = p.entities.at? k
  filed : Filed p.entities → Filed q.entities

theorem Adds.append {reserved : List Key} {first second : List Mutation} {p q r : Progress}
    {made written more further : List Key} (early : Adds reserved first p q made written)
    (late : Adds reserved second q r more further) :
    Adds reserved (first ++ second) p r (made ++ more) (written ++ further) where
  assigned := by rw [late.assigned, early.assigned, List.append_assoc]
  touched := by rw [late.touched, early.touched, List.append_assoc, List.map_append]
  keys k := by
    rw [namedKeys, List.filterMap_append, List.mem_append, List.mem_append, List.mem_append,
      early.keys, late.keys]
    exact or_or_or_comm
  minted := early.minted.append late.minted
  spaces := by
    rw [requestedSpaces, List.filterMap_append, List.map_append, early.spaces, late.spaces]
    rfl
  unreserved k member := by
    rcases List.mem_append.mp member with old | new
    · exact early.unreserved k old
    · exact late.unreserved k new
  frame k unwritten := by
    rw [List.mem_append, not_or] at unwritten
    rw [late.frame k unwritten.2, early.frame k unwritten.1]
  filed before := late.filed (early.filed before)

theorem Writes.adds {reserved : List Key} {p q : Progress} {m : Mutation}
    (writes : Writes reserved p m q) : ∃ made written, Adds reserved [m] p q made written := by
  cases writes with
  | removed k kind key =>
      refine ⟨[], [k], (List.append_nil _).symm, rfl, ?_, (Counters.GrowsTo.refl _).mints, ?_, by simp,
        ?_, fun before => before.remove k⟩
      · simp [namedKeys, key, AnyKey.key?]
      · simp [requestedSpaces, Mutation.needsId, kind]
      · intro other unwritten
        exact Bindings.at?_remove_of_ne _ fun same => unwritten (by simp [same])
  | stored k kind key _ _ =>
      refine ⟨[], [k], (List.append_nil _).symm, rfl, ?_, (Counters.GrowsTo.refl _).mints, ?_, by simp,
        ?_, fun before => before.put ⟨m.shape, k, m.properties⟩⟩
      · simp [namedKeys, key, AnyKey.key?]
      · simp [requestedSpaces, Mutation.needsId, key, AnyKey.isComplete]
      · intro other unwritten
        exact Bindings.at?_put_of_ne _ _ fun same => unwritten (by simp [← same])
  | made space k counters kind key found =>
      obtain ⟨minted, own, free⟩ := Counters.mints_of_allocate found
      refine ⟨[k], [k], rfl, rfl, ?_, minted, ?_, ?_, ?_,
        fun before => before.put ⟨.stored, k, m.properties⟩⟩
      · simp [namedKeys, key, AnyKey.key?]
      · simp [requestedSpaces, Mutation.needsId, kind, key, AnyKey.isComplete, AnyKey.toPartialKey, own]
      · intro other member
        rw [List.mem_singleton.mp member]
        exact fun taken => free (List.mem_append_left _ taken)
      · intro other unwritten
        exact Bindings.at?_put_of_ne _ _ fun same => unwritten (by simp [← same])

theorem Applies.adds {reserved : List Key} {p q : Progress} {mutations : List Mutation}
    (applied : Applies reserved p mutations q)
    (stageable : ∀ m ∈ mutations, m.isStageable = true) :
    ∃ made written, Adds reserved mutations p q made written := by
  induction applied with
  | done p =>
      exact ⟨[], [], (List.append_nil _).symm, (List.append_nil _).symm, by simp [namedKeys],
        (Counters.GrowsTo.refl _).mints, rfl, by simp, fun _ _ => rfl, id⟩
  | next first _ ih =>
      obtain ⟨stageableHere, stageableLater⟩ := List.forall_mem_cons.mp stageable
      obtain ⟨made, written, early⟩ := (writes_of_apply stageableHere first).adds
      obtain ⟨more, further, late⟩ := ih stageableLater
      exact ⟨made ++ more, written ++ further, early.append late⟩

end Progress

end EntityStore
