import EntityStore.Proofs.Commit
import EntityStore.Proofs.Reads

set_option autoImplicit false

namespace EntityStore

theorem Counters.Mints.grow {counters next last : Counters} {keys : List Key}
    (minted : Mints counters next keys) (grows : next.GrowsTo last) : Mints counters last keys := by
  have extended := minted.append grows.mints
  rwa [List.append_nil] at extended

namespace Store

/-- What holds of what is stored in a store that was filled by calls. -/
structure Sound (s : Store) : Prop where
  filed : Filed s.entities
  distinct : s.versions.names.Nodup
  complete : ∀ k ∈ s.versions.names, k.isComplete = true
  bounded : ∀ k, s.versionOf k ≤ s.version

theorem sound_empty (limits : StoreLimits) : (empty limits).Sound :=
  ⟨Filed.nil, List.nodup_nil, by simp [empty, Bindings.names], fun _ => Nat.le_refl 0⟩

/-- From one store to a later one, certain keys are written and certain keys are given out. -/
structure Changes (s next : Store) (written issued : List Key) : Prop where
  limits : next.limits = s.limits
  version : s.version ≤ next.version
  stamped : ∀ k v, v ≤ s.version →
    (v < next.versionOf (.complete k) ↔ v < s.versionOf (.complete k) ∨ k ∈ written)
  frame : ∀ k, k ∉ written → next.entities.at? k = s.entities.at? k
  minted : Counters.Mints s.counters next.counters issued
  covered : ∀ k ∈ written, Counters.Covers next.counters k
  sound : s.Sound → next.Sound

theorem changes_of_same {s next : Store} {issued : List Key} (limits : next.limits = s.limits)
    (entities : next.entities = s.entities) (version : next.version = s.version)
    (versions : next.versions = s.versions)
    (minted : Counters.Mints s.counters next.counters issued) : Changes s next [] issued where
  limits := limits
  version := Nat.le_of_eq version.symm
  stamped k v _ := by simp [versionOf, versions]
  frame k _ := by rw [entities]
  minted := minted
  covered := by simp
  sound sound := by
    refine ⟨entities ▸ sound.filed, versions ▸ sound.distinct, versions ▸ sound.complete, ?_⟩
    intro k
    simpa only [versionOf, versions, version] using sound.bounded k

theorem Changes.append {s next last : Store} {written issued further more : List Key}
    (early : Changes s next written issued) (late : Changes next last further more) :
    Changes s last (written ++ further) (issued ++ more) where
  limits := late.limits.trans early.limits
  version := Nat.le_trans early.version late.version
  stamped k v old := by
    rw [late.stamped k v (Nat.le_trans old early.version), early.stamped k v old, List.mem_append,
      or_assoc]
  frame k unwritten := by
    rw [List.mem_append, not_or] at unwritten
    rw [late.frame k unwritten.2, early.frame k unwritten.1]
  minted := early.minted.append late.minted
  covered k member := by
    rcases List.mem_append.mp member with old | new
    · exact (early.covered k old).mono late.minted.grows
    · exact late.covered k new
  sound sound := late.sound (early.sound sound)

theorem versionOf_touching (s : Store) (touched : List AnyKey) (k : AnyKey) :
    (s.touching touched).versionOf k = if k ∈ touched then s.version + 1 else s.versionOf k := by
  rw [versionOf, touching, Bindings.at?_foldl_put]
  split <;> rfl

theorem sound_touching {s : Store} (sound : s.Sound) {touched : List AnyKey}
    (complete : ∀ k ∈ touched, k.isComplete = true) : (s.touching touched).Sound where
  filed := sound.filed
  distinct := Bindings.nodup_foldl_put touched (s.version + 1) sound.distinct
  complete k named := by
    rcases (Bindings.mem_names_foldl_put touched (s.version + 1) s.versions k).mp named with new | old
    · exact complete k new
    · exact sound.complete k old
  bounded k := by
    rw [versionOf_touching]
    split
    · exact Nat.le_refl _
    · exact Nat.le_succ_of_le (sound.bounded k)

/-- A commit that succeeds writes the keys that its mutations name and those that it made. -/
theorem changes_of_applied {s : Store} {mutations : List Mutation} {p : Progress}
    {made written : List Key} (handle? : Option Handle)
    (adds : Progress.Adds (s.reserved mutations) mutations s.progress p made written) :
    Changes s ((s.closing handle?).applying p written) (namedKeys mutations ++ made) made where
  limits := rfl
  version := Nat.le_succ s.version
  stamped k v old := by
    have stamp : ((s.closing handle?).applying p written).versionOf (.complete k) =
        if AnyKey.complete k ∈ written.map AnyKey.complete then s.version + 1
        else s.versionOf (.complete k) := (s.closing handle?).versionOf_touching _ _
    have member : AnyKey.complete k ∈ written.map AnyKey.complete ↔ k ∈ namedKeys mutations ++ made := by
      rw [List.mem_append, ← adds.keys k]
      simp
    rw [stamp]
    by_cases here : k ∈ namedKeys mutations ++ made
    · rw [if_pos (member.mpr here)]
      simp only [here, or_true, iff_true]
      omega
    · rw [if_neg (mt member.mp here)]
      simp only [here, or_false]
  frame k unwritten := by
    refine adds.frame k ?_
    rwa [adds.keys k, ← List.mem_append]
  minted := adds.minted.grow (Counters.growsTo_foldl_reserve written p.counters)
  covered k member := by
    rw [List.mem_append, ← adds.keys k] at member
    exact Counters.covers_foldl_reserve member p.counters
  sound sound := by
    have closed : (s.closing handle?).Sound :=
      ⟨sound.filed, sound.distinct, sound.complete, sound.bounded⟩
    have complete : ∀ k ∈ written.map AnyKey.complete, k.isComplete = true := by
      simp [AnyKey.isComplete]
    have moved := sound_touching closed complete
    exact ⟨adds.filed sound.filed, moved.distinct, moved.complete, moved.bounded⟩

theorem changes_of_commit (s : Store) {mutations : List Mutation} (staged : Staged mutations)
    (handle? : Option Handle) :
    Changes s (s.commit mutations handle?).2
      (Event.commit mutations handle? (s.commit mutations handle?).1).written
      (Event.commit mutations handle? (s.commit mutations handle?).1).issued := by
  obtain ⟨response, next, committed, ends⟩ := s.commit_ends staged handle?
  rw [committed]
  have unchanged : Counters.Mints s.counters s.counters [] := (Counters.GrowsTo.refl _).mints
  cases ends with
  | unknown h named unknown => exact changes_of_same rfl rfl rfl rfl unchanged
  | conflict h t k named found conflict => exact changes_of_same rfl rfl rfl rfl unchanged
  | refused r counters clear grows unmet => exact changes_of_same rfl rfl rfl rfl grows.mints
  | failed e counters clear grows => exact changes_of_same rfl rfl rfl rfl grows.mints
  | applied p made written clear met adds => exact changes_of_applied handle? adds

theorem changes_of_allocateIds (s : Store) (keys : List Datum) :
    Changes s (s.allocateIds keys).2 []
      (Event.allocateIds keys (s.allocateIds keys).1).issued := by
  unfold allocateIds
  split
  · exact changes_of_same rfl rfl rfl rfl (Counters.GrowsTo.refl _).mints
  · next spaces _ =>
      refine changes_of_same rfl rfl rfl rfl ?_
      cases answer : (Counters.allocateAll s.entities.names s.counters spaces).1 with
      | error e =>
          simp only [noting, answer]
          exact (Counters.growsTo_allocateAll _ _ _).mints
      | ok made =>
          simp only [noting, answer]
          exact (Counters.mints_of_allocateAll answer).1

/-- One call. -/
theorem changes_of_perform (s : Store) {request : Request} (staged : request.IsStaged) :
    Changes s (s.perform request).2 (s.perform request).1.written (s.perform request).1.issued := by
  have unchanged : Counters.Mints s.counters s.counters [] := (Counters.GrowsTo.refl _).mints
  cases request with
  | lookup keys handle? =>
      obtain ⟨transactions, frame⟩ := s.lookup_frame keys handle?
      show Changes s (s.lookup keys handle?).2 [] []
      rw [frame]
      exact changes_of_same rfl rfl rfl rfl unchanged
  | runQuery query handle? token =>
      obtain ⟨transactions, cursors, queried, frame⟩ := s.runQuery_frame query handle? token
      show Changes s (s.runQuery query handle? token).2 [] []
      rw [frame]
      exact changes_of_same rfl rfl rfl rfl unchanged
  | commit mutations handle? => exact s.changes_of_commit staged handle?
  | beginTransaction => exact changes_of_same rfl rfl rfl rfl unchanged
  | rollback h => exact changes_of_same rfl rfl rfl rfl unchanged
  | allocateIds keys => exact s.changes_of_allocateIds keys

/-- Any number of calls. -/
theorem changes_of_run (s : Store) {requests : List Request}
    (staged : ∀ request ∈ requests, request.IsStaged) :
    Changes s (s.run requests).2 ((s.run requests).1.flatMap Event.written)
      ((s.run requests).1.flatMap Event.issued) := by
  induction requests generalizing s with
  | nil => exact changes_of_same rfl rfl rfl rfl (Counters.GrowsTo.refl _).mints
  | cons request rest ih =>
      obtain ⟨stagedHere, stagedLater⟩ := List.forall_mem_cons.mp staged
      rw [run_cons, List.flatMap_cons, List.flatMap_cons]
      exact (s.changes_of_perform stagedHere).append (ih _ stagedLater)

theorem sound_reached (limits : StoreLimits) {requests : List Request}
    (staged : ∀ request ∈ requests, request.IsStaged) : (reached limits requests).Sound :=
  ((empty limits).changes_of_run staged).sound (sound_empty limits)

end Store

end EntityStore
