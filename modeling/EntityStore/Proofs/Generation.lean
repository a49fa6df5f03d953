import EntityStore.Proofs.Availability
import EntityStore.Store.Memory

/-!
The keys made for entities that are added without.  A key that is made is neither named in its commit nor
stored at the time, so nothing else in the commit touches what is stored under it.
-/

set_option autoImplicit false

namespace EntityStore

/-- What was added without a key is stored under a key of its space. -/
structure Mutation.FiledAs (stored : Bindings Key Entity) (m : Mutation) (k : Key) : Prop where
  space : k.toPartialKey = m.key.toPartialKey
  entity : stored.at? k = some ⟨.stored, k, m.properties⟩

/-- What the outcome of a commit says about keys: there is a different one for each addition without a key, in
their order, under which that addition is stored.  The number of keys is never a reason to fail. -/
structure Generates (mutations : List Mutation) (outcome : Except Error CommitResult) (after : Store) :
    Prop where
  distinct : ∀ result, outcome = .ok result → result.generated.Nodup
  inOrder : ∀ result, outcome = .ok result →
    List.Forall₂ (Mutation.FiledAs after.entities) (mutations.filter Mutation.needsId) result.generated
  counted : ∀ assigned expected, outcome ≠ .error (.keyCount assigned expected)

namespace Progress

variable {reserved : List Key} {p q : Progress} {m : Mutation}

/-- A mutation changes nothing under a stored key that it does not name. -/
theorem Writes.keeps (writes : Writes reserved p m q) {k : Key} {e : Entity} (unnamed : m.key ≠ .complete k)
    (stored : p.entities.at? k = some e) : q.entities.at? k = some e := by
  cases writes with
  | removed named kind key =>
      have other : named ≠ k := fun same => unnamed (same ▸ key)
      exact (Bindings.at?_remove_of_ne _ other).trans stored
  | stored named kind key _ _ =>
      have other : named ≠ k := fun same => unnamed (same ▸ key)
      exact (Bindings.at?_put_of_ne _ _ other).trans stored
  | made space fresh counters kind key found =>
      have free := (Counters.mints_of_allocate found).2.2
      have other : fresh ≠ k := by
        rintro rfl
        have absent : p.entities.at? fresh = none :=
          (Bindings.at?_eq_none_iff _ fresh).mpr fun bound => free (List.mem_append_right _ bound)
        rw [absent] at stored
        cases stored
      exact (Bindings.at?_put_of_ne _ _ other).trans stored

theorem Applies.keeps {mutations : List Mutation} (applied : Applies reserved p mutations q)
    (stageable : ∀ m ∈ mutations, m.isStageable = true) {k : Key} {e : Entity}
    (unnamed : k ∉ namedKeys mutations) (stored : p.entities.at? k = some e) :
    q.entities.at? k = some e := by
  induction applied with
  | done p => exact stored
  | @next p q r m rest first later ih =>
      obtain ⟨stageableHere, stageableLater⟩ := List.forall_mem_cons.mp stageable
      rw [mem_namedKeys_cons, not_or] at unnamed
      exact ih stageableLater unnamed.2 ((writes_of_apply stageableHere first).keeps unnamed.1 stored)

/-- A mutation adds something without a key, which is then stored under the key made for it, or no key is
made. -/
theorem Writes.files (writes : Writes reserved p m q) :
    (m.needsId = false ∧ q.assigned = p.assigned) ∨
      ∃ k, m.needsId = true ∧ q.assigned = p.assigned ++ [k] ∧ k ∉ reserved ∧ m.FiledAs q.entities k := by
  cases writes with
  | removed k kind key => exact Or.inl ⟨by simp [Mutation.needsId, kind], rfl⟩
  | stored k kind key _ _ => exact Or.inl ⟨by simp [Mutation.needsId, key, AnyKey.isComplete], rfl⟩
  | made space k counters kind key found =>
      obtain ⟨-, own, free⟩ := Counters.mints_of_allocate found
      have unreserved : k ∉ reserved := fun taken => free (List.mem_append_left _ taken)
      refine Or.inr ⟨k, by simp [Mutation.needsId, kind, key, AnyKey.isComplete], rfl, unreserved, ?_, ?_⟩
      · rw [own, key]
        rfl
      · exact Bindings.at?_put_self _ _ _

/-- What some mutations add without keys is stored, when all of them have been applied, under the keys made
for it. -/
theorem Applies.files {mutations : List Mutation} (applied : Applies reserved p mutations q)
    (stageable : ∀ m ∈ mutations, m.isStageable = true)
    (named : ∀ k ∈ namedKeys mutations, k ∈ reserved) :
    ∃ made, q.assigned = p.assigned ++ made ∧
      List.Forall₂ (Mutation.FiledAs q.entities) (mutations.filter Mutation.needsId) made := by
  induction applied with
  | done p => exact ⟨[], (List.append_nil _).symm, List.Forall₂.nil⟩
  | @next p q r m rest first later ih =>
      obtain ⟨stageableHere, stageableLater⟩ := List.forall_mem_cons.mp stageable
      have namedLater : ∀ k ∈ namedKeys rest, k ∈ reserved := fun k member =>
        named k ((mem_namedKeys_cons m rest k).mpr (Or.inr member))
      obtain ⟨made, assigned, filed⟩ := ih stageableLater namedLater
      rcases (writes_of_apply stageableHere first).files with ⟨given, same⟩ | ⟨k, lacking, one, unreserved, here⟩
      · refine ⟨made, by rw [assigned, same], ?_⟩
        rwa [List.filter_cons_of_neg (by simp [given])]
      · refine ⟨k :: made, by rw [assigned, one, List.append_assoc, List.singleton_append], ?_⟩
        -- The rest names reserved keys only, so it leaves alone what is stored under the key made here.
        have unnamed : k ∉ namedKeys rest := fun known => unreserved (namedLater k known)
        rw [List.filter_cons_of_pos lacking]
        exact List.Forall₂.cons ⟨here.space, later.keeps stageableLater unnamed here.entity⟩ filed

end Progress

/-- The ways in which staged mutations are answered, as far as keys are concerned. -/
inductive Settles (mutations : List Mutation) (after : Store) : Except Error CommitResponse → Prop where
  | refused (r : Refusal) : Settles mutations after (.ok r.response)
  | unfound (n : Int) : Settles mutations after (.error (KeyFault.idRange n).error)
  | applied (made : List Key) (distinct : made.Nodup)
      (filed : List.Forall₂ (Mutation.FiledAs after.entities) (mutations.filter Mutation.needsId) made) :
      Settles mutations after (.ok ⟨made, none⟩)

namespace Store

theorem settles_of_applyMutations (s : Store) {mutations : List Mutation} (staged : Staged mutations)
    (handle? : Option Handle) :
    Settles mutations ((s.closing handle?).applyMutations mutations).2
      ((s.closing handle?).applyMutations mutations).1 := by
  have stageable := (staged_iff mutations).mp staged
  rcases ended : Progress.applyAll (s.reserved mutations) s.progress mutations with ⟨p, halt | ⟨⟩⟩
  · cases halt with
    | refused r =>
        rw [applyMutations_of_refused (s := s.closing handle?) ended]
        exact Settles.refused r
    | failed e =>
        obtain ⟨before, m, after, -, -, halted⟩ := Progress.applies_of_halt ended
        obtain ⟨space, -, -, unfound⟩ := Progress.space_of_failed halted
        obtain ⟨n, -, -, -, search⟩ :=
          Counters.allocate_search p.counters (s.reserved mutations ++ p.entities.names) space
        rw [applyMutations_of_failed (s := s.closing handle?) ended]
        rw [search] at unfound
        split at unfound
        · cases unfound
        · cases unfound
          exact Settles.unfound n
  · have applied := Progress.applies_of_applyAll ended
    have named : ∀ k ∈ namedKeys mutations, k ∈ s.reserved mutations := fun k member =>
      List.mem_append_right _ member
    obtain ⟨made, written, adds⟩ := applied.adds stageable
    obtain ⟨filedKeys, assigned, filed⟩ := applied.files stageable named
    have same : filedKeys = made := List.append_cancel_left (assigned.symm.trans adds.assigned)
    rw [applyMutations_of_applied (s := s.closing handle?) ended adds]
    exact Settles.applied made adds.minted.distinct (same ▸ filed)

theorem settles_of_commit (s : Store) {mutations : List Mutation} (staged : Staged mutations)
    (handle? : Option Handle) :
    Settles mutations (s.commit mutations handle?).2 (s.commit mutations handle?).1 := by
  cases handle? with
  | none => exact s.settles_of_applyMutations staged none
  | some h =>
      cases found : s.transactions.at? h with
      | none =>
          rw [commit_of_unknown found]
          exact Settles.refused _
      | some t =>
          cases conflict : t.conflict? s mutations with
          | none =>
              rw [commit_of_clear found conflict]
              exact s.settles_of_applyMutations staged (some h)
          | some k =>
              rw [commit_of_conflict found conflict]
              exact Settles.refused _

/-- What a client is told about mutations that it submits. -/
theorem submit_remote (s : Store) (mutations : List Mutation) (handle? : Option Handle) :
    remote.submit mutations handle? s =
      ((s.commit mutations handle?).1.bind (·.result mutations), (s.commit mutations handle?).2) := by
  have asked : remote.commit mutations handle? s = s.commit mutations handle? := rfl
  rcases committed : s.commit mutations handle? with ⟨response, next⟩
  simp only [Remote.submit, bind, StateT.bind, asked, committed]
  cases response with
  | error e => rfl
  | ok response => rfl

theorem generates_of_submit (s : Store) {mutations : List Mutation} (staged : Staged mutations)
    (handle? : Option Handle) :
    Generates mutations (remote.submit mutations handle? s).1 (remote.submit mutations handle? s).2 := by
  have settles := s.settles_of_commit staged handle?
  rw [submit_remote]
  dsimp only
  generalize (s.commit mutations handle?).1 = response, (s.commit mutations handle?).2 = after at settles
  cases settles with
  | refused r => exact ⟨nofun, nofun, nofun⟩
  | unfound n => exact ⟨nofun, nofun, nofun⟩
  | applied made distinct filed =>
      have count : made.length = mutations.countP Mutation.needsId := by
        rw [List.countP_eq_length_filter, filed.length_eq]
      have answer : (Except.ok ⟨made, none⟩ : Except Error CommitResponse).bind (·.result mutations) =
          .ok ⟨made⟩ := if_pos count
      rw [answer]
      refine ⟨?_, ?_, nofun⟩
      · rintro result succeeded
        cases succeeded
        exact distinct
      · rintro result succeeded
        cases succeeded
        exact filed

end Store

end EntityStore
