import EntityStore.Proofs.Changes

/-!
How long a space has ids left.  Ids are looked for above the counter of the space alone, so what counts is
where the counter stands: one key with the greatest id exhausts a space in which all other ids are free.
-/

set_option autoImplicit false

namespace EntityStore

theorem EntityId.ofInt?_of_le {n : Nat} (positive : 0 < n) (within : n ≤ maxId) :
    ∃ id, EntityId.ofInt? n = some id := by
  have inRange : 1 ≤ (n : Int) ∧ (n : Int) ≤ maxId := by omega
  exact ⟨_, dif_pos inRange⟩

theorem EntityId.ofInt?_of_gt {n : Nat} (beyond : maxId < n) : EntityId.ofInt? n = none := by
  have outside : ¬ (1 ≤ (n : Int) ∧ (n : Int) ≤ maxId) := by omega
  exact dif_neg outside

theorem mem_usedIds_iff (taken : List Key) (space : PartialKey) (n : Nat) :
    n ∈ usedIds taken space ↔
      ∃ k ∈ taken, k.toPartialKey = space ∧ ∃ id, k.identifier = .id id ∧ id.value = n := by
  constructor
  · intro used
    obtain ⟨k, member, found⟩ := List.mem_filterMap.mp used
    unfold Key.idIn? at found
    split at found
    · next id numbered =>
        split at found
        · next own => exact ⟨k, member, own, id, numbered, Option.some.inj found⟩
        · cases found
    · cases found
  · rintro ⟨k, member, rfl, id, numbered, rfl⟩
    exact mem_usedIds member numbered

theorem usedIds_append (first second : List Key) (space : PartialKey) :
    usedIds (first ++ second) space = usedIds first space ++ usedIds second space :=
  List.filterMap_append

theorem length_usedIds_le (taken : List Key) (space : PartialKey) :
    (usedIds taken space).length ≤ (taken.map Key.toPartialKey).count space := by
  induction taken with
  | nil => exact Nat.le_refl 0
  | cons k rest ih =>
      have first : usedIds (k :: rest) space = (k.idIn? space).toList ++ usedIds rest space := by
        cases found : k.idIn? space <;> simp [usedIds, found]
      have one : (k.idIn? space).toList.length ≤ if k.toPartialKey = space then 1 else 0 := by
        unfold Key.idIn?
        split
        · split <;> simp
        · simp
      rw [first, List.length_append, List.map_cons, List.count_cons]
      simp only [beq_iff_eq]
      omega

/-- The keys that some mutations name in a space and those that they ask for there come from mutations of
their own. -/
theorem named_add_requested_le (mutations : List Mutation) (space : PartialKey) :
    (usedIds (namedKeys mutations) space).length + (requestedSpaces mutations).count space ≤
      mutations.countP (·.key.toPartialKey = space) := by
  induction mutations with
  | nil => exact Nat.le_refl 0
  | cons m rest ih =>
      rw [List.countP_cons]
      cases key : m.key with
      | complete k =>
          have named : namedKeys (m :: rest) = [k] ++ namedKeys rest := by
            simp [namedKeys, key, AnyKey.key?]
          have requested : requestedSpaces (m :: rest) = requestedSpaces rest := by
            simp [requestedSpaces, Mutation.needsId, key, AnyKey.isComplete]
          have one := length_usedIds_le [k] space
          rw [List.map_singleton, List.count_singleton] at one
          rw [named, usedIds_append, List.length_append, requested, AnyKey.toPartialKey]
          simp only [decide_eq_true_eq, beq_iff_eq] at one ⊢
          omega
      | incomplete asked =>
          have named : namedKeys (m :: rest) = namedKeys rest := by
            simp [namedKeys, key, AnyKey.key?]
          have requested : (requestedSpaces (m :: rest)).count space ≤
              (requestedSpaces rest).count space + if asked = space then 1 else 0 := by
            rw [requestedSpaces, List.filterMap_cons, key]
            dsimp only [AnyKey.toPartialKey]
            split
            · exact Nat.le_add_right _ _
            · next found =>
                split at found
                · cases found
                  simp only [List.count_cons, beq_iff_eq]
                  exact Nat.le_refl _
                · cases found
          rw [named, AnyKey.toPartialKey]
          simp only [decide_eq_true_eq]
          omega

namespace Counters

/-- As long as no key lies above the counter the search ends right after it. -/
theorem allocate_isOk_iff {counters : Counters} {taken : List Key} {space : PartialKey}
    (covered : ∀ k ∈ taken, counters.Covers k) :
    (∃ made, counters.allocate taken space = .ok made) ↔ counters.greatest space < maxId := by
  obtain ⟨n, above, -, passed, search⟩ := allocate_search counters taken space
  have next : n = counters.greatest space + 1 := by
    by_contra later
    have used := passed (counters.greatest space + 1) (Nat.lt_succ_self _) (by omega)
    obtain ⟨k, member, own, id, numbered, value⟩ := (mem_usedIds_iff _ _ _).mp used
    have below := covered k member id numbered
    rw [value, own] at below
    omega
  rw [search]
  constructor
  · rintro ⟨made, found⟩
    by_contra full
    rw [EntityId.ofInt?_of_gt (by omega)] at found
    cases found
  · intro room
    obtain ⟨id, made⟩ := EntityId.ofInt?_of_le (n := n) (by omega) (by omega)
    rw [made]
    exact ⟨_, rfl⟩

end Counters

namespace Progress

/-- While a commit of certain mutations is under way, an id above the counter at its start is passed only if
the mutations name it or it was made, and nothing else is stored above. -/
structure Fills (s : Store) (mutations : List Mutation) (p : Progress) : Prop where
  passed : ∀ space n, s.counterOf space < n → n ≤ p.counters.greatest space →
    n ∈ usedIds (namedKeys mutations ++ p.assigned) space
  stored : ∀ k ∈ p.entities.names, Counters.Covers s.counters k ∨ k ∈ namedKeys mutations ++ p.assigned

variable {s : Store} {mutations : List Mutation} {p q : Progress} {m : Mutation}

/-- The ids that a search passes over are among those. -/
theorem Fills.used (fills : Fills s mutations p)
    (covered : ∀ k ∈ s.entities.names, Counters.Covers s.counters k) {space : PartialKey} {n : Nat}
    (above : s.counterOf space < n)
    (used : n ∈ usedIds (s.reserved mutations ++ p.entities.names) space) :
    n ∈ usedIds (namedKeys mutations ++ p.assigned) space := by
  obtain ⟨k, member, own, id, numbered, value⟩ := (mem_usedIds_iff _ _ _).mp used
  have known : Counters.Covers s.counters k ∨ k ∈ namedKeys mutations ++ p.assigned := by
    rcases List.mem_append.mp member with reserved | stored
    · rcases List.mem_append.mp reserved with old | named
      · exact Or.inl (covered k old)
      · exact Or.inr (List.mem_append_left _ named)
    · exact fills.stored k stored
  rcases known with covers | listed
  · have below := covers id numbered
    rw [value, own] at below
    exact absurd above (Nat.not_lt.mpr below)
  · exact (mem_usedIds_iff _ _ _).mpr ⟨k, listed, own, id, numbered, value⟩

/-- So all ids that a search passes over or finds passed are among those. -/
theorem Fills.used_below (fills : Fills s mutations p)
    (covered : ∀ k ∈ s.entities.names, Counters.Covers s.counters k) {space : PartialKey} {n i : Nat}
    (passed : ∀ m, p.counters.greatest space < m → m < n →
      m ∈ usedIds (s.reserved mutations ++ p.entities.names) space)
    (above : s.counterOf space < i) (below : i < n) :
    i ∈ usedIds (namedKeys mutations ++ p.assigned) space := by
  by_cases old : i ≤ p.counters.greatest space
  · exact fills.passed space i above old
  · exact fills.used covered above (passed i (by omega) below)

/-- A search fails only if all ids above the counter at the start are among those. -/
theorem Fills.full_of_failed (fills : Fills s mutations p)
    (covered : ∀ k ∈ s.entities.names, Counters.Covers s.counters k) {space : PartialKey} {e : Error}
    (failed : p.counters.allocate (s.reserved mutations ++ p.entities.names) space = .error e) :
    maxId ≤ s.counterOf space + (usedIds (namedKeys mutations ++ p.assigned) space).length := by
  obtain ⟨n, above, -, passed, search⟩ :=
    Counters.allocate_search p.counters (s.reserved mutations ++ p.entities.names) space
  have beyond : maxId < n := by
    by_contra within
    obtain ⟨id, made⟩ := EntityId.ofInt?_of_le (n := n) (by omega) (by omega)
    rw [failed, made] at search
    cases search
  have stretch : n ≤ s.counterOf space + 1 + (usedIds (namedKeys mutations ++ p.assigned) space).length :=
    le_of_used fun i low high => fills.used_below covered passed low high
  omega

theorem Fills.of_made (fills : Fills s mutations p)
    (covered : ∀ k ∈ s.entities.names, Counters.Covers s.counters k) {space : PartialKey} {k : Key}
    {counters : Counters}
    (found : p.counters.allocate (s.reserved mutations ++ p.entities.names) space = .ok (k, counters))
    (properties : List (String × Value)) :
    Fills s mutations ({ p with counters, assigned := p.assigned ++ [k] }.store ⟨.stored, k, properties⟩) := by
  obtain ⟨n, -, -, passed, search⟩ :=
    Counters.allocate_search p.counters (s.reserved mutations ++ p.entities.names) space
  rw [search] at found
  split at found
  · next id made =>
      cases found
      refine ⟨?_, ?_⟩
      · intro other i beyond within
        show i ∈ usedIds (namedKeys mutations ++ (p.assigned ++ _)) other
        rw [← List.append_assoc, usedIds_append, List.mem_append]
        simp only [store, Counters.greatest_put] at within
        by_cases same : space = other
        · subst same
          rw [if_pos rfl] at within
          -- Of the ids up to the new counter only the last one is that of the key made.
          by_cases last : i = n
          · refine Or.inr ((mem_usedIds_iff _ _ _).mpr ⟨_, List.mem_singleton_self _, rfl, id, rfl, ?_⟩)
            rw [EntityId.value_of_ofInt? made, last]
          · exact Or.inl (fills.used_below covered passed beyond (by omega))
        · rw [if_neg same] at within
          exact Or.inl (fills.passed other i beyond within)
      · intro other member
        show _ ∨ other ∈ namedKeys mutations ++ (p.assigned ++ _)
        rw [← List.append_assoc, List.mem_append]
        rcases (Bindings.mem_names_put _ _ _ _).mp member with rfl | old
        · exact Or.inr (Or.inr (List.mem_singleton_self _))
        · exact (fills.stored other old).imp_right Or.inl
  · cases found

theorem Fills.of_writes (fills : Fills s mutations p)
    (covered : ∀ k ∈ s.entities.names, Counters.Covers s.counters k)
    (named : ∀ k, m.key = .complete k → k ∈ namedKeys mutations)
    (writes : Writes (s.reserved mutations) p m q) : Fills s mutations q := by
  cases writes with
  | removed k kind key =>
      refine ⟨fills.passed, fun other member => fills.stored other ?_⟩
      rw [Bindings.names_remove] at member
      exact (List.mem_filter.mp member).1
  | stored k kind key _ _ =>
      refine ⟨fills.passed, fun other member => ?_⟩
      rcases (Bindings.mem_names_put _ _ _ _).mp member with rfl | old
      · exact Or.inr (List.mem_append_left _ (named other key))
      · exact fills.stored other old
  | made space k counters kind key found => exact fills.of_made covered found m.properties

theorem Fills.of_applies {before : List Mutation} (fills : Fills s mutations p)
    (covered : ∀ k ∈ s.entities.names, Counters.Covers s.counters k)
    (named : ∀ k ∈ namedKeys before, k ∈ namedKeys mutations)
    (stageable : ∀ m ∈ before, m.isStageable = true)
    (applied : Applies (s.reserved mutations) p before q) : Fills s mutations q := by
  induction applied with
  | done p => exact fills
  | @next p q r m rest first later ih =>
      obtain ⟨stageableHere, stageableLater⟩ := List.forall_mem_cons.mp stageable
      have writes := writes_of_apply stageableHere first
      have next := fills.of_writes covered
        (fun k key => named k ((mem_namedKeys_cons m rest k).mpr (Or.inl key))) writes
      exact ih next (fun k member => named k ((mem_namedKeys_cons m rest k).mpr (Or.inr member)))
        stageableLater

theorem space_of_failed {reserved : List Key} {e : Error} (halted : p.apply reserved m = .error (.failed e)) :
    ∃ space, m.kind = .add ∧ m.key = .incomplete space ∧
      p.counters.allocate (reserved ++ p.entities.names) space = .error e := by
  unfold apply at halted
  split at halted
  · cases halted
  · cases halted
  · next space kind key =>
      split at halted
      · next failed =>
          cases halted
          exact ⟨space, kind, key, failed⟩
      · cases halted
  · cases halted
  · cases halted
  · split at halted <;> cases halted
  · split at halted <;> cases halted
  · cases halted

theorem apply_of_unfound {reserved : List Key} {space : PartialKey} {e : Error} (kind : m.kind = .add)
    (key : m.key = .incomplete space)
    (unfound : p.counters.allocate (reserved ++ p.entities.names) space = .error e) :
    p.apply reserved m = .error (.failed e) := by
  simp only [apply, kind, key, unfound]

end Progress

namespace Store

/-- Every key that is stored was given out or reserved. -/
theorem covers_of_stored (limits : StoreLimits) {requests : List Request}
    (staged : ∀ request ∈ requests, request.IsStaged) {k : Key}
    (stored : k ∈ (reached limits requests).entities.names) :
    Counters.Covers (reached limits requests).counters k := by
  have changes := (empty limits).changes_of_run staged
  refine changes.covered k ?_
  by_contra unwritten
  have absent : (reached limits requests).entities.at? k = none := changes.frame k unwritten
  exact (Bindings.at?_eq_none_iff _ k).mp absent stored

theorem allocateIds_one (s : Store) (space : PartialKey) :
    (∃ k, (s.allocateIds [.key (.incomplete space)]).1 = .ok [k]) ↔
      ∃ made, Counters.allocate s.counters s.entities.names space = .ok made := by
  have answer : (s.allocateIds [.key (.incomplete space)]).1 =
      (Counters.allocateAll s.entities.names s.counters [space]).1 := rfl
  rw [answer, Counters.allocateAll]
  cases Counters.allocate s.counters s.entities.names space with
  | error e =>
      constructor
      · rintro ⟨k, made⟩
        cases made
      · rintro ⟨k, made⟩
        cases made
  | ok made => exact ⟨fun _ => ⟨made, rfl⟩, fun _ => ⟨made.1, rfl⟩⟩

theorem fills_start (s : Store) (mutations : List Mutation)
    (covered : ∀ k ∈ s.entities.names, Counters.Covers s.counters k) :
    Progress.Fills s mutations s.progress where
  passed _ _ above within := absurd above (Nat.not_lt.mpr within)
  stored k member := Or.inl (covered k member)

/-- The search for a key fails only if the mutations use up all ids above the counter. -/
theorem applyMutations_of_room {s : Store}
    (covered : ∀ k ∈ s.entities.names, Counters.Covers s.counters k) {mutations : List Mutation}
    (staged : Staged mutations) (handle? : Option Handle)
    (room : ∀ space ∈ requestedSpaces mutations,
      s.counterOf space + mutations.countP (·.key.toPartialKey = space) ≤ maxId) :
    ∃ response, ((s.closing handle?).applyMutations mutations).1 = .ok response := by
  have stageable := (staged_iff mutations).mp staged
  rcases ended : Progress.applyAll (s.reserved mutations) s.progress mutations with ⟨p, halt | ⟨⟩⟩
  · cases halt with
    | refused r =>
        rw [applyMutations_of_refused (s := s.closing handle?) ended]
        exact ⟨_, rfl⟩
    | failed e =>
        exfalso
        obtain ⟨before, m, after, split, applied, halted⟩ := Progress.applies_of_halt ended
        obtain ⟨space, kind, key, failed⟩ := Progress.space_of_failed halted
        have stageableBefore : ∀ other ∈ before, other.isStageable = true := fun other member =>
          stageable other (by simp [split, member])
        have named : ∀ k ∈ namedKeys before, k ∈ namedKeys mutations := fun k member => by
          rw [split, namedKeys, List.filterMap_append]
          exact List.mem_append_left _ member
        have fills := (s.fills_start mutations covered).of_applies covered named stageableBefore applied
        have full := fills.full_of_failed covered failed
        obtain ⟨made, written, adds⟩ := applied.adds stageableBefore
        have assigned : p.assigned = made := adds.assigned
        have keys := length_usedIds_le made space
        rw [adds.spaces] at keys
        have requested : requestedSpaces mutations =
            requestedSpaces before ++ space :: requestedSpaces after := by
          simp [split, requestedSpaces, Mutation.needsId, kind, key, AnyKey.isComplete,
            AnyKey.toPartialKey]
        have bound := named_add_requested_le mutations space
        have enough := room space (by simp [requested])
        rw [requested, List.count_append, List.count_cons_self] at bound
        rw [usedIds_append, List.length_append, assigned] at full
        omega
  · obtain ⟨made, written, adds⟩ := (Progress.applies_of_applyAll ended).adds stageable
    rw [applyMutations_of_applied (s := s.closing handle?) ended adds]
    exact ⟨_, rfl⟩

/-- A commit is answered if each space in which it asks for keys has as many ids above the counter as the
commit has mutations there. -/
theorem answered_of_room {s : Store}
    (covered : ∀ k ∈ s.entities.names, Counters.Covers s.counters k) {mutations : List Mutation}
    (staged : Staged mutations) (handle? : Option Handle)
    (room : ∀ space ∈ requestedSpaces mutations,
      s.counterOf space + mutations.countP (·.key.toPartialKey = space) ≤ maxId) :
    ∃ response, (s.commit mutations handle?).1 = .ok response := by
  have applied := applyMutations_of_room covered staged handle? room
  cases handle? with
  | none => exact applied
  | some h =>
      cases found : s.transactions.at? h with
      | none => exact ⟨_, congrArg Prod.fst (commit_of_unknown found mutations)⟩
      | some t =>
          cases conflict : t.conflict? s mutations with
          | some k => exact ⟨_, congrArg Prod.fst (commit_of_conflict found conflict)⟩
          | none =>
              rw [commit_of_clear found conflict]
              exact applied

/-- Nothing can be added to a space in which no id is left above the counter. -/
theorem unanswered_of_full {s : Store} {space : PartialKey} (full : maxId ≤ s.counterOf space)
    (properties : Properties) :
    ¬ ∃ response, (s.commit [⟨.add, .entity (.draft (.incomplete space) properties)⟩] none).1 =
      .ok response := by
  rintro ⟨response, answered⟩
  let m : Mutation := ⟨.add, .entity (.draft (.incomplete space) properties)⟩
  obtain ⟨n, above, -, -, search⟩ :=
    Counters.allocate_search s.counters (s.reserved [m] ++ s.entities.names) space
  have beyond : maxId < n := Nat.lt_of_le_of_lt full above
  rw [EntityId.ofInt?_of_gt beyond] at search
  have halted := Progress.apply_of_unfound (p := s.progress) (m := m) rfl rfl search
  have ended : Progress.applyAll (s.reserved [m]) s.progress [m] =
      (s.progress, .error (.failed (KeyFault.idRange n).error)) := by
    rw [Progress.applyAll, halted]
  have failed := applyMutations_of_failed (s := s.closing none) ended
  rw [show s.commit [m] none = _ from failed] at answered
  cases answered

/-- Keys are given out in a space exactly as long as its counter has not reached the greatest id, however many smaller
ids are free. -/
theorem available_below_greatest (limits : StoreLimits) {requests : List Request}
    (staged : ∀ request ∈ requests, request.IsStaged) :
    let s := reached limits requests
    (∀ space, (∃ k, (s.allocateIds [.key (.incomplete space)]).1 = .ok [k]) ↔ s.counterOf space < maxId) ∧
      (∀ space properties,
        (∃ response, (s.commit [⟨.add, .entity (.draft (.incomplete space) properties)⟩] none).1 =
          .ok response) ↔ s.counterOf space < maxId) ∧
      ∀ mutations handle?, Staged mutations →
        (∀ space ∈ requestedSpaces mutations,
          s.counterOf space + mutations.countP (·.key.toPartialKey = space) ≤ maxId) →
        ∃ response, (s.commit mutations handle?).1 = .ok response := by
  intro s
  have covered : ∀ k ∈ s.entities.names, Counters.Covers s.counters k := fun k stored =>
    covers_of_stored limits staged stored
  refine ⟨?_, ?_, ?_⟩
  · intro space
    exact (s.allocateIds_one space).trans (Counters.allocate_isOk_iff covered)
  · intro space properties
    constructor
    · intro answered
      by_contra full
      exact unanswered_of_full (Nat.not_lt.mp full) properties answered
    · intro room
      refine answered_of_room covered ((staged_iff _).mpr (by simp [Mutation.isStageable])) none ?_
      intro asked member
      have own : asked = space := by
        simpa [requestedSpaces, Mutation.needsId, Mutation.key, AnyEntity.key, AnyKey.isComplete,
          AnyKey.toPartialKey] using member
      have few := List.countP_le_length (l := [(⟨.add, .entity (.draft (.incomplete space) properties)⟩ : Mutation)])
        (p := fun m => m.key.toPartialKey = asked)
      rw [own] at few ⊢
      rw [List.length_singleton] at few
      omega
  · intro mutations handle? stagedHere room
    exact answered_of_room covered stagedHere handle? room

theorem available_after_put :
    let space : PartialKey := ⟨⟨"app", by decide⟩, none, [], ⟨"Task", by decide⟩⟩
    let last : Entity := ⟨.stored, space.withIdentifier (.id ⟨maxId - 1, by decide⟩), []⟩
    let requests : List Request := [.commit [⟨.put, .entity (.keyed last)⟩] none]
    (∀ request ∈ requests, request.IsStaged) ∧
      ∃ k, ((reached .standard requests).allocateIds [.key (.incomplete space)]).1 = .ok [k] := by
  intro space last requests
  have staged : ∀ request ∈ requests, request.IsStaged := by decide +revert
  have room : (reached .standard requests).counterOf space < maxId := by decide +revert
  exact ⟨staged, ((available_below_greatest .standard staged).1 space).mpr room⟩

/-- A put of an entity with the greatest id exhausts its space, although no smaller id was ever used: keys can
neither be allocated there, nor is a commit that asks for one answered. -/
theorem exhausted_by_greatest :
    let space : PartialKey := ⟨⟨"app", by decide⟩, none, [], ⟨"Task", by decide⟩⟩
    let greatest : Entity := ⟨.stored, space.withIdentifier (.id ⟨maxId, by decide⟩), []⟩
    let free : Key := space.withIdentifier (.id ⟨1, by decide⟩)
    let history := (empty .standard).run [.commit [⟨.put, .entity (.keyed greatest)⟩] none]
    let s := history.2
    let fault := (KeyFault.idRange (maxId + 1 : Nat)).error
    (∀ event ∈ history.1, free ∉ event.issued ∧ free ∉ event.written) ∧ s.entities.at? free = none ∧
      (s.allocateIds [.key (.incomplete space)]).1 = .error fault ∧
      (s.commit [⟨.add, .entity (.draft (.incomplete space) [])⟩] none).1 = .error fault := by
  intro space greatest free history s fault
  refine ⟨by decide +revert, rfl, ?_, ?_⟩
  · decide +revert
  · decide +revert

end Store

end EntityStore
