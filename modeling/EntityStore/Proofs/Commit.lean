import EntityStore.Proofs.Existence

set_option autoImplicit false

namespace EntityStore

/-- Whether a commit was refused because of a concurrent modification. -/
def isAborted : Except Error CommitResponse → Bool
  | .ok ⟨_, some rejection⟩ => rejection.code = .aborted
  | _ => false

theorem firstUnmet_code {mutations : List Mutation} {stored : Key → Bool} {r : Refusal}
    (refused : firstUnmet stored mutations = some r) : r.code = .alreadyExists ∨ r.code = .notFound := by
  induction mutations generalizing stored with
  | nil => cases refused
  | cons m rest ih =>
      rw [firstUnmet, Option.or_eq_some_iff] at refused
      rcases refused with here | ⟨-, later⟩
      · unfold Mutation.unmet? at here
        split at here
        · split at here <;> cases here
          exact Or.inl rfl
        · split at here <;> cases here
          exact Or.inr rfl
        · cases here
      · exact ih later

namespace Store

/-- The store when a commit is looked at: the call is noted and the transaction is over. -/
def closing (s : Store) (handle? : Option Handle) : Store :=
  { s.noting .commit with transactions := handle?.elim s.transactions s.transactions.remove }

/-- A commit is one call. -/
theorem calls_of_commit (s : Store) (mutations : List Mutation) (handle? : Option Handle) :
    (s.commit mutations handle?).2.calls = s.calls ++ [.commit] := by
  have applied (t : Store) : (t.applyMutations mutations).2.calls = t.calls := by
    unfold applyMutations
    dsimp only
    split
    · rfl
    · rfl
    · split <;> rfl
  unfold commit
  cases handle? with
  | none => exact applied _
  | some h =>
      dsimp only
      split
      · rfl
      · split
        · rfl
        · exact applied _

theorem commit_of_unknown {s : Store} {h : Handle} (unknown : s.transactions.at? h = none)
    (mutations : List Mutation) :
    s.commit mutations (some h) = (.ok Refusal.unknownTransaction.response, s.closing (some h)) := by
  have closed : s.closing (some h) = s.noting .commit := by
    simp only [closing, Option.elim_some, Bindings.remove_of_at?_eq_none unknown]
    rfl
  rw [closed]
  simp only [commit, noting, unknown]

theorem commit_of_conflict {s : Store} {h : Handle} {t : OpenTransaction} {mutations : List Mutation}
    {k : Key} (found : s.transactions.at? h = some t) (conflict : t.conflict? s mutations = some k) :
    s.commit mutations (some h) = (.ok (Refusal.conflict k).response, s.closing (some h)) := by
  have same : ∀ calls transactions,
      t.conflict? { s with calls, transactions } mutations = some k := fun _ _ => conflict
  simp only [commit, noting, found, same]
  rfl

theorem commit_of_clear {s : Store} {h : Handle} {t : OpenTransaction} {mutations : List Mutation}
    (found : s.transactions.at? h = some t) (clear : t.conflict? s mutations = none) :
    s.commit mutations (some h) = (s.closing (some h)).applyMutations mutations := by
  have same : ∀ calls transactions,
      t.conflict? { s with calls, transactions } mutations = none := fun _ _ => clear
  simp only [commit, noting, found, same]
  rfl

/-- The store after mutations were applied to its entities. -/
def applying (s : Store) (p : Progress) (written : List Key) : Store :=
  { s.touching (written.map .complete) with
    entities := p.entities
    counters := written.foldl Counters.reserve p.counters }

/-- A commit under way before the first mutation. -/
def progress (s : Store) : Progress := ⟨s.entities, s.counters, [], []⟩

/-- The keys that are not given to entities that come without one. -/
def reserved (s : Store) (mutations : List Mutation) : List Key :=
  s.entities.names ++ namedKeys mutations

theorem applyMutations_of_refused {s : Store} {mutations : List Mutation} {p : Progress} {r : Refusal}
    (ended : Progress.applyAll (s.reserved mutations) s.progress mutations = (p, .error (.refused r))) :
    s.applyMutations mutations = (.ok r.response, { s with counters := p.counters }) := by
  simp only [reserved, progress] at ended
  simp only [applyMutations, ended]

theorem applyMutations_of_failed {s : Store} {mutations : List Mutation} {p : Progress} {e : Error}
    (ended : Progress.applyAll (s.reserved mutations) s.progress mutations = (p, .error (.failed e))) :
    s.applyMutations mutations = (.error e, { s with counters := p.counters }) := by
  simp only [reserved, progress] at ended
  simp only [applyMutations, ended]

theorem applyMutations_of_applied {s : Store} {mutations : List Mutation} {p : Progress}
    {made written : List Key}
    (ended : Progress.applyAll (s.reserved mutations) s.progress mutations = (p, .ok ()))
    (adds : Progress.Adds (s.reserved mutations) mutations s.progress p made written) :
    s.applyMutations mutations = (.ok ⟨made, none⟩, s.applying p written) := by
  have assigned : p.assigned = made := adds.assigned
  have touched : p.touched = written.map .complete := adds.touched
  have complete : (written.map AnyKey.complete).all AnyKey.isComplete = true := by
    simp [AnyKey.isComplete]
  have keys : (written.map AnyKey.complete).filterMap AnyKey.key? = written := by
    simp [List.filterMap_map, Function.comp_def, AnyKey.key?]
  simp only [reserved, progress] at ended
  simp only [applyMutations, ended, assigned, touched, complete, keys, ↓reduceIte]
  rfl

/-- Whether conflict detection lets a commit through. -/
def Clear (s : Store) (mutations : List Mutation) (handle? : Option Handle) : Prop :=
  ∀ h, handle? = some h → ∃ t, s.transactions.at? h = some t ∧ t.conflict? s mutations = none

/-- The ways in which a commit of staged mutations can end. -/
inductive Ends (s : Store) (mutations : List Mutation) (handle? : Option Handle) :
    Except Error CommitResponse → Store → Prop where
  | unknown (h : Handle) (named : handle? = some h) (unknown : s.transactions.at? h = none) :
      Ends s mutations handle? (.ok Refusal.unknownTransaction.response) (s.closing handle?)
  | conflict (h : Handle) (t : OpenTransaction) (k : Key) (named : handle? = some h)
      (found : s.transactions.at? h = some t) (conflict : t.conflict? s mutations = some k) :
      Ends s mutations handle? (.ok (Refusal.conflict k).response) (s.closing handle?)
  | refused (r : Refusal) (counters : Counters) (clear : s.Clear mutations handle?)
      (grows : Counters.GrowsTo s.counters counters)
      (unmet : firstUnmet s.entities.binds mutations = some r) :
      Ends s mutations handle? (.ok r.response) { s.closing handle? with counters }
  | failed (e : Error) (counters : Counters) (clear : s.Clear mutations handle?)
      (grows : Counters.GrowsTo s.counters counters) :
      Ends s mutations handle? (.error e) { s.closing handle? with counters }
  | applied (p : Progress) (made written : List Key) (clear : s.Clear mutations handle?)
      (met : firstUnmet s.entities.binds mutations = none)
      (adds : Progress.Adds (s.reserved mutations) mutations s.progress p made written)
      (applied : Progress.Applies (s.reserved mutations) s.progress mutations p) :
      Ends s mutations handle? (.ok ⟨made, none⟩) ((s.closing handle?).applying p written)

theorem ends_of_clear {s : Store} {mutations : List Mutation} {handle? : Option Handle}
    (staged : Staged mutations) (clear : s.Clear mutations handle?) :
    Ends s mutations handle? ((s.closing handle?).applyMutations mutations).1
      ((s.closing handle?).applyMutations mutations).2 := by
  have stageable := (staged_iff mutations).mp staged
  have named : ∀ k ∈ namedKeys mutations, k ∈ s.reserved mutations := fun k member =>
    List.mem_append_right _ member
  rcases ended : Progress.applyAll (s.reserved mutations) s.progress mutations with ⟨p, halt | ⟨⟩⟩
  · obtain ⟨before, m, after, split, applied, halted⟩ := Progress.applies_of_halt ended
    have stageableHere : m.isStageable = true := stageable m (by simp [split])
    have stageableBefore : ∀ other ∈ before, other.isStageable = true := fun other member =>
      stageable other (by simp [split, member])
    cases halt with
    | refused r =>
        rw [applyMutations_of_refused (s := s.closing handle?) ended]
        refine Ends.refused r p.counters clear applied.growsTo ?_
        calc firstUnmet s.entities.binds mutations
          _ = firstUnmet s.entities.binds (before ++ m :: after) := by rw [split]
          _ = firstUnmet p.entities.binds (m :: after) :=
              applied.firstUnmet (m :: after) stageableBefore (split ▸ named)
          _ = some r := by
              rw [firstUnmet, Progress.unmet?_of_refused stageableHere halted, Option.some_or]
    | failed e =>
        rw [applyMutations_of_failed (s := s.closing handle?) ended]
        exact Ends.failed e p.counters clear applied.growsTo
  · have applied := Progress.applies_of_applyAll ended
    obtain ⟨made, written, adds⟩ := applied.adds stageable
    have demands := applied.firstUnmet [] stageable (by simpa using named)
    rw [applyMutations_of_applied (s := s.closing handle?) ended adds]
    exact Ends.applied p made written clear (by simpa [progress, firstUnmet] using demands) adds applied

theorem commit_ends (s : Store) {mutations : List Mutation} (staged : Staged mutations)
    (handle? : Option Handle) :
    ∃ response next, s.commit mutations handle? = (response, next) ∧
      Ends s mutations handle? response next := by
  cases handle? with
  | none => exact ⟨_, _, rfl, ends_of_clear staged nofun⟩
  | some h =>
      cases found : s.transactions.at? h with
      | none => exact ⟨_, _, commit_of_unknown found mutations, Ends.unknown h rfl found⟩
      | some t =>
          cases conflict : t.conflict? s mutations with
          | none =>
              refine ⟨_, _, commit_of_clear found conflict, ends_of_clear staged ?_⟩
              intro other same
              cases same
              exact ⟨t, found, conflict⟩
          | some k =>
              exact ⟨_, _, commit_of_conflict found conflict, Ends.conflict h t k rfl found conflict⟩

/-- A commit is refused for a concurrent modification exactly if conflict detection finds one. -/
theorem isAborted_commit {s : Store} {h : Handle} {t : OpenTransaction} {mutations : List Mutation}
    (staged : Staged mutations) (opened : s.transactions.at? h = some t) :
    isAborted (s.commit mutations (some h)).1 = (t.conflict? s mutations).isSome := by
  obtain ⟨response, next, committed, ends⟩ := s.commit_ends staged (some h)
  rw [committed]
  have unconflicted : s.Clear mutations (some h) → (t.conflict? s mutations).isSome = false := by
    intro clear
    obtain ⟨other, found, none⟩ := clear h rfl
    rw [opened] at found
    cases found
    rw [none, Option.isSome_none]
  cases ends with
  | unknown named same unknown =>
      cases same
      rw [opened] at unknown
      cases unknown
  | conflict named other k same found conflict =>
      cases same
      rw [opened] at found
      cases found
      rw [conflict]
      rfl
  | refused r counters clear grows unmet =>
      rw [unconflicted clear]
      rcases firstUnmet_code unmet with present | absent
      · simp [isAborted, Refusal.response, present]
      · simp [isAborted, Refusal.response, absent]
  | failed e counters clear grows =>
      rw [unconflicted clear]
      rfl
  | applied p made written clear met adds =>
      rw [unconflicted clear]
      rfl

/-- A commit that conflict detection lets through is refused exactly for the first demand that is not
met. -/
theorem rejection_of_clear {s : Store} {mutations : List Mutation} {handle? : Option Handle}
    (staged : Staged mutations) (clear : s.Clear mutations handle?) {response : CommitResponse}
    (answered : (s.commit mutations handle?).1 = .ok response) :
    response.rejection? =
      (firstUnmet s.entities.binds mutations).bind fun r => r.response.rejection? := by
  obtain ⟨other, next, committed, ends⟩ := s.commit_ends staged handle?
  have same : other = .ok response := by rw [← answered, committed]
  subst same
  cases ends with
  | unknown h named unknown =>
      obtain ⟨t, found, -⟩ := clear h named
      rw [unknown] at found
      cases found
  | conflict h t k named found conflict =>
      obtain ⟨other, same, none⟩ := clear h named
      rw [found] at same
      cases same
      rw [conflict] at none
      cases none
  | refused r counters _ grows unmet => rw [unmet, Option.bind_some]
  | applied p made written _ met adds => rw [met, Option.bind_none]

/-- What a commit leaves that was not applied: the transaction is over, ids may have been given out, and
everything else is as it was. -/
structure Kept (s : Store) (handle? : Option Handle) (after : Store) : Prop where
  limits : after.limits = s.limits
  entities : after.entities = s.entities
  version : after.version = s.version
  versions : after.versions = s.versions
  cursors : after.cursors = s.cursors
  queried : after.queried = s.queried
  begun : after.begun = s.begun
  calls : after.calls = s.calls ++ [.commit]
  ended : ∀ h, handle? = some h → after.transactions.at? h = none
  others : ∀ h, handle? ≠ some h → after.transactions.at? h = s.transactions.at? h
  counters : ∀ space, s.counterOf space ≤ after.counterOf space

theorem kept_of_grows {s : Store} {counters : Counters} (grows : Counters.GrowsTo s.counters counters)
    (handle? : Option Handle) : s.Kept handle? { s.closing handle? with counters } where
  limits := rfl
  entities := rfl
  version := rfl
  versions := rfl
  cursors := rfl
  queried := rfl
  begun := rfl
  calls := rfl
  ended := by
    rintro h rfl
    exact Bindings.at?_remove_self _ h
  others h other := by
    cases handle? with
    | none => rfl
    | some named => exact Bindings.at?_remove_of_ne _ fun same => other (congrArg some same)
  counters := grows

theorem kept_closing (s : Store) (handle? : Option Handle) : s.Kept handle? (s.closing handle?) :=
  kept_of_grows (Counters.GrowsTo.refl s.counters) handle?

theorem kept_of_applyMutations {s : Store} {mutations : List Mutation} {handle? : Option Handle}
    {response : CommitResponse} {rejection : Rejection}
    (answered : ((s.closing handle?).applyMutations mutations).1 = .ok response)
    (rejected : response.rejection? = some rejection) :
    s.Kept handle? ((s.closing handle?).applyMutations mutations).2 := by
  rcases ended : Progress.applyAll (s.reserved mutations) s.progress mutations with ⟨p, halt | ⟨⟩⟩
  · obtain ⟨_, _, _, _, applied, _⟩ := Progress.applies_of_halt ended
    cases halt with
    | refused r =>
        rw [applyMutations_of_refused (s := s.closing handle?) ended]
        exact kept_of_grows applied.growsTo handle?
    | failed e =>
        rw [applyMutations_of_failed (s := s.closing handle?) ended] at answered
        cases answered
  · simp only [reserved, progress] at ended
    simp only [applyMutations, closing, noting, ended] at answered
    split at answered <;> cases answered
    cases rejected

/-- A commit that is refused is refused as a whole. -/
theorem kept_of_rejected (s : Store) (mutations : List Mutation) (handle? : Option Handle)
    {response : CommitResponse} {rejection : Rejection}
    (answered : (s.commit mutations handle?).1 = .ok response)
    (rejected : response.rejection? = some rejection) :
    s.Kept handle? (s.commit mutations handle?).2 := by
  cases handle? with
  | none => exact kept_of_applyMutations answered rejected
  | some h =>
      cases found : s.transactions.at? h with
      | none =>
          rw [commit_of_unknown found]
          exact s.kept_closing (some h)
      | some t =>
          cases conflict : t.conflict? s mutations with
          | none =>
              rw [commit_of_clear found conflict] at answered ⊢
              exact kept_of_applyMutations answered rejected
          | some k =>
              rw [commit_of_conflict found conflict]
              exact s.kept_closing (some h)

theorem kept_of_rejected_update :
    let space : PartialKey := ⟨⟨"app", by decide⟩, none, [], ⟨"Task", by decide⟩⟩
    let missing := space.withIdentifier (.id ⟨7, by decide⟩)
    let s := (empty .standard).beginTransaction.2
    let mutations : List Mutation :=
      [⟨.add, .entity (.draft (.incomplete space) [])⟩,
        ⟨.update, .entity (.keyed ⟨.stored, missing, []⟩)⟩]
    (s.commit mutations (some (handle 1))).1 = .ok (Refusal.absent missing).response ∧
      s.Kept (some (handle 1)) (s.commit mutations (some (handle 1))).2 := by
  refine ⟨?_, ?_⟩
  · rfl
  · exact kept_of_rejected _ _ _ (by rfl) (by rfl)

end Store

end EntityStore
