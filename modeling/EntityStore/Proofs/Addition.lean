import EntityStore.Client.Basic
import EntityStore.Proofs.Arguments
import EntityStore.Proofs.Cursors
import EntityStore.Proofs.Generation

set_option autoImplicit false

namespace EntityStore

/-- What is stored for some entities: those that have complete keys are stored as they are, and those that lack one
take the generated keys in order, each from its own space, so that none is missing and none is left over. -/
inductive Completes : List AnyEntity → List Key → List Entity → Prop where
  | nil : Completes [] [] []
  | given {entities : List AnyEntity} {generated : List Key} {results : List Entity} {e : AnyEntity} {keyed : Entity}
      (own : e.IsKeyed keyed) (later : Completes entities generated results) :
      Completes (e :: entities) generated (keyed :: results)
  | made {entities : List AnyEntity} {generated : List Key} {results : List Entity} (k : Key)
      (properties : Properties) (later : Completes entities generated results) :
      Completes (.draft (.incomplete k.toPartialKey) properties :: entities) (k :: generated)
        (⟨.stored, k, properties⟩ :: results)

/-- The client takes the generated keys in the same way. -/
theorem Completes.complete_eq {entities : List AnyEntity} {generated : List Key} {results : List Entity}
    (completes : Completes entities generated results) : Client.complete entities generated = .ok results := by
  induction completes with
  | nil => rfl
  | given own _ ih =>
      cases own with
      | whole => exact congrArg (_ <$> ·) ih
      | named => exact congrArg (_ <$> ·) ih
  | made _ _ _ ih => exact congrArg (_ <$> ·) ih

/-- Entities under their keys. -/
def filedByKey (entities : List Entity) : Bindings Key Entity := entities.map fun e => (e.key, e)

theorem names_filedByKey (entities : List Entity) : (filedByKey entities).names = entities.map Entity.key := by
  rw [filedByKey, Bindings.names, List.map_map]
  rfl

theorem at?_append_filedByKey {before : Bindings Key Entity} {results : List Entity}
    (distinct : (results.map Entity.key).Nodup) (fresh : ∀ e ∈ results, e.key ∉ before.names) {e : Entity}
    (member : e ∈ results) : Bindings.at? (before ++ filedByKey results) e.key = some e := by
  rw [Bindings.at?_append_of_unbound (fresh e member)]
  rw [← names_filedByKey] at distinct
  exact (Bindings.mem_iff_at? distinct e.key e).mp (List.mem_map_of_mem member)

/-- The mutations that add some entities. -/
def additions (entities : List AnyEntity) : List Mutation := entities.map fun e => ⟨.add, .entity e⟩

theorem staged_additions (entities : List AnyEntity) : Staged (additions entities) := by
  rw [staged_iff]
  intro m member
  obtain ⟨e, -, rfl⟩ := List.mem_map.mp member
  rfl

namespace Progress

variable {reserved : List Key} {p q : Progress} {entities : List AnyEntity}

/-- An entity that is added is new, and stands behind all others. -/
theorem Writes.added {e : AnyEntity} (writes : Writes reserved p ⟨.add, .entity e⟩ q) :
    ∃ made stored, q.assigned = p.assigned ++ made ∧ q.entities = p.entities ++ [(stored.key, stored)] ∧
      stored.key ∉ p.entities.names ∧ ∀ {later : List AnyEntity} {generated : List Key} {results : List Entity},
        Completes later generated results → Completes (e :: later) (made ++ generated) (stored :: results) := by
  cases writes with
  | removed k kind key => cases kind
  | stored k kind key unmet met =>
      have absent : k ∉ p.entities.names := by
        rw [← Bindings.at?_eq_none_iff]
        simpa [Bindings.binds] using unmet rfl
      have own : e.IsKeyed ⟨Mutation.shape ⟨.add, .entity e⟩, k, Mutation.properties ⟨.add, .entity e⟩⟩ := by
        cases e with
        | keyed e =>
            obtain ⟨shape, own, properties⟩ := e
            cases key
            exact .whole _
        | draft own properties =>
            cases key
            exact .named _ _
      refine ⟨[], _, (List.append_nil _).symm, ?_, absent, .given own⟩
      exact Bindings.put_of_unbound absent _
  | made space k counters kind key found =>
      obtain ⟨-, own, free⟩ := Counters.mints_of_allocate found
      have absent : k ∉ p.entities.names := fun bound => free (List.mem_append_right _ bound)
      cases e with
      | keyed e => cases key
      | draft given properties =>
          cases key
          cases own
          exact ⟨[k], ⟨.stored, k, properties⟩, rfl, Bindings.put_of_unbound absent _, absent, .made k properties⟩

/-- Entities that are added one after the other are new, differ in their keys, and stand behind all others. -/
theorem Applies.added (applied : Applies reserved p (additions entities) q) :
    ∃ made results, q.assigned = p.assigned ++ made ∧ q.entities = p.entities ++ filedByKey results ∧
      (results.map Entity.key).Nodup ∧ (∀ e ∈ results, e.key ∉ p.entities.names) ∧
      Completes entities made results := by
  induction entities generalizing p with
  | nil =>
      cases applied
      exact ⟨[], [], (List.append_nil _).symm, (List.append_nil _).symm, List.nodup_nil, List.forall_mem_nil _, .nil⟩
  | cons e rest ih =>
      cases applied with
      | next first later =>
          obtain ⟨made, stored, assigned, entities, absent, extend⟩ := (writes_of_apply rfl first).added
          obtain ⟨more, results, assignedLater, entitiesLater, distinct, fresh, completes⟩ := ih later
          rw [entities] at fresh entitiesLater
          rw [assigned, List.append_assoc] at assignedLater
          -- What is added later is new beside the entity stored here as well, so their keys differ.
          have apart : ∀ other ∈ results, other.key ∉ p.entities.names ∧ other.key ≠ stored.key := by
            intro other member
            simpa [Bindings.names] using fresh other member
          refine ⟨made ++ more, stored :: results, assignedLater, ?_, ?_, ?_, extend completes⟩
          · rw [entitiesLater, List.append_assoc]
            rfl
          · refine List.nodup_cons.mpr ⟨?_, distinct⟩
            intro again
            obtain ⟨other, member, same⟩ := List.mem_map.mp again
            exact (apart other member).2 same
          · exact List.forall_mem_cons.mpr ⟨absent, fun other member => (apart other member).1⟩

end Progress

namespace Client

variable {s after : Store} {entities : List AnyEntity}

/-- A commit that adds entities and succeeds stores all of them. -/
theorem stored_of_submit {result : CommitResult}
    (submitted : Store.remote.submit (additions entities) none s = (.ok result, after)) :
    ∃ results, after.entities = s.entities ++ filedByKey results ∧ (results.map Entity.key).Nodup ∧
      (∀ e ∈ results, e.key ∉ s.entities.names) ∧ Completes entities result.generated results := by
  obtain ⟨response, next, committed, ends⟩ := s.commit_ends (staged_additions entities) none
  rw [Store.submit_remote, committed] at submitted
  obtain ⟨answered, rfl⟩ := Prod.mk.inj submitted
  cases ends with
  | unknown h named => cases named
  | conflict h t k named => cases named
  | refused r => cases answered
  | failed e => cases answered
  | applied p made written _ _ adds applied =>
      obtain ⟨own, results, assigned, stored, distinct, fresh, completes⟩ := applied.added
      have same : own = made := List.append_cancel_left (assigned.symm.trans adds.assigned)
      have told : result.generated = made := by
        by_cases counted : made.length = (additions entities).countP Mutation.needsId
        · have answer : Except.ok ⟨made⟩ = Except.ok result := (if_pos counted).symm.trans answered
          exact congrArg CommitResult.generated (Except.ok.inj answer).symm
        · have answer : Except.error _ = Except.ok result := (if_neg counted).symm.trans answered
          cases answer
      exact ⟨results, stored, distinct, fresh, told ▸ same ▸ completes⟩

theorem anyEntities_of_entities (operation : String) (entities : List AnyEntity) :
    anyEntities operation (entities.map Datum.entity) = .ok entities := by
  induction entities with
  | nil => rfl
  | cons e rest ih =>
      rw [List.map_cons, anyEntities, ih]
      rfl

/-- Adding entities is one commit, whose generated keys complete them. -/
theorem add_entities (entities : List AnyEntity) (s : Store) :
    add Store.remote (entities.map Datum.entity) s =
      match Store.remote.submit (additions entities) none s with
      | (.error e, next) => (.error e, next)
      | (.ok result, next) => (complete entities result.generated, next) := by
  rcases submitted : Store.remote.submit (additions entities) none s with ⟨outcome, next⟩
  have asked : Store.remote.submit (entities.map fun e => ⟨.add, .entity e⟩) none s = (outcome, next) := submitted
  simp only [add, anyEntities_of_entities, bind, StateT.bind, asked]
  cases outcome <;> rfl

/-- What is answered was completed with the keys of a commit that succeeded. -/
theorem submit_of_add {arguments : List Datum} {results : List Entity}
    (answered : add Store.remote arguments s = (.ok results, after)) :
    ∃ entities result, arguments = entities.map Datum.entity ∧
      Store.remote.submit (additions entities) none s = (.ok result, after) ∧
      complete entities result.generated = .ok results := by
  have reads := reads_anyEntities "add" arguments
  cases checked : anyEntities "add" arguments with
  | error e =>
      rw [add, checked] at answered
      cases answered
  | ok entities =>
      rw [checked] at reads
      cases reads with
      | read _ each =>
          have given : List.Forall₂ (· = ·) arguments (entities.map Datum.entity) := List.forall₂_map_right_iff.mpr each
          rw [List.forall₂_eq_eq_eq] at given
          rw [given, add_entities] at answered
          rcases submitted : Store.remote.submit (additions entities) none s with ⟨outcome, next⟩
          rw [submitted] at answered
          cases outcome with
          | error e => cases answered
          | ok result =>
              obtain ⟨completed, rfl⟩ := Prod.mk.inj answered
              exact ⟨entities, result, given, submitted, completed⟩

/-- The generated keys of a commit that adds entities and succeeds are enough to complete them. -/
theorem add_of_submit {result : CommitResult}
    (submitted : Store.remote.submit (additions entities) none s = (.ok result, after)) :
    ∃ results, add Store.remote (entities.map Datum.entity) s = (.ok results, after) := by
  obtain ⟨results, -, -, -, completes⟩ := stored_of_submit submitted
  refine ⟨results, ?_⟩
  rw [add_entities, submitted]
  exact congrArg (·, after) completes.complete_eq

theorem getMany_of_keys (keys : List Key) (s : Store) :
    (getMany Store.remote (keys.map fun k => .key (.complete k)) s).1 = .ok (keys.map s.entities.at?) := by
  have read : completeKeys "get" (keys.map fun k => .key (.complete k)) = .ok keys := by
    induction keys with
    | nil => rfl
    | cons k rest ih => rw [List.map_cons, completeKeys, ih]; rfl
  rw [getMany, read]
  rfl

/-- Adding succeeds whenever its commit does, and answers what is new in the store: one entity for each argument, in
order, where those that came without a key have taken all generated keys in order. -/
theorem added_as_stored (s : Store) (arguments : List Datum) :
    (∀ entities result after, arguments = entities.map Datum.entity →
      Store.remote.submit (additions entities) none s = (.ok result, after) →
      ∃ results, add Store.remote arguments s = (.ok results, after)) ∧
    ∀ results after, add Store.remote arguments s = (.ok results, after) →
      ∃ entities generated, arguments = entities.map Datum.entity ∧
        Store.remote.submit (additions entities) none s = (.ok ⟨generated⟩, after) ∧
        Completes entities generated results ∧
        (results.map Entity.key).Nodup ∧
        (∀ e ∈ results, s.entities.at? e.key = none) ∧
        after.entities = s.entities ++ filedByKey results ∧
        (getMany Store.remote (results.map fun e => .key (.complete e.key)) after).1 = .ok (results.map some) := by
  refine ⟨fun entities result after given submitted => ?_, fun results after answered => ?_⟩
  · rw [given]
    exact add_of_submit submitted
  obtain ⟨entities, result, given, submitted, completed⟩ := submit_of_add answered
  obtain ⟨stored, grown, distinct, fresh, completes⟩ := stored_of_submit submitted
  rw [completes.complete_eq] at completed
  cases completed
  refine ⟨entities, result.generated, given, submitted, completes, distinct, ?_, grown, ?_⟩
  · intro e member
    exact (Bindings.at?_eq_none_iff _ _).mpr (fresh e member)
  · have found := getMany_of_keys (results.map Entity.key) after
    rw [List.map_map, List.map_map] at found
    apply found.trans
    apply congrArg Except.ok
    apply List.map_congr_left
    intro e member
    rw [Function.comp_apply, grown]
    exact at?_append_filedByKey distinct fresh member

/-- Two drafts that lack keys stand around a row of a projection and a draft that has a key, which is the next id but
one that would be given out. -/
theorem added_as_stored_of_mixture :
    let space : PartialKey := ⟨⟨"app", by decide⟩, none, [], ⟨"Task", by decide⟩⟩
    let key (n : EntityId) : Key := space.withIdentifier (.id n)
    let text (s : String) : Properties := [("text", .ofScalar (.string s))]
    let draft (s : String) : Datum := .entity (.draft (.incomplete space) (text s))
    let arguments : List Datum := [draft "first", .entity (.keyed ⟨.projected, key ⟨1, by decide⟩, text "row"⟩),
      .entity (.draft (.complete (key ⟨4, by decide⟩)) []), draft "second"]
    let s := Store.reached .standard [.commit [⟨.put, .entity (.keyed ⟨.stored, key ⟨2, by decide⟩, []⟩)⟩] none]
    let results : List Entity := [⟨.stored, key ⟨3, by decide⟩, text "first"⟩,
      ⟨.projected, key ⟨1, by decide⟩, text "row"⟩, ⟨.stored, key ⟨4, by decide⟩, []⟩,
      ⟨.stored, key ⟨5, by decide⟩, text "second"⟩]
    let added := add Store.remote arguments s
    added.1 = .ok results ∧ (results.map Entity.key).Nodup ∧
      added.2.entities = s.entities ++ filedByKey results ∧
      (getMany Store.remote (results.map fun e => .key (.complete e.key)) added.2).1 = .ok (results.map some) := by
  intro space key text draft arguments s results added
  have succeeded : added.1 = .ok results := by
    subst added results s arguments draft text key space
    cbv
  have answered : added = (.ok results, added.2) := by
    rw [← succeeded]
    exact Prod.mk.eta.symm
  obtain ⟨-, -, -, -, -, distinct, -, grown, found⟩ := (added_as_stored s arguments).2 results added.2 answered
  exact ⟨succeeded, distinct, grown, found⟩

end Client

end EntityStore
