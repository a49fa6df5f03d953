import EntityStore.Proofs.Changes
import EntityStore.Proofs.Equality
import Mathlib

set_option autoImplicit false

namespace EntityStore

/-- The keys that a mutation can touch: the one that it names, or one that is made for it. -/
inductive Mutation.Touches (m : Mutation) : AnyKey → Prop where
  | named (k : Key) (key : m.key = .complete k) : Touches m (.complete k)
  | made (k : Key) (kind : m.kind = .add) (key : m.key = .incomplete k.toPartialKey) : Touches m (.complete k)
  | deleted (space : PartialKey) (kind : m.kind = .delete) (key : m.key = .incomplete space) :
      Touches m (.incomplete space)

namespace Progress

/-- A mutation that is applied touches one key. -/
theorem touches_of_apply {reserved : List Key} {p q : Progress} {m : Mutation}
    (applied : p.apply reserved m = .ok q) : ∃ k, m.Touches k ∧ q.touched = p.touched ++ [k] := by
  unfold apply at applied
  split at applied
  · next space kind key =>
      cases applied
      exact ⟨_, Mutation.Touches.deleted space kind key, rfl⟩
  · next k kind key =>
      cases applied
      exact ⟨_, Mutation.Touches.named k key, rfl⟩
  · next space kind key =>
      split at applied
      · cases applied
      · next k counters found =>
          cases applied
          have own := (Counters.mints_of_allocate found).2.1
          exact ⟨_, Mutation.Touches.made k kind (own ▸ key), rfl⟩
  · cases applied
  · cases applied
  · next k kind key =>
      split at applied
      · cases applied
      · cases applied
        exact ⟨_, Mutation.Touches.named k key, rfl⟩
  · next k kind key =>
      split at applied
      · cases applied
        exact ⟨_, Mutation.Touches.named k key, rfl⟩
      · cases applied
  · next k kind key =>
      cases applied
      exact ⟨_, Mutation.Touches.named k key, rfl⟩

theorem Applies.touches {reserved : List Key} {p q : Progress} {mutations : List Mutation}
    (applied : Applies reserved p mutations q) :
    ∃ touched, q.touched = p.touched ++ touched ∧ List.Forall₂ Mutation.Touches mutations touched := by
  induction applied with
  | done p => exact ⟨[], (List.append_nil _).symm, List.Forall₂.nil⟩
  | next first _ ih =>
      obtain ⟨k, touches, one⟩ := touches_of_apply first
      obtain ⟨touched, more, each⟩ := ih
      refine ⟨k :: touched, ?_, List.Forall₂.cons touches each⟩
      rw [more, one, List.append_assoc, List.singleton_append]

/-- A mutation fails only for want of an id. -/
theorem failed_of_apply {reserved : List Key} {p : Progress} {m : Mutation} {e : Error}
    (halted : p.apply reserved m = .error (.failed e)) : e ≠ .failure .incompleteDelete := by
  unfold apply at halted
  split at halted
  · cases halted
  · cases halted
  · split at halted
    · next full =>
        cases halted
        unfold Counters.allocate at full
        dsimp only at full
        split at full
        · cases full
        · cases full
          exact nofun
    · cases halted
  · cases halted
  · cases halted
  · split at halted <;> cases halted
  · split at halted <;> cases halted
  · cases halted

end Progress

/-- Among keys of which not all are complete there is a first one that is not. -/
theorem exists_first_incomplete {keys : List AnyKey} (partly : keys.all AnyKey.isComplete = false) :
    ∃ settled space rest, keys = settled ++ .incomplete space :: rest ∧
      keys.takeWhile AnyKey.isComplete = settled ∧ ∀ k ∈ settled, k.isComplete = true := by
  induction keys with
  | nil => cases partly
  | cons first rest ih =>
      cases first with
      | incomplete space => exact ⟨[], space, rest, rfl, rfl, List.forall_mem_nil _⟩
      | complete k =>
          obtain ⟨settled, space, later, rfl, taken, complete⟩ := ih partly
          refine ⟨.complete k :: settled, space, later, rfl, ?_, List.forall_mem_cons.mpr ⟨rfl, complete⟩⟩
          rw [List.takeWhile_cons_of_pos (by rfl), taken]

namespace Store

/-- What a commit leaves that is stopped by a key without an id or name which it was to delete, apart from what every
failing commit leaves: this key and some of the others that the commit touches have a new version. -/
structure Interrupted (s : Store) (mutations : List Mutation) (after : Store) : Prop where
  version : after.version = s.version + 1
  stopped : ∃ space, (∃ m ∈ mutations, m.kind = .delete ∧ m.key = .incomplete space) ∧
    after.versionOf (.incomplete space) = s.version + 1 ∧
    ∀ other, other ≠ space → after.versionOf (.incomplete other) = s.versionOf (.incomplete other)
  moved : ∀ k, after.versionOf k = s.versionOf k ∨
    after.versionOf k = s.version + 1 ∧ ∃ m ∈ mutations, m.Touches k

theorem applyMutations_of_interrupted {s : Store} {mutations : List Mutation} {p : Progress}
    {settled rest : List AnyKey} {space : PartialKey}
    (ended : Progress.applyAll (s.reserved mutations) s.progress mutations = (p, .ok ()))
    (touched : p.touched = settled ++ .incomplete space :: rest)
    (taken : p.touched.takeWhile AnyKey.isComplete = settled) :
    s.applyMutations mutations = (.error (.failure .incompleteDelete),
      { s.touching (settled ++ [.incomplete space]) with
        counters := (settled.filterMap AnyKey.key?).foldl Counters.reserve p.counters }) := by
  have incomplete : p.touched.all AnyKey.isComplete = false := by simp [touched, AnyKey.isComplete]
  have start : p.touched.take (settled.length + 1) = settled ++ [.incomplete space] := by
    rw [touched, List.take_length_add_append, List.take_succ_cons, List.take_zero]
  simp only [reserved, progress] at ended
  simp only [applyMutations, ended, incomplete, taken, start, Bool.false_eq_true, ↓reduceIte]

theorem interrupted_of_touching {s after : Store} {mutations : List Mutation} {settled rest : List AnyKey}
    {space : PartialKey} (touches : List.Forall₂ Mutation.Touches mutations (settled ++ .incomplete space :: rest))
    (complete : ∀ k ∈ settled, k.isComplete = true) (version : after.version = s.version + 1)
    (versions : ∀ k, after.versionOf k =
      if k ∈ settled ++ [.incomplete space] then s.version + 1 else s.versionOf k) :
    s.Interrupted mutations after where
  version := version
  stopped := by
    refine ⟨space, ?_, ?_, fun other different => ?_⟩
    · have present : AnyKey.incomplete space ∈ settled ++ .incomplete space :: rest :=
        List.mem_append_right _ List.mem_cons_self
      obtain ⟨m, member, touched⟩ := exists_mem_of_forall₂ touches.flip present
      cases touched with
      | deleted _ kind key => exact ⟨m, member, kind, key⟩
    · rw [versions, if_pos (List.mem_append_right _ List.mem_cons_self)]
    · rw [versions, if_neg]
      rw [List.mem_append, not_or, List.mem_singleton, AnyKey.incomplete.injEq]
      refine ⟨fun early => ?_, different⟩
      cases complete _ early
  moved k := by
    rw [versions]
    split
    · next member =>
        refine Or.inr ⟨rfl, ?_⟩
        have present : k ∈ settled ++ .incomplete space :: rest := by
          rw [← List.singleton_append, ← List.append_assoc]
          exact List.mem_append_left _ member
        exact exists_mem_of_forall₂ touches.flip present
    · exact Or.inl rfl

/-- What a commit that ends in an error leaves: all that a refused one leaves, but for the versions if it was
stopped by the deletion of a key without an id or name. -/
structure Fails (s : Store) (mutations : List Mutation) (handle? : Option Handle) (e : Error) (after : Store) :
    Prop where
  stored : s.Kept handle? { after with version := s.version, versions := s.versions }
  kept : e ≠ .failure .incompleteDelete → s.Kept handle? after
  interrupted : e = .failure .incompleteDelete → s.Interrupted mutations after

theorem fails_of_applyMutations {s : Store} {mutations : List Mutation} {handle? : Option Handle} {e : Error}
    (failed : ((s.closing handle?).applyMutations mutations).1 = .error e) :
    s.Fails mutations handle? e ((s.closing handle?).applyMutations mutations).2 := by
  rcases ended : Progress.applyAll (s.reserved mutations) s.progress mutations with ⟨p, halt | ⟨⟩⟩
  · obtain ⟨_, _, _, _, applied, halted⟩ := Progress.applies_of_halt ended
    have grown := kept_of_grows applied.growsTo handle?
    cases halt with
    | refused r =>
        rw [applyMutations_of_refused (s := s.closing handle?) ended] at failed
        cases failed
    | failed other =>
        rw [applyMutations_of_failed (s := s.closing handle?) ended] at failed ⊢
        cases failed
        exact ⟨grown, fun _ => grown, fun same => absurd same (Progress.failed_of_apply halted)⟩
  · have applied := Progress.applies_of_applyAll ended
    obtain ⟨touched, all, touches⟩ := applied.touches
    have own : p.touched = touched := all
    cases whole : p.touched.all AnyKey.isComplete with
    | true =>
        simp only [reserved, progress] at ended
        simp only [applyMutations, closing, noting, ended, whole, ↓reduceIte] at failed
        cases failed
    | false =>
        obtain ⟨settled, space, rest, split, taken, complete⟩ := exists_first_incomplete whole
        rw [applyMutations_of_interrupted (s := s.closing handle?) ended split taken] at failed ⊢
        cases failed
        rw [← own, split] at touches
        have grows := applied.growsTo.trans
          (Counters.growsTo_foldl_reserve (settled.filterMap AnyKey.key?) p.counters)
        refine ⟨kept_of_grows grows handle?, fun other => absurd rfl other, fun _ => ?_⟩
        exact interrupted_of_touching touches complete rfl fun k => (s.closing handle?).versionOf_touching _ k

/-- A commit that ends in an error changes only which ids are given out, unless a key without an id or name was to be
deleted: then this key and some others that the mutations touch count as changed. -/
theorem kept_unless_interrupted (s : Store) (mutations : List Mutation) (handle? : Option Handle) {e : Error}
    (failed : (s.commit mutations handle?).1 = .error e) :
    s.Kept handle? { (s.commit mutations handle?).2 with version := s.version, versions := s.versions } ∧
    (e ≠ .failure .incompleteDelete → s.Kept handle? (s.commit mutations handle?).2 ∧
      ∀ (t : OpenTransaction) (later : List Mutation),
        t.conflict? (s.commit mutations handle?).2 later = t.conflict? s later) ∧
    (e = .failure .incompleteDelete → s.Interrupted mutations (s.commit mutations handle?).2) := by
  suffices fails : s.Fails mutations handle? e (s.commit mutations handle?).2 by
    refine ⟨fails.stored, fun other => ?_, fails.interrupted⟩
    have kept := fails.kept other
    refine ⟨kept, fun t later => ?_⟩
    unfold OpenTransaction.conflict? versionOf
    rw [kept.versions]
  cases handle? with
  | none => exact fails_of_applyMutations failed
  | some h =>
      cases found : s.transactions.at? h with
      | none =>
          rw [commit_of_unknown found] at failed
          cases failed
      | some t =>
          cases conflict : t.conflict? s mutations with
          | some k =>
              rw [commit_of_conflict found conflict] at failed
              cases failed
          | none =>
              rw [commit_of_clear found conflict] at failed ⊢
              exact fails_of_applyMutations failed

/-- Between two entities to store a key is to be deleted that lacks an id: neither entity is stored, and the key and
the entity before it have changed. -/
theorem kept_unless_interrupted_between_puts :
    let space : PartialKey := ⟨⟨"app", by decide⟩, none, [], ⟨"Task", by decide⟩⟩
    let put (n : EntityId) : Mutation := ⟨.put, .entity (.keyed ⟨.stored, space.withIdentifier (.id n), []⟩)⟩
    let mutations := [put ⟨1, by decide⟩, ⟨.delete, .key (.incomplete space)⟩, put ⟨2, by decide⟩]
    let s := reached .standard [.commit [put ⟨3, by decide⟩] none]
    let after := (s.commit mutations none).2
    (s.commit mutations none).1 = .error (.failure .incompleteDelete) ∧
      s.Kept none { after with version := s.version, versions := s.versions } ∧ s.Interrupted mutations after ∧
      after.versionOf (.complete (space.withIdentifier (.id ⟨1, by decide⟩))) = 2 := by
  intro space put mutations s after
  have failed : (s.commit mutations none).1 = .error (.failure .incompleteDelete) := by rfl
  obtain ⟨stored, -, interrupted⟩ := s.kept_unless_interrupted mutations none failed
  exact ⟨failed, stored, interrupted rfl, by rfl⟩

/-- A transaction that has queried below a key is aborted because the deletion of a key below it that lacks an id
has failed. -/
theorem aborted_by_failed_delete :
    let team : PartialKey := ⟨⟨"app", by decide⟩, none, [], ⟨"Team", by decide⟩⟩
    let parent : Key := team.withIdentifier (.id ⟨1, by decide⟩)
    let space : PartialKey := parent.childSpace ⟨"Task", by decide⟩
    let below : StructuredQuery := ⟨.full, none, none, some (.condition (.hasAncestor parent)), [], [], [], none, 0⟩
    let s := reached .standard [.beginTransaction, .runQuery (.structured below) (some (handle 1)) .none]
    let failed := s.commit [⟨.delete, .entity (.draft (.incomplete space) [])⟩] none
    failed.1 = .error (.failure .incompleteDelete) ∧ (failed.2.version = 1 ∧ s.version = 0) ∧
      (failed.2.versionOf (.incomplete space) = 1 ∧ s.versionOf (.incomplete space) = 0) ∧
      (s.commit [] (some (handle 1))).1 = .ok ⟨[], none⟩ ∧
      (failed.2.commit [] (some (handle 1))).1 = .ok (Refusal.conflict parent).response := by
  intro team parent space below s failed
  have watching : s = { (empty .standard).beginTransaction.2 with
      transactions := [(handle 1, ⟨[], 0, [], [parent]⟩)]
      queried := 1
      calls := [.beginTransaction, .runQuery] } := by
    subst failed s below space parent team
    cbv
  have stopped : failed = (.error (.failure .incompleteDelete), { s with
      version := 1
      versions := [(.incomplete space, 1)]
      calls := [.beginTransaction, .runQuery, .commit] }) := by
    subst failed
    rw [watching]
    rfl
  rw [stopped, watching]
  refine ⟨rfl, ⟨rfl, rfl⟩, ⟨rfl, rfl⟩, rfl, ?_⟩
  exact congrArg Prod.fst (commit_of_conflict (t := ⟨[], 0, [], [parent]⟩) (k := parent) rfl rfl)

end Store

end EntityStore
