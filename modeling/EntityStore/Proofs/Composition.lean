import EntityStore.Proofs.Commit
import EntityStore.Proofs.History

/-!
Commits of mutations with complete keys, as one list or one after the other.  Such a commit asks for no new
keys, so what it is answered and what it leaves is a fold over the list, and a fold over two lists in a row is
the one after the other.
-/

set_option autoImplicit false

namespace EntityStore

/-- Whether a commit was applied. -/
def isAccepted : Except Error CommitResponse → Bool
  | .ok ⟨_, none⟩ => true
  | _ => false

/-- Why a commit was refused, if it was. -/
def Event.rejection? : Event → Option Rejection
  | commit _ _ (.ok response) => response.rejection?
  | _ => none

/-- A commit of its own for each of some mutations. -/
def singly (mutations : List Mutation) : List Request := mutations.map fun m => .commit [m] none

namespace Mutation

/-- The entities after a mutation of a complete key. -/
def write (stored : Bindings Key Entity) (m : Mutation) : Bindings Key Entity :=
  match m.key with
  | .complete k => if m.kind = .delete then stored.remove k else stored.put k ⟨m.shape, k, m.properties⟩
  | .incomplete _ => stored

theorem key_of_complete {m : Mutation} (complete : m.key.isComplete = true) : ∃ k, m.key = .complete k := by
  cases key : m.key with
  | complete k => exact ⟨k, rfl⟩
  | incomplete space =>
      rw [key] at complete
      cases complete

theorem binds_write {m : Mutation} {k : Key} (key : m.key = .complete k) (stored : Bindings Key Entity) :
    (m.write stored).binds = m.storedAfter stored.binds := by
  funext other
  simp only [write, storedAfter, key]
  by_cases deleted : m.kind = .delete
  · rw [if_pos deleted, Bindings.binds_remove]
    by_cases here : other = k
    · simp [here, deleted]
    · simp [here, Ne.symm here]
  · rw [if_neg deleted, Bindings.binds_put]
    by_cases here : other = k
    · simp [here, deleted]
    · simp [here, Ne.symm here]

theorem binds_foldl_write {mutations : List Mutation} (complete : ∀ m ∈ mutations, m.key.isComplete = true)
    (stored : Bindings Key Entity) :
    (mutations.foldl write stored).binds = mutations.foldl storedAfter stored.binds := by
  induction mutations generalizing stored with
  | nil => rfl
  | cons m rest ih =>
      obtain ⟨completeHere, completeLater⟩ := List.forall_mem_cons.mp complete
      obtain ⟨k, key⟩ := key_of_complete completeHere
      rw [List.foldl_cons, List.foldl_cons, ih completeLater, binds_write key]

end Mutation

theorem firstUnmet_append (first second : List Mutation) (stored : Key → Bool) :
    firstUnmet stored (first ++ second) =
      (firstUnmet stored first).or (firstUnmet (first.foldl Mutation.storedAfter stored) second) := by
  induction first generalizing stored with
  | nil => rfl
  | cons m rest ih => rw [List.cons_append, firstUnmet, ih, firstUnmet, Option.or_assoc, List.foldl_cons]

namespace Progress

/-- A mutation of a complete key is refused if its demand is not met, and writes the key otherwise. -/
theorem apply_of_complete {m : Mutation} {k : Key} (key : m.key = .complete k) (reserved : List Key)
    (p : Progress) :
    p.apply reserved m = match m.unmet? p.entities.binds with
      | some r => .error (.refused r)
      | none => .ok { p with entities := m.write p.entities, touched := p.touched ++ [.complete k] } := by
  unfold apply Mutation.unmet? Mutation.write
  rw [key]
  cases kind : m.kind with
  | delete => rfl
  | put => rfl
  | add =>
      dsimp only
      cases p.entities.binds k with
      | true => rfl
      | false => rfl
  | update =>
      dsimp only
      cases p.entities.binds k with
      | true => rfl
      | false => rfl

/-- The mutations of a list are applied up to the first whose demand is not met. -/
theorem applyAll_of_complete {mutations : List Mutation} (complete : ∀ m ∈ mutations, m.key.isComplete = true)
    (reserved : List Key) (p : Progress) :
    match firstUnmet p.entities.binds mutations with
    | some r => ∃ entities touched,
        applyAll reserved p mutations = ({ p with entities, touched }, .error (.refused r))
    | none => applyAll reserved p mutations =
        ({ p with
            entities := mutations.foldl Mutation.write p.entities
            touched := p.touched ++ (namedKeys mutations).map .complete }, .ok ()) := by
  induction mutations generalizing p with
  | nil => simp [firstUnmet, applyAll, namedKeys]
  | cons m rest ih =>
      obtain ⟨completeHere, completeLater⟩ := List.forall_mem_cons.mp complete
      obtain ⟨k, key⟩ := Mutation.key_of_complete completeHere
      have named : namedKeys (m :: rest) = k :: namedKeys rest := by simp [namedKeys, key, AnyKey.key?]
      have here := apply_of_complete key reserved p
      rw [firstUnmet]
      cases demand : m.unmet? p.entities.binds with
      | some r =>
          rw [demand] at here
          exact ⟨p.entities, p.touched, by simp only [applyAll, here]⟩
      | none =>
          rw [demand] at here
          have later := ih completeLater
            { p with entities := m.write p.entities, touched := p.touched ++ [.complete k] }
          rw [Mutation.binds_write key] at later
          simp only [Option.none_or, applyAll, here]
          split
          · next r unmet =>
              rw [unmet] at later
              obtain ⟨entities, touched, ended⟩ := later
              exact ⟨entities, touched, ended⟩
          · next met =>
              rw [met] at later
              rw [later, named, List.map_cons, List.append_assoc, List.singleton_append]
              rfl

end Progress

namespace Store

/-- The store after mutations of complete keys were applied to it. -/
def writing (s : Store) (mutations : List Mutation) : Store :=
  s.applying ⟨mutations.foldl Mutation.write s.entities, s.counters, [], []⟩ (namedKeys mutations)

/-- A commit of mutations with complete keys is answered, and what it leaves is said by the entities alone. -/
theorem commit_of_complete (s : Store) {mutations : List Mutation}
    (complete : ∀ m ∈ mutations, m.key.isComplete = true) :
    s.commit mutations none = match firstUnmet s.entities.binds mutations with
      | some r => (.ok r.response, s.noting .commit)
      | none => (.ok ⟨[], none⟩, (s.noting .commit).writing mutations) := by
  have ended := Progress.applyAll_of_complete complete (s.reserved mutations) s.progress
  show (s.closing none).applyMutations mutations = _
  split
  · next r unmet =>
      rw [show s.progress.entities = s.entities from rfl, unmet] at ended
      obtain ⟨entities, touched, ended⟩ := ended
      rw [applyMutations_of_refused (s := s.closing none) ended]
      rfl
  · next met =>
      rw [show s.progress.entities = s.entities from rfl, met] at ended
      have all : ((namedKeys mutations).map AnyKey.complete).all AnyKey.isComplete = true := by
        simp [AnyKey.isComplete]
      have keys : ((namedKeys mutations).map AnyKey.complete).filterMap AnyKey.key? = namedKeys mutations := by
        simp [List.filterMap_map, Function.comp_def, AnyKey.key?]
      simp only [reserved, progress, List.nil_append] at ended
      simp only [applyMutations, closing, noting, Option.elim_none, ended, all, keys, ↓reduceIte]
      rfl

/-- Mutations that are committed one by one are refused first for the first demand that is not met. -/
theorem findSome?_rejection_singly (s : Store) {mutations : List Mutation}
    (complete : ∀ m ∈ mutations, m.key.isComplete = true) :
    (s.run (singly mutations)).1.findSome? Event.rejection? =
      (firstUnmet s.entities.binds mutations).bind fun r => r.response.rejection? := by
  induction mutations generalizing s with
  | nil => rfl
  | cons m rest ih =>
      obtain ⟨completeHere, completeLater⟩ := List.forall_mem_cons.mp complete
      obtain ⟨k, key⟩ := Mutation.key_of_complete completeHere
      have single : ∀ other ∈ [m], other.key.isComplete = true := by simpa using completeHere
      have committed := s.commit_of_complete single
      have first : s.perform (.commit [m] none) = (s.commit [m] none).map (.commit [m] none) id := rfl
      have alone : firstUnmet s.entities.binds [m] = m.unmet? s.entities.binds := by
        rw [firstUnmet, firstUnmet, Option.or_none]
      rw [singly, List.map_cons, run_cons, first, committed, alone, List.findSome?_cons, firstUnmet]
      cases demand : m.unmet? s.entities.binds with
      | some r => rfl
      | none =>
          rw [Option.none_or, ← Mutation.binds_write key]
          exact ih ((s.noting .commit).writing [m]) completeLater

theorem writing_append (s : Store) (first second : List Mutation) (call : StoreCall) :
    (s.writing (first ++ second)).entities = (((s.writing first).noting call).writing second).entities ∧
      (s.writing (first ++ second)).counters = (((s.writing first).noting call).writing second).counters := by
  have named : namedKeys (first ++ second) = namedKeys first ++ namedKeys second := List.filterMap_append
  constructor
  · exact List.foldl_append
  · simp only [writing, applying, noting, named, List.foldl_append]

/-- Committing two lists of mutations with complete keys as one is answered like committing them one after the other,
and if it succeeds it leaves the same entities and counters. -/
theorem commit_append (s : Store) {first second : List Mutation}
    (complete : ∀ m ∈ first ++ second, m.key.isComplete = true) :
    let whole := s.commit (first ++ second) none
    let early := s.commit first none
    let late := early.2.commit second none
    (∃ response, whole.1 = .ok response ∧ response.assigned = [] ∧
      response.rejection? = (s.run (singly (first ++ second))).1.findSome? Event.rejection?) ∧
    (isAccepted whole.1 = true ↔ isAccepted early.1 = true ∧ isAccepted late.1 = true) ∧
    (isAccepted whole.1 = true →
      whole.2.entities = late.2.entities ∧ whole.2.counters = late.2.counters) := by
  obtain ⟨completeFirst, completeSecond⟩ := List.forall_mem_append.mp complete
  simp only [s.findSome?_rejection_singly complete, s.commit_of_complete complete,
    s.commit_of_complete completeFirst, firstUnmet_append]
  cases refused : firstUnmet s.entities.binds first with
  | some r =>
      exact ⟨⟨r.response, rfl, rfl, rfl⟩, by simp [isAccepted, Refusal.response], fun accepted => by cases accepted⟩
  | none =>
      have moved : ((s.noting .commit).writing first).entities.binds =
          first.foldl Mutation.storedAfter s.entities.binds :=
        Mutation.binds_foldl_write completeFirst s.entities
      have late := ((s.noting .commit).writing first).commit_of_complete completeSecond
      rw [moved] at late
      simp only [Option.none_or, late]
      cases firstUnmet (first.foldl Mutation.storedAfter s.entities.binds) second with
      | some r =>
          exact ⟨⟨r.response, rfl, rfl, rfl⟩, by simp [isAccepted, Refusal.response], fun accepted => by cases accepted⟩
      | none =>
          have same := (s.noting .commit).writing_append first second .commit
          exact ⟨⟨⟨[], none⟩, rfl, rfl, rfl⟩, by simp [isAccepted], fun _ => same⟩

/-- The second list adds a key that the first one has put. -/
theorem commit_append_of_present :
    let key (n : EntityId) : Key := ⟨⟨⟨"app", by decide⟩, none, [], ⟨"Task", by decide⟩⟩, .id n⟩
    let first : List Mutation :=
      [⟨.put, .entity (.keyed ⟨.stored, key ⟨7, by decide⟩, []⟩)⟩,
        ⟨.delete, .key (.complete (key ⟨1, by decide⟩))⟩]
    let second : List Mutation :=
      [⟨.update, .entity (.keyed ⟨.stored, key ⟨7, by decide⟩, []⟩)⟩,
        ⟨.add, .entity (.draft (.complete (key ⟨7, by decide⟩)) [])⟩]
    let s := empty .standard
    (∀ m ∈ first ++ second, m.key.isComplete = true) ∧ isAccepted (s.commit first none).1 = true ∧
      isAccepted (s.commit (first ++ second) none).1 = false ∧
      (s.run (singly (first ++ second))).1.findSome? Event.rejection? =
        (Refusal.present (key ⟨7, by decide⟩)).response.rejection? := by
  intro key first second s
  have complete : ∀ m ∈ first ++ second, m.key.isComplete = true := by decide
  have early : isAccepted (s.commit first none).1 = true := by rfl
  have whole : (s.commit (first ++ second) none).1 = .ok (Refusal.present (key ⟨7, by decide⟩)).response := by rfl
  obtain ⟨⟨response, answered, -, reason⟩, -, -⟩ := s.commit_append complete
  cases whole.symm.trans answered
  exact ⟨complete, early, by rw [whole]; rfl, reason.symm⟩

end Store

end EntityStore
