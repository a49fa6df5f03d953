import EntityStore.Proofs.Changes
import Mathlib.Algebra.Group.Nat.Defs

set_option autoImplicit false

namespace EntityStore

theorem PartialKey.spaces_of_checkAll {keys : List Datum} {spaces : List PartialKey}
    (checked : checkAll keys = .ok spaces) : keys.filterMap Datum.space? = spaces := by
  induction keys generalizing spaces with
  | nil =>
      cases checked
      rfl
  | cons d rest ih =>
      unfold checkAll at checked
      split at checked
      · next impossible => cases impossible
      · next space more first =>
          cases first
          cases later : checkAll rest with
          | error e =>
              rw [later] at checked
              cases checked
          | ok more =>
              rw [later] at checked
              cases checked
              rw [List.filterMap_cons, ih later]
              rfl
      · cases checked

namespace Store

/-- What a commit gives out answers its additions without keys, and avoids the keys that it names. -/
theorem issued_of_commit (s : Store) {mutations : List Mutation} (staged : Staged mutations)
    (handle? : Option Handle) {event : Event}
    (answered : event = .commit mutations handle? (s.commit mutations handle?).1) :
    event.issued.map Key.toPartialKey = event.requested ∧ ∀ k ∈ event.issued, k ∉ event.named := by
  obtain ⟨response, next, committed, ends⟩ := s.commit_ends staged handle?
  rw [committed] at answered
  subst answered
  cases ends with
  | unknown h named unknown => exact ⟨rfl, by simp [Event.issued, Refusal.response]⟩
  | conflict h t k named found conflict => exact ⟨rfl, by simp [Event.issued, Refusal.response]⟩
  | refused r counters clear grows unmet => exact ⟨rfl, by simp [Event.issued, Refusal.response]⟩
  | failed e counters clear grows => exact ⟨rfl, by simp [Event.issued]⟩
  | applied p made written clear met adds =>
      refine ⟨adds.spaces, fun k member named => ?_⟩
      exact adds.unreserved k member (List.mem_append_right _ named)

theorem issued_of_allocateIds (s : Store) (keys : List Datum) {event : Event}
    (answered : event = .allocateIds keys (s.allocateIds keys).1) :
    event.issued.map Key.toPartialKey = event.requested := by
  unfold allocateIds at answered
  split at answered
  · subst answered
    rfl
  · next spaces checked =>
      subst answered
      dsimp only
      cases found : (Counters.allocateAll (s.noting .allocateIds).entities.names
        (s.noting .allocateIds).counters spaces).1 with
      | error e => rfl
      | ok made =>
          rw [Event.requested, PartialKey.spaces_of_checkAll checked]
          exact (Counters.mints_of_allocateAll found).2

theorem issued_of_perform (s : Store) {request : Request} (staged : request.IsStaged) :
    (s.perform request).1.issued.map Key.toPartialKey = (s.perform request).1.requested ∧
      ∀ k ∈ (s.perform request).1.issued, k ∉ (s.perform request).1.named := by
  cases request with
  | lookup keys handle? => exact ⟨rfl, nofun⟩
  | runQuery query handle? token => exact ⟨rfl, nofun⟩
  | commit mutations handle? => exact s.issued_of_commit staged handle? rfl
  | beginTransaction => exact ⟨rfl, nofun⟩
  | rollback h => exact ⟨rfl, nofun⟩
  | allocateIds keys => exact ⟨s.issued_of_allocateIds keys rfl, fun _ _ => nofun⟩

/-- The keys that a call gives out answer the partial keys in order.  They are different, and new after any history;
each search for one ends at the first free number above the counter. -/
theorem issued_fresh (s : Store) {earlier : List Request} {request : Request}
    (stagedEarlier : ∀ other ∈ earlier, other.IsStaged) (staged : request.IsStaged) :
    let events := (s.run earlier).1
    let before := (s.run earlier).2
    let event := (before.perform request).1
    event.issued.Nodup ∧ event.issued.map Key.toPartialKey = event.requested ∧
      (∀ k ∈ event.issued,
        (∀ past ∈ events, k ∉ past.issued ∧ k ∉ past.written) ∧ k ∉ event.named ∧
          ∃ id, k.identifier = .id id ∧ 1 ≤ id.value ∧ id.value ≤ 2 ^ 63 - 1) ∧
      ∀ taken space, ∃ n, before.counterOf space < n ∧ n ∉ usedIds taken space ∧
        (∀ m, before.counterOf space < m → m < n → m ∈ usedIds taken space) ∧
        Counters.allocate before.counters taken space =
          match EntityId.ofInt? n with
          | some id => .ok (space.withIdentifier (.id id), before.counters.put space n)
          | none => .error (KeyFault.idRange n).error := by
  intro events before event
  have history := s.changes_of_run stagedEarlier
  have minted := (before.changes_of_perform staged).minted
  obtain ⟨requested, unnamed⟩ := before.issued_of_perform staged
  refine ⟨minted.distinct, requested, fun k member => ⟨?_, unnamed k member, ?_⟩,
    Counters.allocate_search before.counters⟩
  · intro past known
    constructor
    · intro issued
      exact minted.uncovered k member
        (history.minted.covered k (List.mem_flatMap.mpr ⟨past, known, issued⟩))
    · intro written
      exact minted.uncovered k member (history.covered k (List.mem_flatMap.mpr ⟨past, known, written⟩))
  · obtain ⟨id, numbered⟩ := minted.numbered k member
    exact ⟨id, numbered, id.inRange⟩

theorem issued_fresh_after_put :
    let space : PartialKey := ⟨⟨"app", by decide⟩, none, [], ⟨"Task", by decide⟩⟩
    let key (n : EntityId) : Key := space.withIdentifier (.id n)
    let earlier : List Request :=
      [.commit [⟨.put, .entity (.keyed ⟨.stored, key ⟨1, by decide⟩, []⟩)⟩] none,
        .allocateIds [.key (.incomplete space)]]
    let request : Request := .commit
      [⟨.add, .entity (.draft (.incomplete space) [])⟩,
        ⟨.delete, .key (.complete (key ⟨3, by decide⟩))⟩] none
    let history := (empty .standard).run earlier
    let event := (history.2.perform request).1
    ((∀ other ∈ earlier, other.IsStaged) ∧ request.IsStaged) ∧
      event.issued = [key ⟨4, by decide⟩] ∧
      ∀ past ∈ history.1, key ⟨4, by decide⟩ ∉ past.issued ∧ key ⟨4, by decide⟩ ∉ past.written := by
  intro space key earlier request history event
  have stagedEarlier : ∀ other ∈ earlier, other.IsStaged := by decide +revert
  have staged : request.IsStaged := by decide +revert
  have issued : event.issued = [key ⟨4, by decide⟩] := by decide +revert
  have fresh := (issued_fresh (empty .standard) stagedEarlier staged).2.2.1
  refine ⟨⟨stagedEarlier, staged⟩, issued, ?_⟩
  exact (fresh _ (issued ▸ List.mem_singleton_self _)).1

end Store

end EntityStore
