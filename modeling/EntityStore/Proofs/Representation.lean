import EntityStore.Proofs.Eviction
import EntityStore.Proofs.Handles

set_option autoImplicit false

namespace EntityStore

namespace Store

variable {s next : Store}

/-- What was not written was stored before. -/
theorem Changes.stored_before {written issued : List Key} (changes : Changes s next written issued) {k : Key}
    (unwritten : k ∉ written) (stored : k ∈ next.entities.names) : k ∈ s.entities.names := by
  rw [Bindings.mem_names_iff] at stored ⊢
  rwa [changes.frame k unwritten] at stored

/-- An open transaction has just begun, or it was open before with the same snapshot. -/
theorem opened_of_perform_cases {request : Request} {h : Handle} {t : OpenTransaction}
    (opened : (s.perform request).2.transactions.at? h = some t) :
    (request = .beginTransaction ∧ t = ⟨s.entities, s.version, [], []⟩) ∨
      ∃ earlier, s.transactions.at? h = some earlier ∧ t.snapshot = earlier.snapshot ∧ t.version = earlier.version := by
  cases ended : request.ends h with
  | true =>
      rw [s.closed_of_perform ended] at opened
      cases opened
  | false =>
      by_cases begins : request = .beginTransaction ∧ h = handle (s.begun + 1)
      · obtain ⟨rfl, rfl⟩ := begins
        have begun : (s.perform .beginTransaction).2.transactions.at? (handle (s.begun + 1)) =
            some ⟨s.entities, s.version, [], []⟩ := Bindings.at?_put_self _ _ _
        exact .inl ⟨rfl, Option.some.inj (opened.symm.trans begun)⟩
      · rw [s.transactions_of_perform ended fun first same => begins ⟨first, same⟩] at opened
        obtain ⟨earlier, found, rfl⟩ := Option.map_eq_some_iff.mp opened
        exact .inr ⟨earlier, found, rfl, rfl⟩

/-- Whether a snapshot is of a version that there was, and agrees with the entities on the keys that have not changed
since. -/
structure Remembers (s : Store) (t : OpenTransaction) : Prop where
  version : t.version ≤ s.version
  agrees : ∀ k, s.versionOf (.complete k) ≤ t.version → t.snapshot.at? k = s.entities.at? k

/-- What is written gets a newer version, so a snapshot still agrees with the rest. -/
theorem Remembers.changes {t : OpenTransaction} (remembers : s.Remembers t) {written issued : List Key}
    (changes : Changes s next written issued) : next.Remembers t where
  version := Nat.le_trans remembers.version changes.version
  agrees k old := by
    have newer := (changes.stamped k t.version remembers.version).not.mp (Nat.not_lt.mpr old)
    obtain ⟨before, unwritten⟩ := not_or.mp newer
    rw [changes.frame k unwritten]
    exact remembers.agrees k (Nat.not_lt.mp before)

/-- What holds of a store between any two calls. -/
structure Represented (s : Store) : Prop where
  sound : s.Sound
  stamped : ∀ k ∈ s.entities.names, 1 ≤ s.versionOf (.complete k)
  covered : ∀ k ∈ s.entities.names, Counters.Covers s.counters k
  numbered : s.Numbered
  remembered : ∀ h t, s.transactions.at? h = some t → s.Remembers t
  queued : s.Queued
  unserved : ∀ id cursor, s.cursors.at? id = some cursor → s.limits.pageSize < cursor.rows.length

theorem represented_empty (limits : StoreLimits) : (empty limits).Represented where
  sound := sound_empty limits
  stamped := nofun
  covered := nofun
  numbered := numbered_empty limits
  remembered := nofun
  queued := queued_empty limits
  unserved := nofun

/-- A query that is kept has more rows than its first page. -/
theorem unserved_of_tends {request : Request} {event : Event} (tends : Tends s request event next)
    (queued : s.Queued) (limits : next.limits = s.limits)
    (unserved : ∀ id cursor, s.cursors.at? id = some cursor → s.limits.pageSize < cursor.rows.length) (id : Nat)
    (cursor : Cursor) (kept : next.cursors.at? id = some cursor) : next.limits.pageSize < cursor.rows.length := by
  rw [limits]
  by_cases used : id ≤ s.queried
  · rcases tends.at?_eq queued.numbered used with same | dropped
    · exact unserved id cursor (same ▸ kept)
    · rw [dropped] at kept
      cases kept
  -- A number that is new is that of the query that was started, and it is kept only if its first page is not all.
  · have bounded := (tends.numbered queued.numbered).bounded id ((Bindings.mem_names_iff _ id).mpr ⟨cursor, kept⟩)
    cases tends with
    | idle cursors queried => omega
    | finished other fetched cursors queried => omega
    | started newest starts more cursors queried =>
        obtain rfl : id = s.queried + 1 := by omega
        have held := Holds.newest queued.numbered newest
        rw [cursors, held.at?_eq (queued.keep newest).numbered] at kept
        exact Option.some.inj kept ▸ more
    | answered newest starts all cursors queried =>
        obtain rfl : id = s.queried + 1 := by omega
        rw [cursors, Bindings.at?_remove_self] at kept
        cases kept

/-- One call. -/
theorem Represented.perform (represented : s.Represented) {request : Request} (staged : request.IsStaged) :
    (s.perform request).2.Represented := by
  have changes := s.changes_of_perform staged
  refine ⟨changes.sound represented.sound, fun k stored => ?_, fun k stored => ?_,
    numbered_of_perform represented.numbered request, fun h t opened => ?_, represented.queued.perform request,
    unserved_of_tends (s.tends_of_perform request) represented.queued changes.limits represented.unserved⟩
  · refine (changes.stamped k 0 (Nat.zero_le _)).mpr ?_
    by_cases written : k ∈ (s.perform request).1.written
    · exact .inr written
    · exact .inl (represented.stamped k (changes.stored_before written stored))
  · by_cases written : k ∈ (s.perform request).1.written
    · exact changes.covered k written
    · exact (represented.covered k (changes.stored_before written stored)).mono changes.minted.grows
  · rcases opened_of_perform_cases opened with ⟨rfl, rfl⟩ | ⟨earlier, found, snapshot, version⟩
    · exact ⟨Nat.le_refl _, fun _ _ => rfl⟩
    · have remembers := (represented.remembered h earlier found).changes changes
      refine ⟨version ▸ remembers.version, fun k old => ?_⟩
      rw [snapshot]
      exact remembers.agrees k (version ▸ old)

/-- Any number of calls. -/
theorem Represented.run (represented : s.Represented) {requests : List Request}
    (staged : ∀ request ∈ requests, request.IsStaged) : (s.run requests).2.Represented := by
  induction requests generalizing s with
  | nil => exact represented
  | cons request rest ih =>
      obtain ⟨stagedHere, stagedLater⟩ := List.forall_mem_cons.mp staged
      exact ih (represented.perform stagedHere) stagedLater

theorem begun_le_of_run (s : Store) (requests : List Request) : s.begun ≤ (s.run requests).2.begun := by
  obtain ⟨count, begun, -⟩ := s.handles_of_run requests
  omega

/-- Whatever is called later, a new query gets a number that none of those kept now has, and a new transaction a handle
that none of those open now has. -/
theorem Represented.unused (represented : s.Represented) (later : List Request) :
    (∀ cursor, ((s.run later).2.keep cursor).1 ∉ s.cursors.names) ∧
      (s.run later).2.beginTransaction.1 ∉ s.transactions.names := by
  constructor
  · intro cursor kept
    have bounded := represented.queued.numbered.bounded _ kept
    have grows := s.queried_le_of_run later
    have number : ((s.run later).2.keep cursor).1 = (s.run later).2.queried + 1 := rfl
    omega
  · intro opened
    obtain ⟨t, found⟩ := (Bindings.mem_names_iff _ _).mp opened
    obtain ⟨n, old, same⟩ := represented.numbered _ t found
    have number : (s.run later).2.begun + 1 = n := handle_injective same
    have grows := s.begun_le_of_run later
    omega

/-- Every store that calls lead to keeps what its parts promise each other: entities under their keys, versions up to
its own, counters past all ids, and no more unfinished queries than the limit. -/
theorem represented_reached (limits : StoreLimits) {requests : List Request}
    (staged : ∀ request ∈ requests, request.IsStaged) :
    let s := reached limits requests
    (∀ k e, s.entities.at? k = some e → e.key = k) ∧
      (∀ k ∈ s.entities.names, 1 ≤ s.versionOf (.complete k) ∧ s.versionOf (.complete k) ≤ s.version) ∧
      (∀ k v, (k, v) ∈ s.versions → v ≤ s.version) ∧
      (∀ h t, s.transactions.at? h = some t → t.version ≤ s.version ∧
        ∀ k, s.versionOf (.complete k) ≤ t.version → t.snapshot.at? k = s.entities.at? k) ∧
      (∀ k id, k.identifier = .id id →
        (k ∈ s.entities.names ∨ ∃ event ∈ ((empty limits).run requests).1, k ∈ event.written) →
        id.value ≤ s.counterOf k.toPartialKey) ∧
      s.cursors.length ≤ limits.maxCursors ∧
      (∀ id cursor, s.cursors.at? id = some cursor → limits.pageSize < cursor.rows.length) ∧
      ∀ later, (∀ cursor, ((s.run later).2.keep cursor).1 ∉ s.cursors.names) ∧
        (s.run later).2.beginTransaction.1 ∉ s.transactions.names := by
  intro s
  have represented : s.Represented := (represented_empty limits).run staged
  have changes : Changes (empty limits) s _ _ := (empty limits).changes_of_run staged
  have same : s.limits = limits := limits_reached limits requests
  refine ⟨fun k e found => ?_, fun k stored => ⟨represented.stamped k stored, represented.sound.bounded _⟩,
    fun k v found => ?_, fun h t opened => ?_, fun k id numbered known => ?_, ?_, fun id cursor kept => ?_,
    represented.unused⟩
  · exact represented.sound.filed.own (k, e) (Bindings.mem_of_at? found)
  · have looked := (Bindings.mem_iff_at? represented.sound.distinct k v).mp found
    have bounded := represented.sound.bounded k
    rwa [versionOf, looked] at bounded
  · obtain ⟨version, agrees⟩ := represented.remembered h t opened
    exact ⟨version, agrees⟩
  · rcases known with stored | ⟨event, happened, written⟩
    · exact represented.covered k stored id numbered
    · exact changes.covered k (List.mem_flatMap.mpr ⟨event, happened, written⟩) id numbered
  · have few := represented.queued.few
    rw [same] at few
    simpa [Bindings.names] using few
  · have more := represented.unserved id cursor kept
    rwa [same] at more

/-- Two tasks were stored, a transaction has begun, a query of two pages was started, and a task that was never stored
was deleted. -/
theorem represented_reached_after_delete :
    let space : PartialKey := ⟨⟨"app", by decide⟩, none, [], ⟨"Task", by decide⟩⟩
    let first := space.withIdentifier (.id ⟨1, by decide⟩)
    let second := space.withIdentifier (.id ⟨2, by decide⟩)
    let fifth := space.withIdentifier (.id ⟨5, by decide⟩)
    let query : Query := .structured ⟨.keyOnly, none, some "Task", none, [], [], [], none, 0⟩
    let requests : List Request :=
      [.commit [⟨.put, .entity (.keyed ⟨.stored, first, []⟩)⟩, ⟨.put, .entity (.keyed ⟨.stored, second, []⟩)⟩] none,
        .beginTransaction, .runQuery query none .none, .commit [⟨.delete, .key (.complete fifth)⟩] none]
    let s := reached ⟨1, 1, by decide, by decide⟩ requests
    (∀ request ∈ requests, request.IsStaged) ∧ s.version = 2 ∧ 1 ≤ s.versionOf (.complete second) ∧
      5 ≤ s.counterOf space ∧ s.cursors.names = [1] ∧
      ∀ later, (∀ cursor, ((s.run later).2.keep cursor).1 ≠ 1) ∧ (s.run later).2.beginTransaction.1 ≠ handle 1 := by
  intro space first second fifth query requests s
  have staged : ∀ request ∈ requests, request.IsStaged := by decide +revert
  obtain ⟨-, stamped, -, -, covered, -, -, unused⟩ := represented_reached ⟨1, 1, by decide, by decide⟩ staged
  have state : s.version = 2 ∧ s.entities.names = [first, second] ∧ s.cursors.names = [1] ∧
      s.transactions.names = [handle 1] := by
    subst s requests query fifth second first space
    cbv
  obtain ⟨version, stored, cursors, opened⟩ := state
  have deleted : ∃ event ∈ ((empty ⟨1, 1, by decide, by decide⟩).run requests).1, fifth ∈ event.written :=
    ⟨_, .tail _ (.tail _ (.tail _ (.head _))), .head _⟩
  refine ⟨staged, version, (stamped second ?_).1, covered fifth ⟨5, by decide⟩ rfl (.inr deleted), cursors,
    fun later => ⟨fun cursor same => ?_, fun same => ?_⟩⟩
  · exact stored ▸ List.mem_cons_of_mem _ (List.mem_singleton_self _)
  · refine (unused later).1 cursor ?_
    rw [show s.cursors.names = [1] from cursors, same]
    exact List.mem_singleton_self 1
  · refine (unused later).2 ?_
    rw [show s.transactions.names = [handle 1] from opened, same]
    exact List.mem_singleton_self _

end Store

end EntityStore
