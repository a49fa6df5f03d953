import EntityStore.Proofs.Lifetime

set_option autoImplicit false

namespace EntityStore

namespace Store

theorem changed_within_iff {s : Store} (sound : s.Sound) (version : Nat) (scope : Key) :
    (s.versions.any fun e => version < e.2 && e.1.isWithin scope) = true ↔
      ∃ k, version < s.versionOf (.complete k) ∧ k.isWithin scope = true := by
  rw [List.any_eq_true]
  constructor
  · rintro ⟨⟨named, stamp⟩, bound, newer⟩
    obtain ⟨later, within⟩ := Bool.and_eq_true_iff.mp newer
    have looked := (Bindings.mem_iff_at? sound.distinct named stamp).mp bound
    have complete := sound.complete named (List.mem_map_of_mem bound)
    cases named with
    | incomplete space => cases complete
    | complete k =>
        refine ⟨k, ?_, within⟩
        rw [versionOf, looked]
        exact of_decide_eq_true later
  · rintro ⟨k, newer, within⟩
    cases looked : s.versions.at? (.complete k) with
    | none =>
        rw [versionOf, looked] at newer
        exact absurd newer (Nat.not_lt_zero _)
    | some stamp =>
        rw [versionOf, looked] at newer
        refine ⟨(.complete k, stamp), Bindings.mem_of_at? looked, ?_⟩
        exact Bool.and_eq_true_iff.mpr ⟨decide_eq_true newer, within⟩

/-- What conflict detection finds, in terms of the versions of keys. -/
theorem conflict?_isSome (t : OpenTransaction) {s : Store} (sound : s.Sound)
    (mutations : List Mutation) :
    (t.conflict? s mutations).isSome = true ↔
      ∃ k, t.version < s.versionOf (.complete k) ∧
        (k ∈ t.reads ∨ k ∈ namedKeys mutations ∨ ∃ scope ∈ t.scopes, k.isWithin scope = true) := by
  simp only [OpenTransaction.conflict?, Option.orElse_eq_orElse, Option.orElse_eq_or, Option.isSome_or,
    Bool.or_eq_true, List.find?_isSome, List.mem_append, decide_eq_true_eq, changed_within_iff sound]
  constructor
  · rintro (⟨k, read | named, newer⟩ | ⟨scope, watched, k, newer, within⟩)
    · exact ⟨k, newer, Or.inl read⟩
    · exact ⟨k, newer, Or.inr (Or.inl named)⟩
    · exact ⟨k, newer, Or.inr (Or.inr ⟨scope, watched, within⟩)⟩
  · rintro ⟨k, newer, read | named | ⟨scope, watched, within⟩⟩
    · exact Or.inl ⟨k, Or.inl read, newer⟩
    · exact Or.inl ⟨k, Or.inr named, newer⟩
    · exact Or.inr ⟨scope, watched, k, newer, within⟩

end Store

namespace Lifetime

variable (life : Lifetime)

theorem isAborted_iff {mutations : List Mutation} (staged : Staged mutations) :
    isAborted (life.live.commit mutations (some life.handle)).1 = true ↔
      ∃ k, life.Written k ∧
        (life.LookedUp k ∨ life.Selected k ∨ life.Watched k ∨ k ∈ namedKeys mutations) := by
  rw [Store.isAborted_commit staged life.opened,
    Store.conflict?_isSome life.record life.sound_live mutations]
  refine exists_congr fun k => and_congr (life.newer_iff k) ?_
  have watched : (∃ scope ∈ life.record.scopes, k.isWithin scope = true) ↔ life.Watched k := by
    constructor
    · rintro ⟨scope, member, within⟩
      obtain ⟨q, queried, asked⟩ := (life.mem_scopes scope).mp member
      exact ⟨q, scope, queried, asked, within⟩
    · rintro ⟨q, scope, queried, asked, within⟩
      exact ⟨scope, (life.mem_scopes scope).mpr ⟨q, queried, asked⟩, within⟩
  rw [life.mem_reads, watched, or_assoc, or_comm (b := life.Watched k)]

/-- A commit of the transaction that succeeds writes no key that was written since it began. -/
theorem disjoint_of_committed {mutations : List Mutation} (staged : Staged mutations) {made : List Key}
    (committed : (life.live.commit mutations (some life.handle)).1 = .ok ⟨made, none⟩) {k : Key}
    (written : life.Written k) : k ∉ namedKeys mutations ∧ k ∉ made := by
  constructor
  · intro named
    have aborted := (life.isAborted_iff staged).mpr ⟨k, written, Or.inr (Or.inr (Or.inr named))⟩
    rw [committed] at aborted
    cases aborted
  · intro member
    have minted := (life.live.changes_of_commit staged (some life.handle)).minted
    rw [committed] at minted
    have covered := life.changes.covered k ((life.mem_written k).mpr written)
    exact minted.uncovered k member covered

/-- A transaction is told of a concurrent modification exactly if a commit that succeeded since it began wrote a key
that it looked up, selected, watched from an ancestor or names itself. -/
theorem aborts_exactly {mutations : List Mutation} (staged : Staged mutations) :
    (isAborted (life.live.commit mutations (some life.handle)).1 = true ↔
      ∃ k, life.Written k ∧
        (life.LookedUp k ∨ life.Selected k ∨ life.Watched k ∨ k ∈ namedKeys mutations)) ∧
      (∀ made, (life.live.commit mutations (some life.handle)).1 = .ok ⟨made, none⟩ →
        ∀ k, life.Written k → k ∉ namedKeys mutations ∧ k ∉ made) ∧
      ((∀ others handle? made, Event.commit others handle? (.ok ⟨made, none⟩) ∉ life.events) →
        isAborted (life.live.commit mutations (some life.handle)).1 = false) := by
  refine ⟨life.isAborted_iff staged, ?_, ?_⟩
  · intro made committed k written
    exact life.disjoint_of_committed staged committed written
  · intro quiet
    rw [Bool.eq_false_iff]
    intro aborted
    obtain ⟨k, ⟨others, handle?, made, happened, -⟩, -⟩ := (life.isAborted_iff staged).mp aborted
    exact quiet others handle? made happened

/-- Writing an entity again, as it was, makes a transaction that has read it start over. -/
theorem aborts_after_overlap :
    let space : PartialKey := ⟨⟨"app", by decide⟩, none, [], ⟨"Task", by decide⟩⟩
    let task : Entity := ⟨.stored, space.withIdentifier (.id ⟨1, by decide⟩), []⟩
    let put : List Mutation := [⟨.put, .entity (.keyed task)⟩]
    let life : Lifetime :=
      { limits := .standard
        before := [.commit put none]
        during := [.lookup [task.key] (some (Store.handle 1)), .commit put none]
        stagedBefore := by decide
        stagedDuring := by decide
        unended := by decide }
    Staged [] ∧ isAborted (life.live.commit [] (some life.handle)).1 = true ∧
      ∃ k, life.Written k ∧
        (life.LookedUp k ∨ life.Selected k ∨ life.Watched k ∨ k ∈ namedKeys []) := by
  intro space task put life
  have aborted : isAborted (life.live.commit [] (some life.handle)).1 = true := by decide +revert
  exact ⟨Staged.empty, aborted, (life.aborts_exactly Staged.empty).1.mp aborted⟩

/-- Unless there was a concurrent modification, the store agrees with the snapshot on what the transaction
has read and now writes. -/
theorem agrees {mutations : List Mutation} (staged : Staged mutations)
    (unaborted : isAborted (life.live.commit mutations (some life.handle)).1 = false) {k : Key}
    (concerned : life.LookedUp k ∨ life.Selected k ∨ life.Watched k ∨ k ∈ namedKeys mutations) :
    life.live.entities.at? k = life.opening.entities.at? k := by
  apply life.kept
  intro written
  rw [(life.isAborted_iff staged).mpr ⟨k, written, concerned⟩] at unaborted
  cases unaborted

theorem clear_of_unaborted {mutations : List Mutation} (staged : Staged mutations)
    (unaborted : isAborted (life.live.commit mutations (some life.handle)).1 = false) :
    life.live.Clear mutations (some life.handle) := by
  intro h same
  cases same
  rw [Store.isAborted_commit staged life.opened] at unaborted
  exact ⟨life.record, life.opened, by simpa using unaborted⟩

theorem lookup_of_events {keys : List Key} {found : Except Error (List (Option Entity))}
    (happened : Event.lookup keys (some life.handle) found ∈ life.events) :
    found = .ok (keys.map life.opening.entities.at?) := life.isFrom_opening _ happened rfl

theorem content_of_events {query : Query} {page : Except Error QueryPage}
    (happened : Event.runQuery query (some life.handle) .none page ∈ life.events) :
    page.map QueryPage.content = Store.shown life.opening.limits life.opening.entities query :=
  life.isFrom_opening _ happened rfl

/-- The rows of a query with an ancestor are the same again. -/
theorem rows_agree {mutations : List Mutation} (staged : Staged mutations)
    (unaborted : isAborted (life.live.commit mutations (some life.handle)).1 = false)
    {query : Query} {page : Except Error QueryPage} {q : StructuredQuery} {ancestor : Key}
    (happened : Event.runQuery query (some life.handle) .none page ∈ life.events)
    (structured : query.toStructured = .ok q) (asked : .hasAncestor ancestor ∈ q.conditions) :
    Store.rowsOver life.live.entities query = Store.rowsOver life.opening.entities query := by
  refine Store.rowsOver_congr structured life.sound_live.filed life.sound_opening.filed ?_
  intro checked e selects
  -- A query that passes its checks was answered, so conflict detection watches its ancestor.
  have queried : life.Queried q := by
    obtain ⟨content, shown⟩ := Store.shown_of_checked structured checked life.opening.limits
      life.opening.entities
    have answered := life.content_of_events happened
    rw [shown] at answered
    cases page with
    | error error => cases answered
    | ok served => exact ⟨query, served, happened, structured⟩
  have within : e.key.isWithin ancestor = true := by
    simp only [StructuredQuery.selects, Bool.and_eq_true, List.all_eq_true] at selects
    exact selects.1.2 _ asked
  have watched : life.Watched e.key := ⟨q, ancestor, queried, asked, within⟩
  rw [life.agrees staged unaborted (Or.inr (Or.inr (Or.inl watched)))]

theorem demands_agree {mutations : List Mutation} (staged : Staged mutations)
    (unaborted : isAborted (life.live.commit mutations (some life.handle)).1 = false) :
    firstUnmet life.live.entities.binds mutations = firstUnmet life.opening.entities.binds mutations := by
  refine firstUnmet_congr fun k named => ?_
  rw [Bindings.binds, Bindings.binds, life.agrees staged unaborted (Or.inr (Or.inr (Or.inr named)))]

/-- Reads of a transaction are answered as at its start.  If its commit is not refused for a concurrent modification,
they would be answered the same again at its end, and its mutations find the same keys stored. -/
theorem serializable {mutations : List Mutation} (staged : Staged mutations) :
    (∀ keys found, Event.lookup keys (some life.handle) found ∈ life.events →
        found = (life.opening.lookup keys none).1) ∧
      (∀ query page, Event.runQuery query (some life.handle) .none page ∈ life.events →
        page.map QueryPage.content =
          (life.opening.runQuery query none .none).1.map QueryPage.content) ∧
      (isAborted (life.live.commit mutations (some life.handle)).1 = false →
        (∀ k, life.LookedUp k ∨ life.Watched k ∨ k ∈ namedKeys mutations →
          life.live.entities.at? k = life.opening.entities.at? k) ∧
        (∀ keys found, Event.lookup keys (some life.handle) found ∈ life.events →
          (life.live.lookup keys none).1 = found) ∧
        (∀ query page q ancestor, Event.runQuery query (some life.handle) .none page ∈ life.events →
          query.toStructured = .ok q → .hasAncestor ancestor ∈ q.conditions →
          Store.rowsOver life.live.entities query = Store.rowsOver life.opening.entities query ∧
          (life.live.runQuery query none .none).1.map QueryPage.content =
            page.map QueryPage.content) ∧
        ∀ response, (life.live.commit mutations (some life.handle)).1 = .ok response →
          response.rejection? = (firstUnmet life.opening.entities.binds mutations).bind
            (fun r => r.response.rejection?) ∧
          ∀ other, (life.opening.commit mutations none).1 = .ok other →
            other.rejection? = response.rejection?) := by
  refine ⟨?_, ?_, ?_⟩
  · intro keys found happened
    exact life.lookup_of_events happened
  · intro query page happened
    have asked : life.opening.seen? none = some life.opening.entities := rfl
    rw [life.content_of_events happened, Store.content_of_seen asked]
  · intro unaborted
    have seen : life.live.seen? none = some life.live.entities := rfl
    refine ⟨?_, ?_, ?_, ?_⟩
    · intro k concerned
      rcases concerned with lookedUp | watched | named
      · exact life.agrees staged unaborted (Or.inl lookedUp)
      · exact life.agrees staged unaborted (Or.inr (Or.inr (Or.inl watched)))
      · exact life.agrees staged unaborted (Or.inr (Or.inr (Or.inr named)))
    · intro keys found happened
      have answered := life.lookup_of_events happened
      subst answered
      rw [Store.lookup_of_seen seen]
      refine congrArg Except.ok (List.map_congr_left fun k member => ?_)
      exact life.agrees staged unaborted (Or.inl ⟨keys, _, happened, member⟩)
    · intro query page q ancestor happened structured asked
      have rows := life.rows_agree staged unaborted happened structured asked
      refine ⟨rows, ?_⟩
      rw [Store.content_of_seen seen, life.content_of_events happened, life.changes.limits,
        Store.shown, Store.shown, rows]
    · intro response answered
      have clear := life.clear_of_unaborted staged unaborted
      have rejection := Store.rejection_of_clear staged clear answered
      rw [life.demands_agree staged unaborted] at rejection
      refine ⟨rejection, fun other alone => ?_⟩
      have free : life.opening.Clear mutations none := by
        intro h given
        cases given
      rw [rejection, Store.rejection_of_clear staged free alone]

theorem serializable_beside_other :
    let space : PartialKey := ⟨⟨"app", by decide⟩, none, [], ⟨"Task", by decide⟩⟩
    let task : Entity := ⟨.stored, space.withIdentifier (.id ⟨1, by decide⟩), []⟩
    let other : Entity := ⟨.stored, space.withIdentifier (.id ⟨2, by decide⟩), []⟩
    let life : Lifetime :=
      { limits := .standard
        before := [.commit [⟨.put, .entity (.keyed task)⟩] none]
        during := [.lookup [task.key] (some (Store.handle 1)),
          .commit [⟨.put, .entity (.keyed other)⟩] none]
        stagedBefore := by decide
        stagedDuring := by decide
        unended := by decide }
    let update : List Mutation := [⟨.update, .entity (.keyed task)⟩]
    Staged update ∧ isAborted (life.live.commit update (some life.handle)).1 = false ∧
      life.live.entities.at? task.key = life.opening.entities.at? task.key := by
  intro space task other life update
  have staged : Staged update := by decide +revert
  have unaborted : isAborted (life.live.commit update (some life.handle)).1 = false := by decide +revert
  have agreement := ((life.serializable staged).2.2 unaborted).1
  exact ⟨staged, unaborted, agreement task.key (Or.inr (Or.inr (List.mem_singleton_self task.key)))⟩

end Lifetime

end EntityStore
