import EntityStore.Proofs.Composition
import EntityStore.Proofs.Contents

set_option autoImplicit false

namespace EntityStore

namespace Mutation

theorem at?_write_of_unnamed {m : Mutation} {k : Key} (unnamed : m.key ≠ .complete k)
    (stored : Bindings Key Entity) : (m.write stored).at? k = stored.at? k := by
  unfold write
  cases key : m.key with
  | incomplete space => rfl
  | complete own =>
      have apart : own ≠ k := fun same => unnamed (by rw [key, same])
      dsimp only
      split
      · exact Bindings.at?_remove_of_ne stored apart
      · exact Bindings.at?_put_of_ne stored _ apart

/-- What a mutation leaves under a key depends on nothing but what was there. -/
theorem at?_write_congr {stored others : Bindings Key Entity} {k : Key} (same : stored.at? k = others.at? k)
    (m : Mutation) : (m.write stored).at? k = (m.write others).at? k := by
  unfold write
  cases m.key with
  | incomplete space => exact same
  | complete own =>
      dsimp only
      split
      · rw [Bindings.at?_remove, Bindings.at?_remove, same]
      · rw [Bindings.at?_put, Bindings.at?_put, same]

theorem at?_foldl_write_of_unnamed {mutations : List Mutation} {k : Key} (unnamed : k ∉ namedKeys mutations)
    (stored : Bindings Key Entity) : (mutations.foldl write stored).at? k = stored.at? k := by
  induction mutations generalizing stored with
  | nil => rfl
  | cons m rest ih =>
      rw [mem_namedKeys_cons, not_or] at unnamed
      rw [List.foldl_cons, ih unnamed.2, at?_write_of_unnamed unnamed.1]

theorem at?_foldl_write_congr {stored others : Bindings Key Entity} {k : Key}
    (same : stored.at? k = others.at? k) (mutations : List Mutation) :
    (mutations.foldl write stored).at? k = (mutations.foldl write others).at? k := by
  induction mutations generalizing stored others with
  | nil => exact same
  | cons m rest ih => exact ih (at?_write_congr same m)

/-- Mutations of different keys can be applied in either order. -/
theorem at?_foldl_write_comm {first second : List Mutation}
    (disjoint : (namedKeys first).Disjoint (namedKeys second)) (stored : Bindings Key Entity) (k : Key) :
    (second.foldl write (first.foldl write stored)).at? k =
      (first.foldl write (second.foldl write stored)).at? k := by
  by_cases named : k ∈ namedKeys second
  · have unnamed : k ∉ namedKeys first := fun other => disjoint other named
    rw [at?_foldl_write_of_unnamed unnamed (second.foldl write stored)]
    exact at?_foldl_write_congr (at?_foldl_write_of_unnamed unnamed stored) second
  · rw [at?_foldl_write_of_unnamed named (first.foldl write stored)]
    exact at?_foldl_write_congr (at?_foldl_write_of_unnamed named stored).symm first

end Mutation

namespace Counters

/-- The greatest id of a space once the id of a key is counted as given out. -/
def raised (space : PartialKey) (greatest? : Option Nat) (k : Key) : Option Nat :=
  match k.idIn? space with
  | some n => if greatest?.getD 0 < n then some n else greatest?
  | none => greatest?

theorem at?_reserve (counters : Counters) (k : Key) (space : PartialKey) :
    (counters.reserve k).at? space = raised space (counters.at? space) k := by
  unfold reserve raised Key.idIn?
  cases k.identifier with
  | name text => rfl
  | id n =>
      dsimp only
      by_cases own : k.toPartialKey = space
      · subst own
        simp only [↓reduceIte]
        split
        · exact Bindings.at?_put_self _ _ _
        · rfl
      · simp only [own, ↓reduceIte]
        split
        · exact Bindings.at?_put_of_ne _ _ own
        · rfl

theorem at?_foldl_reserve (keys : List Key) (counters : Counters) (space : PartialKey) :
    (keys.foldl reserve counters).at? space = keys.foldl (raised space) (counters.at? space) := by
  induction keys generalizing counters with
  | nil => rfl
  | cons k rest ih => rw [List.foldl_cons, ih, at?_reserve, List.foldl_cons]

theorem raised_comm (space : PartialKey) (greatest? : Option Nat) (k l : Key) :
    raised space (raised space greatest? k) l = raised space (raised space greatest? l) k := by
  unfold raised
  cases k.idIn? space with
  | none => rfl
  | some m =>
      cases l.idIn? space with
      | none => rfl
      | some n =>
          dsimp only
          by_cases low : greatest?.getD 0 < m
          · by_cases high : greatest?.getD 0 < n
            · simp only [low, high, ↓reduceIte, Option.getD_some]
              split
              · rw [if_neg (by omega)]
              · split
                · rfl
                · exact congrArg some (by omega)
            · have above : ¬ m < n := by omega
              simp only [low, high, above, ↓reduceIte, Option.getD_some]
          · by_cases high : greatest?.getD 0 < n
            · have above : ¬ n < m := by omega
              simp only [low, high, above, ↓reduceIte, Option.getD_some]
            · simp only [low, high, ↓reduceIte]

/-- It does not matter in which order the ids of keys are counted. -/
theorem at?_foldl_reserve_comm (first second : List Key) (counters : Counters) (space : PartialKey) :
    (second.foldl reserve (first.foldl reserve counters)).at? space =
      (first.foldl reserve (second.foldl reserve counters)).at? space := by
  have comm : RightCommutative (raised space) := ⟨raised_comm space⟩
  rw [← List.foldl_append, ← List.foldl_append, at?_foldl_reserve, at?_foldl_reserve]
  exact List.perm_append_comm.foldl_eq _

end Counters

namespace Store

/-- Whether the version of a key differs between two stores. -/
def Moves (s next : Store) (k : AnyKey) : Prop := next.versionOf k ≠ s.versionOf k

/-- The answer to a commit of mutations with complete keys, and those of them that it applies, which are all or
none. -/
def verdict (stored : Key → Bool) (mutations : List Mutation) : CommitResponse × List Mutation :=
  match firstUnmet stored mutations with
  | some r => (r.response, [])
  | none => (⟨[], none⟩, mutations)

theorem verdict_congr {mutations : List Mutation} {stored other : Key → Bool}
    (agree : ∀ k ∈ namedKeys mutations, stored k = other k) : verdict stored mutations = verdict other mutations := by
  rw [verdict, verdict, firstUnmet_congr agree]

theorem named_of_verdict {stored : Key → Bool} {mutations : List Mutation} {k : Key}
    (named : k ∈ namedKeys (verdict stored mutations).2) : k ∈ namedKeys mutations := by
  unfold verdict at named
  split at named
  · cases named
  · exact named

/-- From one store to a later one, mutations with complete keys are applied. -/
structure Leaves (s : Store) (applied : List Mutation) (next : Store) : Prop where
  entities : next.entities = applied.foldl Mutation.write s.entities
  counters : next.counters = (namedKeys applied).foldl Counters.reserve s.counters
  version : s.version ≤ next.version
  versions : ∀ k, next.versionOf k =
    if k ∈ (namedKeys applied).map .complete then s.version + 1 else s.versionOf k

theorem commit_leaves (s : Store) {mutations : List Mutation}
    (complete : ∀ m ∈ mutations, m.key.isComplete = true) :
    (s.commit mutations none).1 = .ok (verdict s.entities.binds mutations).1 ∧
      s.Leaves (verdict s.entities.binds mutations).2 (s.commit mutations none).2 := by
  rw [s.commit_of_complete complete, verdict]
  cases firstUnmet s.entities.binds mutations with
  | some r => exact ⟨rfl, rfl, rfl, Nat.le_refl _, fun k => (if_neg List.not_mem_nil).symm⟩
  | none => exact ⟨rfl, rfl, rfl, Nat.le_succ _, fun k => (s.noting .commit).versionOf_touching _ k⟩

namespace Leaves

variable {s next last : Store} {applied further : List Mutation}

theorem binds (leaves : s.Leaves applied next) {k : Key} (unnamed : k ∉ namedKeys applied) :
    next.entities.binds k = s.entities.binds k := by
  rw [Bindings.binds, Bindings.binds, leaves.entities, Mutation.at?_foldl_write_of_unnamed unnamed]

theorem moves_iff (leaves : s.Leaves applied next) (dated : s.Dated) (k : AnyKey) :
    s.Moves next k ↔ k ∈ (namedKeys applied).map .complete := by
  have bound := dated k
  rw [Moves, leaves.versions]
  split
  · next named => exact iff_of_true (by omega) named
  · next unnamed => exact iff_of_false (by simp) unnamed

theorem moves_append (early : s.Leaves applied next) (late : next.Leaves further last) (dated : s.Dated)
    (k : AnyKey) :
    s.Moves last k ↔ k ∈ (namedKeys applied).map .complete ∨ k ∈ (namedKeys further).map .complete := by
  have bound := dated k
  have grows := early.version
  rw [Moves, late.versions]
  split
  · next named => exact iff_of_true (by omega) (Or.inr named)
  · next unnamed =>
      rw [or_iff_left unnamed, ← early.moves_iff dated k]
      rfl

end Leaves

/-- Two commits of mutations with complete keys that name no key in common are answered alike in either order, and
together leave the same entities and counters and move the same keys. -/
theorem commit_comm (limits : StoreLimits) (requests : List Request) {first second : List Mutation}
    (complete : ∀ m ∈ first ++ second, m.key.isComplete = true)
    (disjoint : (namedKeys first).Disjoint (namedKeys second)) :
    let s := reached limits requests
    let firstEarly := s.commit first none
    let secondLate := firstEarly.2.commit second none
    let secondEarly := s.commit second none
    let firstLate := secondEarly.2.commit first none
    (∃ response, firstEarly.1 = .ok response ∧ firstLate.1 = .ok response) ∧
    (∃ response, secondEarly.1 = .ok response ∧ secondLate.1 = .ok response) ∧
    (∀ k, secondLate.2.entities.at? k = firstLate.2.entities.at? k) ∧
    (∀ space, secondLate.2.counters.at? space = firstLate.2.counters.at? space) ∧
    (∀ k, s.Moves firstEarly.2 k ↔ secondEarly.2.Moves firstLate.2 k) ∧
    (∀ k, s.Moves secondEarly.2 k ↔ firstEarly.2.Moves secondLate.2 k) ∧
    (∀ k, s.Moves secondLate.2 k ↔ s.Moves firstLate.2 k) := by
  intro s firstEarly secondLate secondEarly firstLate
  obtain ⟨completeFirst, completeSecond⟩ := List.forall_mem_append.mp complete
  obtain ⟨firstAnswer, firstLeaves⟩ := s.commit_leaves completeFirst
  obtain ⟨secondAnswer, secondLeaves⟩ := s.commit_leaves completeSecond
  obtain ⟨secondAgain, secondFollows⟩ := firstEarly.2.commit_leaves completeSecond
  obtain ⟨firstAgain, firstFollows⟩ := secondEarly.2.commit_leaves completeFirst
  -- What one commit leaves does not show in what the other one looks at, so the verdicts stand.
  have secondStands : verdict firstEarly.2.entities.binds second = verdict s.entities.binds second :=
    verdict_congr fun k named => firstLeaves.binds fun other => disjoint (named_of_verdict other) named
  have firstStands : verdict secondEarly.2.entities.binds first = verdict s.entities.binds first :=
    verdict_congr fun k named => secondLeaves.binds fun other => disjoint named (named_of_verdict other)
  rw [secondStands] at secondAgain secondFollows
  rw [firstStands] at firstAgain firstFollows
  have dated : s.Dated := dated_reached limits requests
  have datedFirst : firstEarly.2.Dated := lasting_dated.commit dated first none
  have datedSecond : secondEarly.2.Dated := lasting_dated.commit dated second none
  refine ⟨⟨_, firstAnswer, firstAgain⟩, ⟨_, secondAnswer, secondAgain⟩, ?_, ?_, ?_, ?_, ?_⟩
  · intro k
    rw [secondFollows.entities, firstLeaves.entities, firstFollows.entities, secondLeaves.entities]
    exact Mutation.at?_foldl_write_comm
      (fun k one two => disjoint (named_of_verdict one) (named_of_verdict two)) s.entities k
  · intro space
    rw [secondFollows.counters, firstLeaves.counters, firstFollows.counters, secondLeaves.counters]
    exact Counters.at?_foldl_reserve_comm _ _ s.counters space
  · intro k
    rw [firstLeaves.moves_iff dated, firstFollows.moves_iff datedSecond]
  · intro k
    rw [secondLeaves.moves_iff dated, secondFollows.moves_iff datedFirst]
  · intro k
    rw [firstLeaves.moves_append secondFollows dated, secondLeaves.moves_append firstFollows dated, or_comm]

/-- The two lists share a space of ids, and the second one is refused at its end. -/
theorem commit_comm_of_refused :
    let key (n : EntityId) : Key := ⟨⟨⟨"app", by decide⟩, none, [], ⟨"Task", by decide⟩⟩, .id n⟩
    let entity (n : EntityId) : Entity := ⟨.stored, key n, []⟩
    let requests : List Request := [.commit [⟨.put, .entity (.keyed (entity ⟨2, by decide⟩))⟩] none]
    let first : List Mutation :=
      [⟨.update, .entity (.keyed (entity ⟨2, by decide⟩))⟩, ⟨.add, .entity (.keyed (entity ⟨5, by decide⟩))⟩]
    let second : List Mutation :=
      [⟨.put, .entity (.keyed (entity ⟨9, by decide⟩))⟩, ⟨.update, .entity (.keyed (entity ⟨7, by decide⟩))⟩]
    let s := reached .standard requests
    (∀ m ∈ first ++ second, m.key.isComplete = true) ∧ (namedKeys first).Disjoint (namedKeys second) ∧
      ((s.commit second none).2.commit first none).1 = .ok ⟨[], none⟩ ∧
      ((s.commit first none).2.commit second none).1 = .ok (Refusal.absent (key ⟨7, by decide⟩)).response ∧
      ∀ k, ((s.commit first none).2.commit second none).2.entities.at? k =
        ((s.commit second none).2.commit first none).2.entities.at? k := by
  intro key entity requests first second s
  have complete : ∀ m ∈ first ++ second, m.key.isComplete = true := by decide
  have disjoint : (namedKeys first).Disjoint (namedKeys second) := by
    intro k one two
    revert k
    decide
  obtain ⟨⟨applied, early, late⟩, ⟨refused, alone, behind⟩, same, -⟩ :=
    commit_comm .standard requests complete disjoint
  have accepted : (s.commit first none).1 = .ok ⟨[], none⟩ := by rfl
  have rejected : (s.commit second none).1 = .ok (Refusal.absent (key ⟨7, by decide⟩)).response := by rfl
  exact ⟨complete, disjoint, late.trans (early.symm.trans accepted), behind.trans (alone.symm.trans rejected), same⟩

end Store

end EntityStore
