import EntityStore.Proofs.Bindings
import EntityStore.Store.Allocation

/-!
Ids are given out once.  The counter of a space is at least every id of the space that was given out or
reserved, and an allocated id lies above the counter, so it differs from all of them.
-/

set_option autoImplicit false

namespace EntityStore

/-- All numbers that the search passes over are used; it stops at a used one only when it runs out of
rounds. -/
theorem firstFree_spec (used : List Nat) (rounds n : Nat) :
    n ≤ firstFree used rounds n ∧
      (∀ m, n ≤ m → m < firstFree used rounds n → m ∈ used) ∧
      (firstFree used rounds n ∈ used → firstFree used rounds n = n + rounds) := by
  induction rounds generalizing n with
  | zero =>
      refine ⟨Nat.le_refl n, ?_, fun _ => rfl⟩
      intro m lower upper
      exact absurd lower (Nat.not_le.mpr upper)
  | succ rounds ih =>
      rw [firstFree]
      by_cases here : used.contains n = true
      · rw [if_pos here]
        obtain ⟨above, passed, ended⟩ := ih (n + 1)
        refine ⟨by omega, ?_, fun last => by have := ended last; omega⟩
        intro m lower upper
        by_cases first : m = n
        · exact first ▸ List.contains_iff_mem.mp here
        · exact passed m (by omega) upper
      · rw [if_neg here]
        refine ⟨Nat.le_refl n, ?_, fun member => absurd (List.contains_iff_mem.mpr member) here⟩
        intro m lower upper
        exact absurd lower (Nat.not_le.mpr upper)

/-- A stretch of used numbers is no longer than the list of them. -/
theorem le_of_used {used : List Nat} {low high : Nat} (all : ∀ n, low ≤ n → n < high → n ∈ used) :
    high ≤ low + used.length := by
  have stretch : List.range' low (high - low) ⊆ used := by
    intro n within
    rw [List.mem_range'_1] at within
    exact all n within.1 (by omega)
  have distinct : (List.range' low (high - low)).Nodup := List.nodup_range'
  have shorter := distinct.length_le_of_subset stretch
  rw [List.length_range'] at shorter
  omega

/-- One round for each used number is enough to find a free one. -/
theorem firstFree_not_mem (used : List Nat) (n : Nat) : firstFree used used.length n ∉ used := by
  intro member
  obtain ⟨-, passed, ended⟩ := firstFree_spec used used.length n
  have last := ended member
  have stretch : n + used.length + 1 ≤ n + used.length := by
    refine le_of_used fun m lower upper => ?_
    by_cases before : m < firstFree used used.length n
    · exact passed m lower before
    · have equal : m = firstFree used used.length n := by omega
      exact equal ▸ member
  omega

theorem EntityId.value_of_ofInt? {n : Nat} {id : EntityId} (made : EntityId.ofInt? n = some id) :
    id.value = n := by
  have same := ofInt?_eq_some_iff.mp made
  omega

theorem mem_usedIds {taken : List Key} {k : Key} {id : EntityId} (member : k ∈ taken)
    (numbered : k.identifier = .id id) : id.value ∈ usedIds taken k.toPartialKey := by
  refine List.mem_filterMap.mpr ⟨k, member, ?_⟩
  simp only [Key.idIn?, numbered, ↓reduceIte]

namespace Counters

/-- The greatest id given out or reserved in a space, zero if there is none. -/
def greatest (counters : Counters) (space : PartialKey) : Nat := (counters.at? space).getD 0

theorem greatest_put (counters : Counters) (space other : PartialKey) (n : Nat) :
    greatest (counters.put space n) other = if space = other then n else counters.greatest other := by
  rw [greatest, Bindings.at?_put]
  split <;> rfl

/-- No counter is lower than before. -/
def GrowsTo (counters next : Counters) : Prop := ∀ space, counters.greatest space ≤ next.greatest space

theorem GrowsTo.refl (counters : Counters) : counters.GrowsTo counters := fun _ => Nat.le_refl _

theorem GrowsTo.trans {first second third : Counters} (early : first.GrowsTo second)
    (late : second.GrowsTo third) : first.GrowsTo third := fun space =>
  Nat.le_trans (early space) (late space)

theorem growsTo_put {counters : Counters} {space : PartialKey} {n : Nat}
    (above : counters.greatest space ≤ n) : GrowsTo counters (counters.put space n) := by
  intro other
  rw [greatest_put]
  split
  · next same => exact same ▸ above
  · exact Nat.le_refl _

/-- Whether the id of a key, if it has one, is known to have been given out or reserved. -/
def Covers (counters : Counters) (k : Key) : Prop :=
  ∀ id, k.identifier = .id id → id.value ≤ counters.greatest k.toPartialKey

theorem Covers.mono {counters next : Counters} {k : Key} (covered : counters.Covers k)
    (grows : counters.GrowsTo next) : next.Covers k := fun id numbered =>
  Nat.le_trans (covered id numbered) (grows k.toPartialKey)

/-- The search for an id ends at the first number above the counter that none of the keys has.  If it lies
in the range of ids it is given out, and else there is an error. -/
theorem allocate_search (counters : Counters) (taken : List Key) (space : PartialKey) :
    ∃ n, counters.greatest space < n ∧ n ∉ usedIds taken space ∧
      (∀ m, counters.greatest space < m → m < n → m ∈ usedIds taken space) ∧
      counters.allocate taken space =
        match EntityId.ofInt? n with
        | some id => .ok (space.withIdentifier (.id id), counters.put space n)
        | none => .error (KeyFault.idRange n).error := by
  obtain ⟨above, passed, -⟩ := firstFree_spec (usedIds taken space) (usedIds taken space).length
    (counters.greatest space + 1)
  exact ⟨_, above, firstFree_not_mem _ _, passed, rfl⟩

/-- Keys with ids that were not given out before and are given out now, each once. -/
structure Mints (counters next : Counters) (keys : List Key) : Prop where
  grows : counters.GrowsTo next
  distinct : keys.Nodup
  numbered : ∀ k ∈ keys, ∃ id, k.identifier = .id id
  uncovered : ∀ k ∈ keys, ¬ counters.Covers k
  covered : ∀ k ∈ keys, next.Covers k

theorem GrowsTo.mints {counters next : Counters} (grows : counters.GrowsTo next) :
    Mints counters next [] := ⟨grows, List.nodup_nil, by simp, by simp, by simp⟩

theorem Mints.append {first second third : Counters} {early late : List Key}
    (before : Mints first second early) (after : Mints second third late) :
    Mints first third (early ++ late) := by
  refine ⟨before.grows.trans after.grows, ?_, ?_, ?_, ?_⟩
  · refine List.nodup_append.mpr ⟨before.distinct, after.distinct, ?_⟩
    intro old made new fresh equal
    exact after.uncovered new fresh (equal ▸ before.covered old made)
  · intro k member
    rcases List.mem_append.mp member with old | new
    · exact before.numbered k old
    · exact after.numbered k new
  · intro k member covered
    rcases List.mem_append.mp member with old | new
    · exact before.uncovered k old covered
    · exact after.uncovered k new (covered.mono before.grows)
  · intro k member
    rcases List.mem_append.mp member with old | new
    · exact (before.covered k old).mono after.grows
    · exact after.covered k new

theorem mints_of_allocate {counters next : Counters} {taken : List Key} {space : PartialKey} {k : Key}
    (found : counters.allocate taken space = .ok (k, next)) :
    Mints counters next [k] ∧ k.toPartialKey = space ∧ k ∉ taken := by
  obtain ⟨n, above, free, -, search⟩ := allocate_search counters taken space
  rw [search] at found
  split at found
  · next id made =>
      cases found
      have value := EntityId.value_of_ofInt? made
      have covered : Covers (counters.put space n) (space.withIdentifier (.id id)) := by
        intro other numbered
        cases numbered
        rw [greatest_put, value]
        exact Nat.le_of_eq (if_pos rfl).symm
      refine ⟨⟨growsTo_put (Nat.le_of_lt above), by simp, ?_, ?_, ?_⟩, rfl, ?_⟩
      · intro k member
        rw [List.mem_singleton.mp member]
        exact ⟨id, rfl⟩
      · intro k member covers
        rw [List.mem_singleton.mp member] at covers
        have below := covers id rfl
        rw [value] at below
        exact absurd above (Nat.not_lt.mpr below)
      · intro k member
        rw [List.mem_singleton.mp member]
        exact covered
      · intro member
        have used : id.value ∈ usedIds taken space := mem_usedIds member rfl
        rw [value] at used
        exact free used
  · cases found

theorem growsTo_reserve (counters : Counters) (k : Key) : counters.GrowsTo (counters.reserve k) := by
  unfold reserve
  split
  · split
    · next low => exact growsTo_put (Nat.le_of_lt low)
    · exact GrowsTo.refl counters
  · exact GrowsTo.refl counters

theorem covers_reserve (counters : Counters) (k : Key) : (counters.reserve k).Covers k := by
  intro id numbered
  unfold reserve
  rw [numbered]
  dsimp only
  split
  · refine Nat.le_of_eq ?_
    rw [greatest_put, if_pos rfl]
  · next high => exact Nat.not_lt.mp high

theorem growsTo_foldl_reserve (keys : List Key) (counters : Counters) :
    counters.GrowsTo (keys.foldl reserve counters) := by
  induction keys generalizing counters with
  | nil => exact GrowsTo.refl counters
  | cons k rest ih => exact (growsTo_reserve counters k).trans (ih (counters.reserve k))

theorem covers_foldl_reserve {keys : List Key} {k : Key} (member : k ∈ keys) (counters : Counters) :
    (keys.foldl reserve counters).Covers k := by
  induction keys generalizing counters with
  | nil => cases member
  | cons first rest ih =>
      rcases List.mem_cons.mp member with rfl | later
      · exact (covers_reserve counters k).mono (growsTo_foldl_reserve rest _)
      · exact ih later (counters.reserve first)

/-- Ids found before one is missing stay given out. -/
theorem growsTo_allocateAll (taken : List Key) (spaces : List PartialKey) (counters : Counters) :
    counters.GrowsTo (allocateAll taken counters spaces).2 := by
  induction spaces generalizing counters with
  | nil => exact GrowsTo.refl counters
  | cons space rest ih =>
      simp only [allocateAll]
      split
      · exact GrowsTo.refl counters
      · next key next found => exact (mints_of_allocate found).1.grows.trans (ih next)

theorem mints_of_allocateAll {taken keys : List Key} {spaces : List PartialKey} {counters : Counters}
    (found : (allocateAll taken counters spaces).1 = .ok keys) :
    Mints counters (allocateAll taken counters spaces).2 keys ∧ keys.map Key.toPartialKey = spaces := by
  induction spaces generalizing counters keys with
  | nil =>
      cases found
      exact ⟨(GrowsTo.refl counters).mints, rfl⟩
  | cons space rest ih =>
      simp only [allocateAll] at found ⊢
      split at found
      · cases found
      · next key next first =>
          obtain ⟨minted, own, -⟩ := mints_of_allocate first
          cases later : (allocateAll taken next rest).1 with
          | error e =>
              simp only [later, Except.map] at found
              cases found
          | ok made =>
              simp only [later, Except.map, Except.ok.injEq] at found
              subst found
              obtain ⟨more, spaces⟩ := ih later
              exact ⟨minted.append more, by rw [List.map_cons, own, spaces]⟩

end Counters

end EntityStore
