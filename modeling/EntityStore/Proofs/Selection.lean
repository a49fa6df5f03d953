import EntityStore.Proofs.Bindings
import EntityStore.Proofs.KeyOrder
import EntityStore.Proofs.SortPermutation
import EntityStore.Store.Read
import Mathlib.Data.List.Permutation

set_option autoImplicit false

namespace EntityStore

/-- Entities that are stored under their own keys, each key once. -/
structure Filed (stored : Bindings Key Entity) : Prop where
  distinct : stored.names.Nodup
  own : ∀ entry ∈ stored, entry.2.key = entry.1

namespace Filed

variable {stored : Bindings Key Entity}

theorem nil : Filed [] := ⟨List.nodup_nil, by simp⟩

theorem put (filed : Filed stored) (e : Entity) : Filed (stored.put e.key e) := by
  refine ⟨Bindings.nodup_put filed.distinct e.key e, ?_⟩
  rintro ⟨k, found⟩ member
  have looked := (Bindings.mem_iff_at? (Bindings.nodup_put filed.distinct e.key e) k found).mp member
  rw [Bindings.at?_put] at looked
  split at looked
  · next same =>
      cases looked
      exact same
  · exact filed.own (k, found) (Bindings.mem_of_at? looked)

theorem remove (filed : Filed stored) (key : Key) : Filed (stored.remove key) := by
  refine ⟨Bindings.nodup_remove filed.distinct key, ?_⟩
  rintro ⟨k, found⟩ member
  have looked := (Bindings.mem_iff_at? (Bindings.nodup_remove filed.distinct key) k found).mp member
  rw [Bindings.at?_remove] at looked
  split at looked
  · cases looked
  · exact filed.own (k, found) (Bindings.mem_of_at? looked)

theorem key_of_at? (filed : Filed stored) {k : Key} {e : Entity} (found : stored.at? k = some e) :
    e.key = k := filed.own (k, e) (Bindings.mem_of_at? found)

theorem mem_iff (filed : Filed stored) (e : Entity) :
    e ∈ stored.map Prod.snd ↔ stored.at? e.key = some e := by
  rw [List.mem_map]
  constructor
  · rintro ⟨⟨k, found⟩, member, rfl⟩
    rw [filed.own _ member]
    exact (Bindings.mem_iff_at? filed.distinct k found).mp member
  · intro found
    exact ⟨(e.key, e), Bindings.mem_of_at? found, rfl⟩

theorem keys_nodup (filed : Filed stored) : ((stored.map Prod.snd).map Entity.key).Nodup := by
  have same : (stored.map Prod.snd).map Entity.key = stored.names := by
    rw [List.map_map]
    exact List.map_congr_left filed.own
  rw [same]
  exact filed.distinct

end Filed

theorem Order.sort_perm (o : Order) (entities : List Entity)
    (ordered : ∀ e ∈ entities, (e.entries o.property).isEmpty = false) :
    (o.sort entities).Perm entities := by
  have kept : (entities.filterMap (Entity.keyedBy o)).map Prod.snd = entities := by
    induction entities with
    | nil => rfl
    | cons e rest ih =>
        obtain ⟨here, orderedLater⟩ := List.forall_mem_cons.mp ordered
        have later := ih orderedLater
        cases split : e.entries o.property with
        | nil => simp [split] at here
        | cons first more => simp [Entity.keyedBy, split, later]
  unfold sort
  cases o.direction with
  | ascending => exact (Sort.ascending_perm _ _ _).trans (List.Perm.of_eq kept)
  | descending => exact (Sort.descending_perm _ _ _).trans (List.Perm.of_eq kept)

theorem Order.foldr_sort_perm (orders : List Order) (entities : List Entity)
    (ordered : ∀ o ∈ orders, ∀ e ∈ entities, (e.entries o.property).isEmpty = false) :
    (orders.foldr Order.sort entities).Perm entities := by
  induction orders with
  | nil => exact List.Perm.refl _
  | cons o rest ih =>
      obtain ⟨orderedHere, orderedLater⟩ := List.forall_mem_cons.mp ordered
      have inner := ih orderedLater
      refine (Order.sort_perm o _ ?_).trans inner
      intro e member
      exact orderedHere e (inner.mem_iff.mp member)

namespace StructuredQuery

/-- The order by key in which a query first puts the entities. -/
def keyOrdered (a b : Entity) : Bool := (KeyPlace.cmp a.key.place b.key.place).isLE

theorem select_eq (q : StructuredQuery) (entities : List Entity) :
    q.select entities = q.orders.foldr Order.sort ((entities.mergeSort keyOrdered).filter q.selects) := rfl

theorem keyOrdered_pairwise (entities : List Entity) :
    (entities.mergeSort keyOrdered).Pairwise (keyOrdered · ·) := by
  refine List.pairwise_mergeSort ?_ ?_ entities
  · intro a b c first second
    exact Std.TransCmp.isLE_trans first second
  · intro a b
    rw [Bool.or_eq_true]
    cases order : KeyPlace.cmp a.key.place b.key.place with
    | lt => exact Or.inl (by simp [keyOrdered, order])
    | eq => exact Or.inl (by simp [keyOrdered, order])
    | gt =>
        have swap : KeyPlace.cmp b.key.place a.key.place = (KeyPlace.cmp a.key.place b.key.place).swap :=
          Std.OrientedCmp.eq_swap
        refine Or.inr ?_
        rw [keyOrdered, swap, order]
        rfl

/-- Different keys are never tied. -/
theorem key_eq_of_keyOrdered {a b : Entity} (le : keyOrdered a b = true) (ge : keyOrdered b a = true) :
    a.key = b.key := by
  have equal : KeyPlace.cmp a.key.place b.key.place = .eq := Std.OrientedCmp.isLE_antisymm le ge
  exact Key.place_injective (Std.LawfulEqCmp.eq_of_compare equal)

/-- So entities under keys of their own stand in one strict order. -/
theorem keyOrdered_strict {entities : List Entity} (distinct : (entities.map Entity.key).Nodup) :
    (entities.mergeSort keyOrdered).Pairwise fun a b => KeyPlace.cmp a.key.place b.key.place = .lt := by
  have apart : ((entities.mergeSort keyOrdered).map Entity.key).Nodup :=
    ((List.mergeSort_perm _ _).map Entity.key).nodup_iff.mpr distinct
  apply ((keyOrdered_pairwise entities).and (List.pairwise_map.mp apart)).imp
  intro a b both
  have atLeast : (KeyPlace.cmp a.key.place b.key.place).isLE = true := both.1
  cases order : KeyPlace.cmp a.key.place b.key.place with
  | lt => rfl
  | eq => exact absurd (Key.place_injective (Std.LawfulEqCmp.eq_of_compare order)) both.2
  | gt => simp [order] at atLeast

/-- A query selects the entities that it describes, and each of them once. -/
theorem select_perm (q : StructuredQuery) (entities : List Entity) :
    (q.select entities).Perm (entities.filter q.selects) := by
  rw [select_eq]
  refine (Order.foldr_sort_perm _ _ ?_).trans ((List.mergeSort_perm _ _).filter _)
  intro o member e selected
  have passes := (List.mem_filter.mp selected).2
  simp only [selects, Bool.and_eq_true, List.all_eq_true] at passes
  simpa using passes.2 o member

theorem mem_select (q : StructuredQuery) (entities : List Entity) (e : Entity) :
    e ∈ q.select entities ↔ e ∈ entities ∧ q.selects e = true := by
  rw [(q.select_perm entities).mem_iff, List.mem_filter]

theorem mem_selected_keys (q : StructuredQuery) {stored : Bindings Key Entity} (filed : Filed stored)
    (k : Key) :
    k ∈ (q.select (stored.map Prod.snd)).map Entity.key ↔
      ∃ e, stored.at? k = some e ∧ q.selects e = true := by
  rw [List.mem_map]
  constructor
  · rintro ⟨e, member, rfl⟩
    obtain ⟨kept, selected⟩ := (q.mem_select _ e).mp member
    exact ⟨e, (filed.mem_iff e).mp kept, selected⟩
  · rintro ⟨e, found, selected⟩
    have own := filed.key_of_at? found
    refine ⟨e, (q.mem_select _ e).mpr ⟨(filed.mem_iff e).mpr ?_, selected⟩, own⟩
    rw [own]
    exact found

theorem mem_scopes (q : StructuredQuery) (k : Key) : k ∈ q.scopes ↔ .hasAncestor k ∈ q.conditions := by
  unfold scopes
  rw [List.mem_filterMap]
  constructor
  · rintro ⟨condition, member, found⟩
    cases condition with
    | compare property relation value => cases found
    | hasAncestor ancestor =>
        cases found
        exact member
  · exact fun member => ⟨.hasAncestor k, member, rfl⟩

/-- Entities that are not selected, and the order in which entities come, do not matter. -/
theorem select_congr (q : StructuredQuery) {first second : List Entity}
    (distinct : (first.map Entity.key).Nodup)
    (same : (first.filter q.selects).Perm (second.filter q.selects)) :
    q.select first = q.select second := by
  have perm : ((first.mergeSort keyOrdered).filter q.selects).Perm
      ((second.mergeSort keyOrdered).filter q.selects) :=
    ((List.mergeSort_perm _ _).filter _).trans (same.trans ((List.mergeSort_perm _ _).filter _).symm)
  rw [select_eq, select_eq]
  refine congrArg (q.orders.foldr Order.sort) (List.Perm.eq_of_pairwise ?_ ((keyOrdered_pairwise first).filter _)
    ((keyOrdered_pairwise second).filter _) perm)
  intro a b left right le ge
  have fromFirst : ∀ e ∈ (first.mergeSort keyOrdered).filter q.selects, e ∈ first := fun e member =>
    List.mem_mergeSort.mp (List.mem_filter.mp member).1
  exact List.inj_on_of_nodup_map distinct (fromFirst a left) (fromFirst b (perm.mem_iff.mpr right))
    (key_eq_of_keyOrdered le ge)

/-- Of what is stored only the entities that the query selects matter. -/
theorem select_congr_stored (q : StructuredQuery) {first second : Bindings Key Entity} (filed : Filed first)
    (refiled : Filed second)
    (agree : ∀ e, q.selects e = true → (first.at? e.key = some e ↔ second.at? e.key = some e)) :
    q.select (first.map Prod.snd) = q.select (second.map Prod.snd) := by
  have nodup : ∀ {stored : Bindings Key Entity}, Filed stored →
      ((stored.map Prod.snd).filter q.selects).Nodup := fun filed =>
    (List.Nodup.of_map _ filed.keys_nodup).filter _
  refine q.select_congr filed.keys_nodup ?_
  refine (List.perm_ext_iff_of_nodup (nodup filed) (nodup refiled)).mpr ?_
  intro e
  rw [List.mem_filter, List.mem_filter, filed.mem_iff, refiled.mem_iff]
  exact and_congr_left fun selected => agree e selected

end StructuredQuery

namespace Store

/-- The answer to a query depends on the selected entities alone. -/
theorem answer_congr (q : StructuredQuery) {first second : Bindings Key Entity} (filed : Filed first)
    (refiled : Filed second)
    (agree : ∀ e, q.selects e = true → (first.at? e.key = some e ↔ second.at? e.key = some e)) :
    answer q first = answer q second := by
  simp only [answer, q.select_congr_stored filed refiled agree]

end Store

end EntityStore
