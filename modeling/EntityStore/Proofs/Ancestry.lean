import EntityStore.Proofs.KeyComparison
import Mathlib.Logic.Relation

set_option autoImplicit false

namespace EntityStore

section Contiguous

variable {α : Type} {R : α → α → Prop} {p : α → Bool}

/-- Items that pass and are not overtaken by others that do stand at the front behind one that passes. -/
theorem filter_prefix_of_convex (convex : ∀ x y z, R x y → R y z → p x = true → p z = true → p y = true)
    {x : α} {rest : List α} (sorted : (x :: rest).Pairwise R) (passes : p x = true) : rest.filter p <+: rest := by
  induction rest with
  | nil => exact List.prefix_rfl
  | cons y later ih =>
      obtain ⟨ahead, sortedRest⟩ := List.pairwise_cons.mp sorted
      obtain ⟨behind, -⟩ := List.pairwise_cons.mp sortedRest
      by_cases next : p y = true
      · rw [List.filter_cons_of_pos next, List.cons_prefix_cons]
        have shorter : (x :: later).Pairwise R := sorted.sublist ((List.sublist_cons_self y later).cons_cons x)
        exact ⟨rfl, ih shorter⟩
      · have none : later.filter p = [] := by
          apply List.filter_eq_nil_iff.mpr
          intro z member last
          exact next (convex x y z (ahead y List.mem_cons_self) (behind z member) passes last)
        rw [List.filter_cons_of_neg next, none]
        exact List.nil_prefix

/-- Of items in order, those stand together that what lies between any two of them belongs to as well. -/
theorem filter_infix_of_convex (convex : ∀ x y z, R x y → R y z → p x = true → p z = true → p y = true)
    {items : List α} (sorted : items.Pairwise R) : items.filter p <:+: items := by
  induction items with
  | nil => exact List.infix_rfl
  | cons x rest ih =>
      by_cases passes : p x = true
      · rw [List.filter_cons_of_pos passes]
        have front : x :: rest.filter p <+: x :: rest :=
          List.cons_prefix_cons.mpr ⟨rfl, filter_prefix_of_convex convex sorted passes⟩
        exact front.isInfix
      · rw [List.filter_cons_of_neg passes]
        exact List.infix_cons (ih (List.pairwise_cons.mp sorted).2)

end Contiguous

namespace Key

/-- Whether a key has a given parent. -/
def HasParent (k p : Key) : Prop := k.parent? = some p

theorem path_eq (k : Key) : k.path = k.ancestors.map Ancestor.element ++ [k.leaf.element] := List.map_append

/-- The parent has the same dataset and namespace, and the path without its last step. -/
theorem HasParent.parts {k p : Key} (parent : k.HasParent p) :
    p.dataset = k.dataset ∧ p.namespaceName = k.namespaceName ∧ p.path = k.ancestors.map Ancestor.element := by
  obtain ⟨last, found, rfl⟩ := Option.map_eq_some_iff.mp parent
  have whole : k.ancestors.dropLast ++ [last] = k.ancestors := List.dropLast_append_getLast? last found
  refine ⟨rfl, rfl, ?_⟩
  calc (k.ancestors.dropLast ++ [(⟨last.kind, last.identifier⟩ : Ancestor)]).map Ancestor.element
    _ = k.ancestors.map Ancestor.element := congrArg (List.map Ancestor.element) whole

theorem HasParent.ancestors_eq {k p : Key} (parent : k.HasParent p) : p.ancestors = k.ancestors.dropLast := by
  obtain ⟨last, -, rfl⟩ := Option.map_eq_some_iff.mp parent
  rfl

theorem exists_parent {k : Key} (below : k.ancestors ≠ []) : ∃ p, k.HasParent p := by
  have found := List.getLast?_eq_some_getLast below
  exact ⟨_, Option.map_eq_some_iff.mpr ⟨_, found, rfl⟩⟩

end Key

namespace AnyKey

theorem LiesWithin.trans {k : AnyKey} {b a : Key} (within : k.LiesWithin b) (above : (complete b).LiesWithin a) :
    k.LiesWithin a where
  dataset := within.dataset.trans above.dataset
  namespaceName := within.namespaceName.trans above.namespaceName
  path := above.path.trans within.path

theorem LiesWithin.antisymm {k a : Key} (within : (complete k).LiesWithin a) (above : (complete a).LiesWithin k) :
    k = a := by
  have length : a.path.length = k.path.length := Nat.le_antisymm within.path.length_le above.path.length_le
  exact complete.inj (within.eq_of_path (within.path.eq_of_length length).symm)

theorem LiesWithin.of_parent {k p : Key} (parent : k.HasParent p) : (complete k).LiesWithin p := by
  obtain ⟨dataset, namespaceName, path⟩ := parent.parts
  refine ⟨dataset.symm, namespaceName.symm, ?_⟩
  show p.path <+: k.path
  rw [path, k.path_eq]
  exact List.prefix_append _ _

/-- A key that lies within another one is this one, or its parent lies within it. -/
theorem LiesWithin.step {k a : Key} (within : (complete k).LiesWithin a) :
    k = a ∨ ∃ p, k.HasParent p ∧ (complete p).LiesWithin a := by
  have path : a.path <+: k.path := within.path
  rw [k.path_eq, List.prefix_concat_iff, ← k.path_eq] at path
  rcases path with same | above
  · exact Or.inl (complete.inj (within.eq_of_path same.symm))
  · have below : k.ancestors ≠ [] := by
      intro root
      rw [root, List.map_nil, List.prefix_nil, a.path_eq] at above
      exact List.append_ne_nil_of_right_ne_nil _ (List.cons_ne_nil _ _) above
    obtain ⟨p, parent⟩ := Key.exists_parent below
    obtain ⟨dataset, namespaceName, parentPath⟩ := parent.parts
    refine Or.inr ⟨p, parent, dataset.trans within.dataset, namespaceName.trans within.namespaceName, ?_⟩
    show a.path <+: p.path
    rw [parentPath]
    exact above

/-- A key lies within those that steps from parent to parent lead to. -/
theorem liesWithin_iff_reached {k a : Key} :
    (complete k).LiesWithin a ↔ Relation.ReflTransGen Key.HasParent k a := by
  constructor
  · intro within
    induction depth : k.ancestors.length generalizing k with
    | zero =>
        rcases within.step with same | ⟨p, parent, -⟩
        · exact same ▸ .refl
        · obtain ⟨last, found, -⟩ := Option.map_eq_some_iff.mp parent
          rw [List.length_eq_zero_iff.mp depth] at found
          cases found
    | succ n ih =>
        rcases within.step with same | ⟨p, parent, above⟩
        · exact same ▸ .refl
        · have shallower : p.ancestors.length = n := by
            rw [parent.ancestors_eq, List.length_dropLast, depth]
            rfl
          exact .head parent (ih above shallower)
  · intro reached
    induction reached with
    | refl => exact .refl k
    | tail _ parent ih => exact ih.trans (.of_parent parent)

/-- What stands between two keys within one key lies within it as well. -/
theorem LiesWithin.between {a : Key} {x y z : AnyKey} (lower : (KeyPlace.cmp x.place y.place).isLE = true)
    (upper : (KeyPlace.cmp y.place z.place).isLE = true) (left : x.LiesWithin a) (right : z.LiesWithin a) :
    y.LiesWithin a := by
  have ends : z.place.dataset = x.place.dataset ∧ z.place.namespaceName = x.place.namespaceName := by
    simp only [place, left.dataset, left.namespaceName, right.dataset, right.namespaceName, and_self]
  rw [KeyPlace.cmp] at lower upper
  rw [ends.1, ends.2] at upper
  -- Where the ends agree so does what stands between them: first the dataset, then the namespace, then the path.
  have dataset : compare x.place.dataset y.place.dataset = .eq :=
    Std.OrientedCmp.isLE_antisymm (Ordering.isLE_left_of_isLE_then lower) (Ordering.isLE_left_of_isLE_then upper)
  have sameDataset := Std.LawfulEqCmp.eq_of_compare dataset
  rw [sameDataset, Std.compare_self, Ordering.eq_then] at lower upper
  have namespaceName : compare x.place.namespaceName y.place.namespaceName = .eq :=
    Std.OrientedCmp.isLE_antisymm (Ordering.isLE_left_of_isLE_then lower) (Ordering.isLE_left_of_isLE_then upper)
  have sameNamespace := Std.LawfulEqCmp.eq_of_compare namespaceName
  rw [sameNamespace, Std.compare_self, Ordering.eq_then] at lower upper
  have path : a.path.map PathElement.place <+: y.path.map PathElement.place :=
    prefix_of_between lower upper (left.path.map _) (right.path.map _)
  refine ⟨?_, ?_, (List.prefix_map_iff_of_injective PathElement.place_injective).mp path⟩
  · exact (Label.ext_text sameDataset).symm.trans left.dataset
  · exact (Label.textOrEmpty_injective sameNamespace).symm.trans left.namespaceName

/-- Keys in order, where equal ones may stand together. -/
def Sorted (keys : List AnyKey) : Prop :=
  keys.Pairwise fun x y => (KeyPlace.cmp x.place y.place).isLE = true

/-- The keys that lie within one key stand together. -/
theorem Sorted.within_infix {keys : List AnyKey} (sorted : Sorted keys) (a : Key) :
    keys.filter (·.isWithin a) <:+: keys := by
  apply filter_infix_of_convex ?_ sorted
  intro x y z lower upper left right
  rw [isWithin_iff] at left right ⊢
  exact .between lower upper left right

/-- The key itself comes first among them. -/
theorem Sorted.head_within {keys : List AnyKey} (sorted : Sorted keys) {a : Key} (member : complete a ∈ keys) :
    (keys.filter (·.isWithin a)).head? = some (complete a) := by
  have own : complete a ∈ keys.filter (·.isWithin a) :=
    List.mem_filter.mpr ⟨member, (isWithin_iff _ a).mpr (.refl a)⟩
  have block : (keys.filter (·.isWithin a)).Pairwise fun x y => (KeyPlace.cmp x.place y.place).isLE = true :=
    List.Pairwise.filter _ sorted
  cases found : keys.filter (·.isWithin a) with
  | nil =>
      rw [found] at own
      cases own
  | cons first rest =>
      have within : first.LiesWithin a := by
        have passes : first ∈ keys.filter (·.isWithin a) := found ▸ List.mem_cons_self
        exact (isWithin_iff first a).mp (List.mem_filter.mp passes).2
      rw [found] at own block
      rcases List.mem_cons.mp own with same | later
      · rw [same, List.head?_cons]
      · have ahead : (KeyPlace.cmp first.place (complete a).place).isLE = true :=
          (List.pairwise_cons.mp block).1 _ later
        by_cases same : first = complete a
        · rw [same, List.head?_cons]
        · -- What lies below the key cannot come before it.
          have behind : KeyPlace.cmp (complete a).place first.place = .lt := before_of_liesWithin within same
          rw [KeyPlace.cmp_swap, behind] at ahead
          cases ahead

end AnyKey

namespace Key

/-- A key lies within another one if steps from parent to parent lead to it.  This is a partial order, and in a list of
keys in order those within one key stand together behind it. -/
theorem ancestry :
    (∀ (a : Key) (e : Entity),
        (Condition.hasAncestor a).holds e = true ↔ Relation.ReflTransGen HasParent e.key a) ∧
      (∀ k : Key, k.isWithin k = true) ∧
      (∀ k a : Key, k.isWithin a = true → a.isWithin k = true → k = a) ∧
      (∀ k b a : Key, k.isWithin b = true → b.isWithin a = true → k.isWithin a = true) ∧
      ∀ (a : Key) (keys : List AnyKey), AnyKey.Sorted keys →
        keys.filter (·.isWithin a) <:+: keys ∧
          (.complete a ∈ keys → (keys.filter (·.isWithin a)).head? = some (.complete a)) := by
  have within (k a : Key) : k.isWithin a = true ↔ (AnyKey.complete k).LiesWithin a := AnyKey.isWithin_iff _ a
  refine ⟨?_, ?_, ?_, ?_, ?_⟩
  · intro a e
    exact (within e.key a).trans AnyKey.liesWithin_iff_reached
  · intro k
    exact (within k k).mpr (.refl k)
  · intro k a below above
    exact ((within k a).mp below).antisymm ((within a k).mp above)
  · intro k b a below above
    exact (within k a).mpr (((within k b).mp below).trans ((within b a).mp above))
  · intro a keys sorted
    exact ⟨sorted.within_infix a, sorted.head_within⟩

/-- Among two tasks and a note, the first task and the note below it stand together. -/
theorem ancestry_of_notes :
    let task (n : EntityId) : Key := ⟨⟨⟨"app", by decide⟩, none, [], ⟨"Task", by decide⟩⟩, .id n⟩
    let first := task ⟨1, by decide⟩
    let second := task ⟨2, by decide⟩
    let note := (first.childSpace ⟨"Note", by decide⟩).withIdentifier (.name ⟨"a", by decide⟩)
    let keys : List AnyKey := [.incomplete first.toPartialKey, .complete first, .complete note, .complete second]
    AnyKey.Sorted keys ∧ note.isWithin first = true ∧ first.isWithin note = false ∧
      Relation.ReflTransGen HasParent note first ∧ keys.filter (·.isWithin first) <:+: keys ∧
      (keys.filter (·.isWithin first)).head? = some (.complete first) := by
  intro task first second note keys
  have sorted : AnyKey.Sorted keys := by
    unfold AnyKey.Sorted
    decide +revert
  obtain ⟨reached, -, -, -, blocks⟩ := ancestry
  obtain ⟨together, front⟩ := blocks first keys sorted
  refine ⟨sorted, by decide, by decide, ?_, together, front (by decide)⟩
  exact (reached first ⟨.stored, note, []⟩).mp (by decide)

end Key

end EntityStore
