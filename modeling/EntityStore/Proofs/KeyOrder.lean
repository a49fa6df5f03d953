import EntityStore.Key.Order

set_option autoImplicit false

namespace EntityStore

theorem PathElement.place_injective : Function.Injective PathElement.place := by
  rintro ⟨kind, identifier⟩ ⟨otherKind, otherIdentifier⟩ same
  -- The ranks keep steps without identifier, with an id and with a name apart.
  rcases identifier with _ | id | name <;> rcases otherIdentifier with _ | otherId | otherName <;>
    simp [place] at same
  · rw [Label.ext_text same]
  · cases id
    cases otherId
    obtain ⟨sameKind, rfl⟩ := same
    rw [Label.ext_text sameKind]
  · rw [Label.ext_text same.1, Label.ext_text same.2]

theorem PartialKey.ext {a b : PartialKey} (dataset : a.dataset = b.dataset)
    (namespaceName : a.namespaceName = b.namespaceName) (ancestors : a.ancestors = b.ancestors)
    (kind : a.kind = b.kind) : a = b := by
  cases a
  cases b
  simp_all only

/-- A label is not empty, so none is not taken for one. -/
theorem Label.textOrEmpty_injective : Function.Injective fun l : Option Label => (l.map Label.text).getD "" := by
  intro k l same
  cases k with
  | none =>
      cases l with
      | none => rfl
      | some l => exact absurd (by simpa using same.symm) l.nonempty
  | some k =>
      cases l with
      | none => exact absurd (by simpa using same) k.nonempty
      | some l => exact congrArg some (Label.ext_text (by simpa using same))

namespace AnyKey

theorem path_eq (k : AnyKey) : k.path = k.toPartialKey.ancestors.map Ancestor.element ++ [k.leaf] := by
  cases k with
  | incomplete k => rfl
  | complete k => simp only [path, Key.path, List.map_append, List.map_cons, List.map_nil]; rfl

theorem leaf_kind (k : AnyKey) : k.leaf.kind = k.toPartialKey.kind := by
  cases k <;> rfl

/-- A key is made of its space and its last step. -/
theorem ext_leaf {a b : AnyKey} (space : a.toPartialKey = b.toPartialKey) (leaf : a.leaf = b.leaf) :
    a = b := by
  cases a with
  | incomplete k =>
      cases b with
      | incomplete l => exact congrArg incomplete space
      | complete l => simp [AnyKey.leaf, Key.leaf, Ancestor.element] at leaf
  | complete k =>
      cases b with
      | incomplete l => simp [AnyKey.leaf, Key.leaf, Ancestor.element] at leaf
      | complete l =>
          obtain ⟨k, identifier⟩ := k
          obtain ⟨l, other⟩ := l
          simp only [toPartialKey] at space
          simp only [AnyKey.leaf, Key.leaf, Ancestor.element, PathElement.mk.injEq,
            Option.some.injEq] at leaf
          rw [space, leaf.2]

theorem place_injective : Function.Injective AnyKey.place := by
  intro a b same
  simp only [place, KeyPlace.mk.injEq] at same
  obtain ⟨dataset, namespaceName, path⟩ := same
  have samePath := (List.map_inj_right fun x y equal => PathElement.place_injective equal).mp path
  rw [path_eq, path_eq] at samePath
  obtain ⟨ancestors, leaf⟩ := List.append_inj' samePath rfl
  have sameAncestors := (List.map_inj_right fun x y equal => Ancestor.element_injective equal).mp ancestors
  have sameLeaf : a.leaf = b.leaf := List.singleton_inj.mp leaf
  have sameNamespace : a.toPartialKey.namespaceName = b.toPartialKey.namespaceName :=
    Label.textOrEmpty_injective namespaceName
  have sameKind : a.toPartialKey.kind = b.toPartialKey.kind := by
    rw [← leaf_kind a, ← leaf_kind b, sameLeaf]
  exact ext_leaf (PartialKey.ext (Label.ext_text dataset) sameNamespace sameAncestors sameKind) sameLeaf

end AnyKey

theorem Key.place_injective : Function.Injective Key.place := by
  intro a b same
  exact AnyKey.complete.inj (AnyKey.place_injective same)

end EntityStore
