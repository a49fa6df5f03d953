import EntityStore.Key.Basic

set_option autoImplicit false

namespace EntityStore

/-- The place of a path step among others. -/
structure StepPlace where
  kind : String
  rank : Int
  id : Nat
  name : String
deriving DecidableEq

namespace StepPlace

def cmp (a b : StepPlace) : Ordering :=
  (compare a.kind b.kind).then ((compare a.rank b.rank).then
    ((compare a.id b.id).then (compare a.name b.name)))

instance : Std.TransCmp cmp :=
  inferInstanceAs (Std.TransCmp (compareLex (compareOn StepPlace.kind)
    (compareLex (compareOn StepPlace.rank) (compareLex (compareOn StepPlace.id)
      (compareOn StepPlace.name)))))

instance : Std.LawfulEqCmp cmp where
  eq_of_compare {a b} h := by
    simp only [cmp, Ordering.then_eq_eq, Std.LawfulEqOrd.compare_eq_iff_eq] at h
    obtain ⟨h₁, h₂, h₃, h₄⟩ := h
    cases a; cases b; simp_all

end StepPlace

/-- The place of a path step: an incomplete one has rank -1, an id rank 0 and a name rank 1. -/
def PathElement.place (e : PathElement) : StepPlace :=
  match e.identifier? with
  | none => ⟨e.kind.text, -1, 0, ""⟩
  | some (.id n) => ⟨e.kind.text, 0, n.value, ""⟩
  | some (.name l) => ⟨e.kind.text, 1, 0, l.text⟩

/-- The place of a key among others. -/
structure KeyPlace where
  dataset : String
  namespaceName : String
  path : List StepPlace
deriving DecidableEq

namespace KeyPlace

def cmp (a b : KeyPlace) : Ordering :=
  (compare a.dataset b.dataset).then ((compare a.namespaceName b.namespaceName).then
    (List.compareLex StepPlace.cmp a.path b.path))

private instance : Std.TransCmp (fun a b : KeyPlace => List.compareLex StepPlace.cmp a.path b.path) where
  eq_swap := (inferInstance : Std.TransCmp (List.compareLex StepPlace.cmp)).eq_swap
  isLE_trans := (inferInstance : Std.TransCmp (List.compareLex StepPlace.cmp)).isLE_trans

instance : Std.TransCmp cmp :=
  inferInstanceAs (Std.TransCmp (compareLex (compareOn KeyPlace.dataset)
    (compareLex (compareOn KeyPlace.namespaceName)
      (fun a b : KeyPlace => List.compareLex StepPlace.cmp a.path b.path))))

instance : Std.LawfulEqCmp cmp where
  eq_of_compare {a b} h := by
    simp only [cmp, Ordering.then_eq_eq, Std.LawfulEqCmp.compare_eq_iff_eq] at h
    obtain ⟨h₁, h₂, h₃⟩ := h
    cases a; cases b; simp_all

end KeyPlace

/-- The place of a key; no namespace counts as the empty text. -/
def AnyKey.place (k : AnyKey) : KeyPlace :=
  ⟨k.toPartialKey.dataset.text, (k.toPartialKey.namespaceName.map Label.text).getD "",
    k.path.map PathElement.place⟩

def Key.place (k : Key) : KeyPlace := (AnyKey.complete k).place

end EntityStore
