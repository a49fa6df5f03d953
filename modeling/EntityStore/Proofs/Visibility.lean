import EntityStore.Proofs.Invisibility
import EntityStore.Proofs.Timestamps

set_option autoImplicit false

namespace EntityStore

/-- An element as a row of a projection shows it: a moment stands there as its marked number. -/
def Element.tagged (x : Element) : Element :=
  match x.scalar with
  | .dateTime t => t.shown
  | _ => x

/-- The visible elements of a value, in their order. -/
def Value.visible : Value → List Element
  | single x => if x.isHidden then [] else [x]
  | list items marks => if marks.indexed = some false then [] else items.filter (!·.isHidden)

/-- The visible elements of a property; a property that is missing has none. -/
def Entity.visible (e : Entity) (name : String) : List Element := ((e.property? name).map Value.visible).getD []

namespace Element

theorem projected?_of_visible {x : Element} (visible : x.isHidden = false) : x.projected? = some x.tagged := by
  obtain ⟨scalar, marks⟩ := x
  simp only [isHidden, Bool.or_eq_false_iff, decide_eq_false_iff_not] at visible
  have plain := visible.2
  rw [projected?, if_neg visible.1]
  cases scalar with
  | entity nested => exact absurd rfl plain
  | _ => rfl

theorem entry?_of_visible {x : Element} (visible : x.isHidden = false) : x.entry? = x.scalar.entry? := by
  simp only [isHidden, Bool.or_eq_false_iff, decide_eq_false_iff_not] at visible
  exact if_neg visible.1

end Element

theorem Value.visible_eq (v : Value) : v.visible = v.elements.filter (!·.isHidden) := by
  cases v with
  | single x => cases hidden : x.isHidden <;> simp [visible, elements, hidden]
  | list items marks => by_cases unindexed : marks.indexed = some false <;> simp [visible, elements, unindexed]

namespace Entity

theorem isHidden_of_visible {e : Entity} {name : String} {x : Element} (member : x ∈ e.visible name) :
    x.isHidden = false := by
  cases found : e.property? name with
  | none => simp [visible, found] at member
  | some v =>
      rw [visible, found, Option.map_some, Option.getD_some, v.visible_eq] at member
      simpa using (List.mem_filter.mp member).2

/-- The visible elements are those of what is left when all that is invisible is erased. -/
theorem visible_eq (e : Entity) (name : String) : e.visible name = ((e.visible? name).map Value.elements).getD [] := by
  cases found : e.property? name with
  | none => simp [visible, visible?, found]
  | some v => simp [visible, visible?, found, v.visible_eq, v.elements_erased]

theorem projected_eq (e : Entity) (name : String) :
    ((e.property? name).map Value.projected).getD [] = (e.visible name).map Element.tagged := by
  rw [e.projected_visible, ← e.visible_eq, ← List.filterMap_eq_map]
  apply List.filterMap_congr
  intro x member
  exact Element.projected?_of_visible (isHidden_of_visible member)

theorem entries_of_property (e : Entity) {name : String} (property : name ≠ keyProperty) :
    e.entries name = (e.visible name).filterMap fun x => x.scalar.entry? := by
  rw [entries, if_neg property, e.entries_visible, ← e.visible_eq]
  apply List.filterMap_congr
  intro x member
  exact Element.entry?_of_visible (isHidden_of_visible member)

end Entity

end EntityStore
