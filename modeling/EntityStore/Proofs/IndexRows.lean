import EntityStore.Proofs.Comparison
import EntityStore.Proofs.Projection

set_option autoImplicit false

namespace EntityStore

/-- The entry of what is shown of an element is that of the element, and both are missing if it is invisible. -/
theorem Element.target?_projected? (x : Element) :
    x.projected?.map (fun shown => (Value.single shown).target?) = x.entry?.map some := by
  cases hidden : x.isHidden with
  | true => rw [projected?_of_hidden hidden, entry?_of_hidden hidden, Option.map_none, Option.map_none]
  | false =>
      obtain ⟨scalar, marks⟩ := x
      rw [projected?_of_visible hidden, entry?_of_visible hidden]
      cases scalar with
      | entity nested => simp [isHidden, Scalar.variant] at hidden
      | _ => rfl

/-- The entries of what rows show of a value are its index entries, in the same order. -/
theorem Value.map_target?_projected (v : Value) :
    v.projected.map (fun x => (single x).target?) = v.entries.map some := by
  have each (x : Element) :
      x.projected?.toList.map (fun shown => (single shown).target?) = x.entry?.toList.map some := by
    rw [← Option.toList_map, ← Option.toList_map, x.target?_projected?]
  cases v with
  | single x => exact each x
  | list items marks =>
      rw [projected, entries]
      split
      · rfl
      · rw [List.map_flatMap, List.map_flatMap]
        exact List.flatMap_congr fun x _ => each x

namespace Entity

/-- A property has as many index entries as visible elements. -/
theorem length_entries (e : Entity) {name : String} (property : name ≠ keyProperty) :
    (e.entries name).length = (e.visible name).length := by
  have shown := e.projected_eq name
  rw [entries, if_neg property]
  cases found : e.property? name with
  | none =>
      rw [found] at shown
      simpa using congrArg List.length shown
  | some v =>
      rw [found, Option.map_some, Option.getD_some] at shown
      have same := congrArg List.length v.map_target?_projected
      rw [List.length_map, List.length_map, shown, List.length_map] at same
      exact same.symm

/-- An entity has a row if it has an index entry for every projected property; its key always has one. -/
theorem project_ne_nil_iff (e : Entity) (names : List String) :
    e.project names ≠ [] ↔ ∀ name ∈ names, e.entries name ≠ [] := by
  have none_iff : e.project names = [] ↔ ∃ name ∈ projectedProperties names, e.visible name = [] := by
    rw [project, List.map_eq_nil_iff]
    exact (Ways.of_choices e _).eq_nil_iff
  rw [ne_eq, none_iff, not_exists]
  refine forall_congr' fun name => ?_
  by_cases property : name = keyProperty
  · simp [projectedProperties, property, entries]
  · have length := e.length_entries property
    simp [projectedProperties, property, ← List.length_eq_zero_iff, length]

/-- Each index entry of a property is that of a value that some row shows. -/
theorem exists_row_of_entry {e : Entity} {property : String} (notKey : property ≠ keyProperty) {entry : IndexEntry}
    (member : entry ∈ e.entries property) :
    ∃ row ∈ e.project [property], ∃ shown, row.entity.property? property = some shown ∧ shown.target? = some entry := by
  rw [entries, if_neg notKey] at member
  cases found : e.property? property with
  | none => simp [found] at member
  | some v =>
      rw [found, Option.map_some, Option.getD_some] at member
      have listed : some entry ∈ v.entries.map some := List.mem_map_of_mem member
      rw [← v.map_target?_projected] at listed
      obtain ⟨x, projected, target⟩ := List.mem_map.mp listed
      obtain ⟨position, looked⟩ := List.mem_iff_getElem?.mp projected
      have chosen : (⟨property, position, x⟩ : Choice) ∈ e.choices property := by
        refine mem_choices.mpr ⟨rfl, ?_⟩
        rwa [found]
      obtain ⟨row, member, shows⟩ := exists_row chosen (List.mem_singleton_self property) notKey fun other asked _ =>
        List.mem_singleton.mp asked ▸ List.ne_nil_of_mem chosen
      refine ⟨row, member, .single x, ?_, target⟩
      rw [row.property?_entity, shows]
      rfl

/-- The index entries of what rows show of a value are its own, in order.  So an entity has a row exactly if it has an
entry for every projected property, and some row shows the value by which it meets a comparison. -/
theorem rows_show_entries :
    (∀ v : Value, v.projected.map (fun x => (Value.single x).target?) = v.entries.map some) ∧
      (∀ (e : Entity) (names : List String), e.project names ≠ [] ↔ ∀ name ∈ names, e.entries name ≠ []) ∧
      ∀ (e : Entity) (property : String) (relation : Comparison) (value : Value), property ≠ keyProperty →
        (Condition.compare property relation value).holds e = true →
        ∃ target, value.target? = some target ∧ ∃ row ∈ e.project [property], ∃ shown entry,
          row.entity.property? property = some shown ∧ shown.target? = some entry ∧
            entry.rank = target.rank ∧ relation.holds entry target = true := by
  refine ⟨Value.map_target?_projected, project_ne_nil_iff, fun e property relation value notKey holds => ?_⟩
  obtain ⟨target, asked, entry, member, rank, stands⟩ := (Condition.holds_iff _ e).mp holds
  obtain ⟨row, projected, shown, shows, own⟩ := exists_row_of_entry notKey member
  exact ⟨target, asked, row, projected, shown, entry, shows, own, rank, stands⟩

/-- A list holds a moment that is not indexed and one that is.  An integer equals the number of the second one, and a
row shows a value with this entry. -/
theorem rows_show_entries_of_moment :
    let hidden : Element := ⟨.dateTime ⟨⟨1970, 1, 1, 0, 0, 0, 0⟩, by decide⟩, some false, none⟩
    let moment : Element := ⟨.dateTime ⟨⟨1970, 1, 1, 0, 0, 1, 0⟩, by decide⟩, none, none⟩
    let e : Entity := ⟨.stored, ⟨⟨⟨"app", by decide⟩, none, [], ⟨"Task", by decide⟩⟩, .id ⟨1, by decide⟩⟩,
      [("due", .list [hidden, moment] ⟨none, none⟩)]⟩
    let number : Value := .ofScalar (.long ⟨1000000, by decide⟩)
    e.project ["due"] ≠ [] ∧ (Condition.compare "due" .equal number).holds e = true ∧
      ∃ row ∈ e.project ["due"], ∃ shown entry, row.entity.property? "due" = some shown ∧
        shown.target? = some entry ∧ Comparison.equal.holds entry (.integer 1000000) = true := by
  intro hidden moment e number
  obtain ⟨-, rows, shows⟩ := rows_show_entries
  have holds : (Condition.compare "due" .equal number).holds e = true := by decide +revert
  have entry : e.entries "due" = [.integer 1000000] := rfl
  obtain ⟨target, asked, row, projected, shown, found, bound, own, -, equal⟩ :=
    shows e "due" .equal number (by decide) holds
  cases asked
  refine ⟨(rows e ["due"]).mpr fun name asked => ?_, holds, row, projected, shown, found, bound, own, equal⟩
  rw [List.mem_singleton.mp asked, entry]
  exact List.cons_ne_nil _ _

end Entity

end EntityStore
