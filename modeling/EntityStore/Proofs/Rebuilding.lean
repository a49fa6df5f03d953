import EntityStore.Proofs.Ancestry
import EntityStore.Proofs.KeyDrafts

set_option autoImplicit false

namespace EntityStore

/-- What every key promises: a dataset and a kind, ancestors that identify entities, and either an id within the range
of ids or a name. -/
structure AnyKey.Sound (k : AnyKey) : Prop where
  dataset : k.toPartialKey.dataset.text ≠ ""
  namespaceName : ∀ l, k.toPartialKey.namespaceName = some l → l.text ≠ ""
  kind : k.toPartialKey.kind.text ≠ ""
  ancestors : ∀ e ∈ k.path.dropLast, e.isComplete = true ∧ e.kind.text ≠ ""
  identifier : k.isComplete = true → ∃ i, k.identifier? = some i ∧
    ((∃ n, i.id? = some n ∧ i.name? = none ∧ 1 ≤ n.value ∧ n.value ≤ maxId) ∨
      ∃ l, i.id? = none ∧ i.name? = some l ∧ l.text ≠ "")

theorem AnyKey.sound (k : AnyKey) : k.Sound where
  dataset := k.toPartialKey.dataset.nonempty
  namespaceName l _ := l.nonempty
  kind := k.toPartialKey.kind.nonempty
  ancestors e above := by
    rw [AnyKey.path_eq, List.dropLast_concat] at above
    obtain ⟨a, -, rfl⟩ := List.mem_map.mp above
    exact ⟨rfl, a.kind.nonempty⟩
  identifier complete := by
    cases k with
    | incomplete k => cases complete
    | complete k =>
        refine ⟨k.identifier, rfl, ?_⟩
        cases k.identifier with
        | id n => exact .inl ⟨n, rfl, rfl, n.inRange⟩
        | name l => exact .inr ⟨l, rfl, rfl, l.nonempty⟩

namespace Key

/-- The key that a number of steps from parent to parent lead to. -/
def ascend : Nat → Key → Except Error (Option Key)
  | 0, k => .ok (some k)
  | n + 1, k => do
    match ← k.parent with
    | none => return none
    | some p => p.ascend n

theorem toPartial_eq (k : Key) : k.toPartial = .ok k.toPartialKey := k.toPartialKey.create_parts

theorem parent_eq (k : Key) : k.parent = .ok k.parent? := by
  rw [parent, parent?]
  cases found : k.ancestors.getLast? with
  | none => rfl
  | some last =>
      exact congrArg (some <$> ·) (create_parts { k with
        ancestors := k.ancestors.dropLast, kind := last.kind, identifier := last.identifier })

/-- A key has a given parent if it lies in a space right below it. -/
theorem hasParent_iff {c p : Key} : c.HasParent p ↔ c.toPartialKey = p.childSpace c.kind := by
  constructor
  · intro parent
    obtain ⟨last, found, rfl⟩ := Option.map_eq_some_iff.mp parent
    have whole : c.ancestors = c.ancestors.dropLast ++ [last] := (List.dropLast_append_getLast? last found).symm
    exact PartialKey.ext rfl rfl whole rfl
  · intro space
    obtain ⟨⟨dataset, namespaceName, ancestors, kind⟩, identifier⟩ := c
    obtain ⟨rfl, rfl, rfl, -⟩ := (PartialKey.mk.injEq ..).mp space
    rw [HasParent, parent?, List.getLast?_concat, Option.map_some, List.dropLast_concat]
    rfl

theorem HasParent.path_eq {k p : Key} (parent : k.HasParent p) : p.path = k.path.dropLast := by
  rw [parent.parts.2.2, k.path_eq, List.dropLast_concat]

theorem HasParent.length_eq {k p : Key} (parent : k.HasParent p) : k.path.length = p.path.length + 1 := by
  rw [parent.parts.2.2, k.path_eq, List.length_append]
  rfl

theorem HasParent.ascend_succ {k p : Key} (parent : k.HasParent p) (n : Nat) : k.ascend (n + 1) = p.ascend n := by
  rw [ascend, parent_eq, parent]
  rfl

/-- So many steps lead to the key whose path is so much shorter. -/
theorem ascend_of_lt {n : Nat} {k : Key} (steps : n < k.path.length) :
    ∃ p, k.ascend n = .ok (some p) ∧ p.path = k.path.take (k.path.length - n) := by
  induction n generalizing k with
  | zero => exact ⟨k, rfl, List.take_length.symm⟩
  | succ n ih =>
      have below : k.ancestors ≠ [] := by
        intro root
        rw [path_eq, root] at steps
        simp at steps
      obtain ⟨p, parent⟩ := exists_parent below
      have length := parent.length_eq
      obtain ⟨top, reached, path⟩ := ih (k := p) (by omega)
      refine ⟨top, (parent.ascend_succ n).trans reached, ?_⟩
      have rest : p.path.length - n = k.path.length - (n + 1) := by omega
      rw [path, rest, parent.path_eq, List.dropLast_eq_take, List.take_take, Nat.min_eq_left (by omega)]

/-- One step for each step of the path leads beyond the root. -/
theorem ascend_length (k : Key) : k.ascend k.path.length = .ok none := by
  induction depth : k.path.length generalizing k with
  | zero => simp [path_eq] at depth
  | succ n ih =>
      by_cases root : k.ancestors = []
      · have top : k.parent? = none := by rw [parent?, root]; rfl
        rw [ascend, parent_eq, top]
        rfl
      · obtain ⟨p, parent⟩ := exists_parent root
        rw [parent.ascend_succ]
        exact ih p (by have := parent.length_eq; omega)

end Key

namespace KeyDraft

/-- A key is built from the draft with all its parts. -/
theorem build_ofKey (k : Key) : (ofKey (.complete k)).build = .ok k := by
  refine build_eq_ok_iff.mpr ⟨PartialKeyDraft.describes_ofSpace _, ?_⟩
  obtain ⟨space, _ | _⟩ := k <;> rfl

theorem build_identified_eq_ok_iff {d : KeyDraft} {i : Identifier} {k : Key} :
    (d.identified i).build = .ok k ↔ d.Describes k.toPartialKey ∧ i = k.identifier := by
  rw [build_eq_ok_iff, identifier?_identified, Option.some.injEq]
  rfl

/-- A key in a given space is built if the datum is its id or name. -/
theorem built_in_space_eq_ok_iff {space : PartialKey} {x : Datum} {k : Key} :
    (start (.key (.incomplete space)) [x] >>= build) = .ok k ↔ k.toPartialKey = space ∧ x = k.identifier.datum := by
  show ((setIdentifier x).made (ofKey (.incomplete space)) >>= build) = .ok k ↔ _
  rw [bind_eq_ok_iff]
  simp only [made_setIdentifier_eq_ok_iff]
  constructor
  · rintro ⟨-, ⟨i, rfl, rfl⟩, built⟩
    obtain ⟨describes, rfl⟩ := build_identified_eq_ok_iff.mp built
    exact ⟨PartialKeyDraft.describes_ofSpace_iff.mp describes, rfl⟩
  · rintro ⟨same, rfl⟩
    exact ⟨_, ⟨_, rfl, rfl⟩, build_identified_eq_ok_iff.mpr ⟨PartialKeyDraft.describes_ofSpace_iff.mpr same, rfl⟩⟩

/-- A key below a given one is built if the data are its kind and its id or name. -/
theorem built_below_eq_ok_iff {p c : Key} {kind x : Datum} :
    (start (.key (.complete p)) [kind, x] >>= build) = .ok c ↔
      kind = .text c.kind.text ∧ x = c.identifier.datum ∧ c.HasParent p := by
  show ((setIdentifier x).made ((ofKey (.complete p)).onSpace fun d =>
    (d.withAncestors ((p.ancestors ++ [p.leaf]).map Ancestor.datum)).withKind kind) >>= build) = .ok c ↔ _
  rw [bind_eq_ok_iff, Key.hasParent_iff]
  simp only [made_setIdentifier_eq_ok_iff]
  constructor
  · rintro ⟨-, ⟨i, rfl, rfl⟩, built⟩
    obtain ⟨describes, rfl⟩ := build_identified_eq_ok_iff.mp built
    obtain rfl : kind = .text c.kind.text := describes.kind
    exact ⟨rfl, rfl, PartialKeyDraft.describes_ofSpace_iff.mp describes⟩
  · rintro ⟨rfl, rfl, space⟩
    exact ⟨_, ⟨_, rfl, rfl⟩, build_identified_eq_ok_iff.mpr ⟨PartialKeyDraft.describes_ofSpace_iff.mpr space, rfl⟩⟩

end KeyDraft

namespace Key

/-- A key is built again from a draft of it, from its space and from its parent, and a key below it has it as its
parent. As many steps from parent to parent lead beyond the root as the path has. -/
theorem rebuilt (k : Key) :
    (KeyDraft.ofKey (.complete k)).build = .ok k ∧
      KeyDraft.start (.key (.complete k)) [] = .ok (KeyDraft.ofKey (.complete k)) ∧
      (∃ space, k.toPartial = .ok space ∧ (AnyKey.incomplete space).Sound ∧
        (KeyDraft.start (.key (.incomplete space)) [k.identifier.datum] >>= KeyDraft.build) = .ok k) ∧
      (∃ parent, k.parent = .ok parent ∧ (parent = none ↔ k.ancestors = []) ∧
        ∀ p, parent = some p → (AnyKey.complete p).Sound ∧
          (KeyDraft.start (.key (.complete p)) [.text k.kind.text, k.identifier.datum] >>= KeyDraft.build) = .ok k) ∧
      (∀ kind x, kind.IsLabel ∧ (x.IsId ∨ x.IsLabel) ↔
        ∃ c, (KeyDraft.start (.key (.complete k)) [kind, x] >>= KeyDraft.build) = .ok c) ∧
      (∀ kind x c, (KeyDraft.start (.key (.complete k)) [kind, x] >>= KeyDraft.build) = .ok c →
        c.parent = .ok (some k) ∧ kind = .text c.leaf.kind.text ∧ x = c.leaf.identifier.datum) ∧
      (∀ n < k.path.length, ∃ p, k.ascend n = .ok (some p) ∧ p.path = k.path.take (k.path.length - n)) ∧
      k.ascend k.path.length = .ok none ∧
      (∀ (d : PartialKeyDraft) space, d.build = .ok space → d.Describes space ∧ (AnyKey.incomplete space).Sound) ∧
      ∀ (d : KeyDraft) c, d.build = .ok c →
        d.Describes c.toPartialKey ∧ d.identifier? = some c.identifier ∧ (AnyKey.complete c).Sound := by
  refine ⟨KeyDraft.build_ofKey k, rfl, ?_, ?_, ?_, ?_, fun _ => ascend_of_lt, ascend_length k, ?_, ?_⟩
  · exact ⟨_, toPartial_eq k, AnyKey.sound _, KeyDraft.built_in_space_eq_ok_iff.mpr ⟨rfl, rfl⟩⟩
  · refine ⟨_, parent_eq k, ?_, fun p parent => ⟨AnyKey.sound _, ?_⟩⟩
    · rw [parent?, Option.map_eq_none_iff, List.getLast?_eq_none_iff]
    · exact KeyDraft.built_below_eq_ok_iff.mpr ⟨rfl, rfl, parent⟩
  · intro kind x
    rw [Datum.isLabel_iff, Datum.isId_or_isLabel_iff]
    constructor
    · rintro ⟨⟨label, rfl⟩, i, rfl⟩
      exact ⟨(k.childSpace label).withIdentifier i,
        KeyDraft.built_below_eq_ok_iff.mpr ⟨rfl, rfl, hasParent_iff.mpr rfl⟩⟩
    · rintro ⟨c, built⟩
      obtain ⟨labelled, identified, -⟩ := KeyDraft.built_below_eq_ok_iff.mp built
      exact ⟨⟨_, labelled⟩, _, identified⟩
  · intro kind x c built
    obtain ⟨labelled, identified, parent⟩ := KeyDraft.built_below_eq_ok_iff.mp built
    exact ⟨(parent_eq c).trans (congrArg Except.ok parent), labelled, identified⟩
  · intro d space built
    exact ⟨PartialKeyDraft.build_eq_ok_iff.mp built, AnyKey.sound _⟩
  · intro d c built
    obtain ⟨describes, identified⟩ := KeyDraft.build_eq_ok_iff.mp built
    exact ⟨describes, identified, AnyKey.sound _⟩

/-- A note below a task is built again from the task, which is one step up. -/
theorem rebuilt_note :
    let task : Key := ⟨⟨⟨"app", by decide⟩, some ⟨"test", by decide⟩, [], ⟨"Task", by decide⟩⟩, .id ⟨7, by decide⟩⟩
    let note := (task.childSpace ⟨"Note", by decide⟩).withIdentifier (.name ⟨"a", by decide⟩)
    note.parent = .ok (some task) ∧
      (KeyDraft.start (.key (.complete task)) [.text "Note", .text "a"] >>= KeyDraft.build) = .ok note ∧
      1 < note.path.length ∧ (∃ p, note.ascend 1 = .ok (some p) ∧ p.path = note.path.take 1) ∧
      note.ascend 2 = .ok none := by
  intro task note
  have parent : note.parent = .ok (some task) := (parent_eq note).trans rfl
  obtain ⟨-, -, -, ⟨_, above, -, below⟩, -, -, up, beyond, -, -⟩ := rebuilt note
  obtain rfl := Except.ok.inj (above.symm.trans parent)
  exact ⟨parent, (below task rfl).2, by decide, up 1 (by decide), beyond⟩

end Key

end EntityStore
