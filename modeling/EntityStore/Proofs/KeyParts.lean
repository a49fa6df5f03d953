import EntityStore.Proofs.KeyOrder
import EntityStore.Key.Create

set_option autoImplicit false

namespace EntityStore

namespace Datum

/-- Whether a datum is a text that is not empty. -/
def IsLabel (d : Datum) : Prop := ∃ s, d = .text s ∧ s ≠ ""

/-- Whether a datum is an integer within the range of ids. -/
def IsId (d : Datum) : Prop := ∃ i, d = .int i ∧ 1 ≤ i ∧ i ≤ maxId

theorem isLabel_iff {d : Datum} : d.IsLabel ↔ ∃ l : Label, d = .text l.text :=
  ⟨fun ⟨s, same, nonempty⟩ => ⟨⟨s, nonempty⟩, same⟩, fun ⟨l, same⟩ => ⟨l.text, same, l.nonempty⟩⟩

theorem isId_iff {d : Datum} : d.IsId ↔ ∃ n : EntityId, d = .int n.value := by
  constructor
  · rintro ⟨i, same, least, greatest⟩
    refine ⟨⟨i.toNat, by omega⟩, same.trans (congrArg int ?_)⟩
    exact (Int.toNat_of_nonneg (by omega)).symm
  · rintro ⟨n, same⟩
    have bounds := n.inRange
    exact ⟨n.value, same, by omega, by omega⟩

/-- A datum identifies an entity if it is an id or a name. -/
theorem isId_or_isLabel_iff {d : Datum} : d.IsId ∨ d.IsLabel ↔ ∃ i : Identifier, d = i.datum := by
  rw [isId_iff, isLabel_iff]
  constructor
  · rintro (⟨n, same⟩ | ⟨l, same⟩)
    · exact ⟨.id n, same⟩
    · exact ⟨.name l, same⟩
  · rintro ⟨_ | _, same⟩
    · exact .inl ⟨_, same⟩
    · exact .inr ⟨_, same⟩

end Datum

theorem EntityId.create_eq_ok_iff {d : Datum} {n : EntityId} : create d = .ok n ↔ d = .int n.value := by
  cases d with
  | int i =>
      rw [Datum.int.injEq, ← ofInt?_eq_some_iff, create]
      cases ofInt? i <;> simp
  | _ => simp [create]

theorem Label.createName_eq_ok_iff {d : Datum} {l : Label} : createName d = .ok l ↔ d = .text l.text := by
  cases d with
  | text s =>
      rw [Datum.text.injEq, ← ofText?_eq_some_iff, createName]
      cases ofText? s <;> simp
  | _ => simp [createName]

theorem Label.createOr_eq_ok_iff {fault : KeyFault} {d : Datum} {l : Label} :
    createOr fault d = .ok l ↔ d = .text l.text := by
  cases d with
  | text s =>
      rw [Datum.text.injEq, ← ofText?_eq_some_iff, createOr]
      cases ofText? s <;> simp
  | _ => simp [createOr]

theorem Identifier.create_eq_ok_iff {d : Datum} {i : Identifier} : create d = .ok i ↔ d = i.datum := by
  have named : name <$> Label.createName d = .ok i ↔ ∃ l, d = .text l.text ∧ name l = i := by
    simp only [map_eq_ok_iff, Label.createName_eq_ok_iff]
  have numbered : id <$> EntityId.create d = .ok i ↔ ∃ n, d = .int n.value ∧ id n = i := by
    simp only [map_eq_ok_iff, EntityId.create_eq_ok_iff]
  cases d with
  | text s => exact named.trans (by cases i <;> simp [datum])
  | _ => exact numbered.trans (by cases i <;> simp [datum])

/-- A namespace is left out or a text; the empty text leaves it out as well. -/
theorem createNamespace_eq_ok_iff {d : Datum} {n : Option Label} :
    createNamespace d = .ok n ↔ d = namespaceDatum n ∨ d = .text "" ∧ n = none := by
  cases d with
  | none => cases n <;> simp [createNamespace, namespaceDatum]
  | text s =>
      cases n with
      | none => simp [createNamespace, namespaceDatum, Label.ofText?_eq_none_iff]
      | some l => simp [createNamespace, namespaceDatum, Label.ofText?_eq_some_iff]
  | _ => cases n <;> simp [createNamespace, namespaceDatum]

theorem PathElement.ancestor?_eq_some_iff {e : PathElement} {a : Ancestor} :
    e.ancestor? = some a ↔ e = a.element := by
  constructor
  · intro complete
    obtain ⟨kind, identifier?⟩ := e
    obtain ⟨i, found, rfl⟩ := Option.map_eq_some_iff.mp complete
    exact congrArg (mk kind) found
  · rintro rfl
    exact a.ancestor?_element

theorem Ancestor.createAll_eq_ok_iff {data : List Datum} {ancestors : List Ancestor} (position : Nat) :
    createAll position data = .ok ancestors ↔ data = ancestors.map datum := by
  induction data generalizing position ancestors with
  | nil => simp [createAll, eq_comm]
  | cons d rest ih =>
      cases d with
      | step e =>
          rw [createAll]
          cases complete : e.ancestor? with
          | none =>
              have different (a : Ancestor) : e ≠ a.element := fun same => by simp [same] at complete
              cases ancestors <;> simp [datum, different]
          | some a =>
              obtain rfl := PathElement.ancestor?_eq_some_iff.mp complete
              simp only [map_eq_ok_iff, ih]
              cases ancestors with
              | nil => simp
              | cons b below =>
                  have same : a.element = b.element ↔ a = b := ⟨element_injective, congrArg element⟩
                  simpa [datum, same] using and_comm
      | _ => cases ancestors <;> simp [createAll, datum]

/-- What a partial key can be made from. -/
theorem PartialKey.create_eq_ok_iff {dataset kind namespaceName : Datum} {ancestors : List Datum} {k : PartialKey} :
    create dataset kind namespaceName (.tuple ancestors) = .ok k ↔
      dataset = .text k.dataset.text ∧ createNamespace namespaceName = .ok k.namespaceName ∧
        ancestors = k.ancestors.map Ancestor.datum ∧ kind = .text k.kind.text := by
  rw [create, show Ancestor.ofSequence (.tuple ancestors) = Ancestor.createAll 0 ancestors from rfl]
  simp only [bind_eq_ok_iff, Label.createOr_eq_ok_iff, Ancestor.createAll_eq_ok_iff]
  constructor
  · rintro ⟨l, dataset, n, namespaceName, above, ancestors, m, kind, made⟩
    cases made
    exact ⟨dataset, namespaceName, ancestors, kind⟩
  · rintro ⟨dataset, namespaceName, ancestors, kind⟩
    exact ⟨_, dataset, _, namespaceName, _, ancestors, _, kind, rfl⟩

/-- What a key can be made from. -/
theorem Key.create_eq_ok_iff {dataset kind identifier namespaceName : Datum} {ancestors : List Datum} {k : Key} :
    create dataset kind identifier namespaceName (.tuple ancestors) = .ok k ↔
      PartialKey.create dataset kind namespaceName (.tuple ancestors) = .ok k.toPartialKey ∧
        identifier = k.identifier.datum := by
  rw [create]
  simp only [bind_eq_ok_iff, Identifier.create_eq_ok_iff]
  constructor
  · rintro ⟨space, made, i, identified, whole⟩
    cases whole
    exact ⟨made, identified⟩
  · rintro ⟨made, identified⟩
    exact ⟨_, made, _, identified, rfl⟩

/-- A partial key is made again from its parts. -/
theorem PartialKey.create_parts (k : PartialKey) :
    create (.text k.dataset.text) (.text k.kind.text) (namespaceDatum k.namespaceName)
      (.tuple (k.ancestors.map Ancestor.datum)) = .ok k :=
  create_eq_ok_iff.mpr ⟨rfl, createNamespace_eq_ok_iff.mpr (.inl rfl), rfl, rfl⟩

/-- A key is made again from its parts. -/
theorem Key.create_parts (k : Key) :
    create (.text k.dataset.text) (.text k.kind.text) k.identifier.datum (namespaceDatum k.namespaceName)
      (.tuple (k.ancestors.map Ancestor.datum)) = .ok k :=
  create_eq_ok_iff.mpr ⟨k.toPartialKey.create_parts, rfl⟩

end EntityStore
