import EntityStore.Key.Draft
import EntityStore.Proofs.KeyParts
import Mathlib.Data.Set.List

set_option autoImplicit false

namespace EntityStore

namespace PartialKeyDraft

/-- Whether the data of a draft are those of a partial key.  The empty text stands for no namespace. -/
structure Describes (d : PartialKeyDraft) (k : PartialKey) : Prop where
  dataset : d.dataset = .text k.dataset.text
  namespaceName : d.namespaceName = namespaceDatum k.namespaceName ∨ d.namespaceName = .text "" ∧ k.namespaceName = none
  ancestors : d.ancestors = k.ancestors.map Ancestor.datum
  kind : d.kind = .text k.kind.text

theorem describes_ofSpace (k : PartialKey) : (ofSpace k).Describes k := ⟨rfl, .inl rfl, rfl, rfl⟩

theorem create_eq_ok_iff {d : PartialKeyDraft} {k : PartialKey} :
    PartialKey.create d.dataset d.kind d.namespaceName (.tuple d.ancestors) = .ok k ↔ d.Describes k := by
  rw [PartialKey.create_eq_ok_iff, createNamespace_eq_ok_iff]
  constructor
  · rintro ⟨dataset, namespaceName, ancestors, kind⟩
    exact ⟨dataset, namespaceName, ancestors, kind⟩
  · rintro ⟨dataset, namespaceName, ancestors, kind⟩
    exact ⟨dataset, namespaceName, ancestors, kind⟩

theorem Describes.checkSet {d : PartialKeyDraft} {k : PartialKey} (describes : d.Describes k) :
    d.checkSet = .ok () := by
  rw [PartialKeyDraft.checkSet, describes.dataset, describes.kind]

theorem build_eq_ok_iff {d : PartialKeyDraft} {k : PartialKey} : d.build = .ok k ↔ d.Describes k := by
  rw [build, bind_eq_ok_iff]
  constructor
  · rintro ⟨-, -, made⟩
    exact create_eq_ok_iff.mp made
  · intro describes
    exact ⟨(), describes.checkSet, create_eq_ok_iff.mpr describes⟩

/-- The draft with the parts of a partial key describes this key alone. -/
theorem describes_ofSpace_iff {space k : PartialKey} : (ofSpace space).Describes k ↔ k = space := by
  rw [← build_eq_ok_iff, build_eq_ok_iff.mpr (describes_ofSpace space), Except.ok.injEq, eq_comm]

/-- Whether the data of a draft can be those of a partial key: a dataset and a kind, no namespace or a text, and
ancestors that identify entities. -/
structure Valid (d : PartialKeyDraft) : Prop where
  dataset : d.dataset.IsLabel
  namespaceName : d.namespaceName = .none ∨ ∃ s, d.namespaceName = .text s
  ancestors : ∀ x ∈ d.ancestors, ∃ e : PathElement, x = .step e ∧ e.isComplete = true
  kind : d.kind.IsLabel

theorem exists_describes_iff {d : PartialKeyDraft} : (∃ k, d.Describes k) ↔ d.Valid := by
  constructor
  · rintro ⟨k, dataset, namespaceName, ancestors, kind⟩
    refine ⟨Datum.isLabel_iff.mpr ⟨_, dataset⟩, ?_, ?_, Datum.isLabel_iff.mpr ⟨_, kind⟩⟩
    · rcases namespaceName with same | ⟨same, -⟩
      · rw [same]
        cases k.namespaceName with
        | none => exact .inl rfl
        | some l => exact .inr ⟨l.text, rfl⟩
      · exact .inr ⟨"", same⟩
    · intro x member
      rw [ancestors] at member
      obtain ⟨a, -, rfl⟩ := List.mem_map.mp member
      exact ⟨a.element, rfl, rfl⟩
  · rintro ⟨dataset, namespaceName, ancestors, kind⟩
    obtain ⟨l, dataset⟩ := Datum.isLabel_iff.mp dataset
    obtain ⟨m, kind⟩ := Datum.isLabel_iff.mp kind
    have steps : ∀ x ∈ d.ancestors, x ∈ Set.range Ancestor.datum := by
      intro x member
      obtain ⟨e, rfl, complete⟩ := ancestors x member
      obtain ⟨i, identified⟩ := Option.isSome_iff_exists.mp complete
      exact ⟨⟨e.kind, i⟩, congrArg (Datum.step ⟨e.kind, ·⟩) identified.symm⟩
    obtain ⟨above, same⟩ := (Set.ext_iff.mp (Set.range_list_map Ancestor.datum) d.ancestors).mpr steps
    obtain ⟨n, named⟩ : ∃ n, createNamespace d.namespaceName = .ok n := by
      rcases namespaceName with absent | ⟨s, text⟩
      · exact ⟨none, by rw [absent]; rfl⟩
      · exact ⟨Label.ofText? s, by rw [text]; rfl⟩
    exact ⟨⟨l, n, above, m⟩, dataset, createNamespace_eq_ok_iff.mp named, same.symm, kind⟩

end PartialKeyDraft

namespace KeyDraft

open Drafting

/-- The draft with an id or name and nothing else changed. -/
def identified (d : KeyDraft) (i : Identifier) : KeyDraft := { d with id? := i.id?, name? := i.name? }

@[simp] theorem identifier?_identified (d : KeyDraft) (i : Identifier) : (d.identified i).identifier? = some i := by
  cases i <;> rfl

/-- What comes of a checked id or name: it is set, or the draft stays as it was. -/
def settled (d : KeyDraft) : Except Error Identifier → Except Error Unit × KeyDraft
  | .ok i => (.ok (), d.identified i)
  | .error e => (.error e, d)

theorem perform_setId (d : KeyDraft) (x : Datum) :
    (setId x).perform d = d.settled (Identifier.id <$> EntityId.create x) := by
  cases checks : EntityId.create x with
  | error e => exact perform_checked_bind_of_error d checks _
  | ok n => exact perform_checked_bind_of_ok d checks _

theorem perform_setName (d : KeyDraft) (x : Datum) :
    (setName x).perform d = d.settled (Identifier.name <$> Label.createName x) := by
  cases checks : Label.createName x with
  | error e => exact perform_checked_bind_of_error d checks _
  | ok l => exact perform_checked_bind_of_ok d checks _

theorem perform_setIdentifier (d : KeyDraft) (x : Datum) :
    (setIdentifier x).perform d = d.settled (Identifier.create x) := by
  cases x with
  | text s => exact perform_setName d _
  | _ => exact perform_setId d _

theorem made_setIdentifier_eq_ok_iff {d left : KeyDraft} {x : Datum} :
    (setIdentifier x).made d = .ok left ↔ ∃ i : Identifier, x = i.datum ∧ d.identified i = left := by
  rw [made, perform_setIdentifier]
  simp only [← Identifier.create_eq_ok_iff]
  cases Identifier.create x <;> simp [settled]

theorem build_eq_ok_iff {d : KeyDraft} {k : Key} :
    d.build = .ok k ↔ d.Describes k.toPartialKey ∧ d.identifier? = some k.identifier := by
  have parts (i : Identifier) :
      Key.create d.dataset d.kind i.datum d.namespaceName (.tuple d.ancestors) = .ok k ↔
        d.Describes k.toPartialKey ∧ i = k.identifier := by
    rw [Key.create_eq_ok_iff, PartialKeyDraft.create_eq_ok_iff, ← Identifier.create_eq_ok_iff,
      Identifier.create_eq_ok_iff.mpr rfl, Except.ok.injEq]
  rw [build, bind_eq_ok_iff]
  cases d.identifier? with
  | none => simp [throw, throwThe, MonadExceptOf.throw]
  | some i =>
      constructor
      · rintro ⟨-, -, made⟩
        obtain ⟨describes, rfl⟩ := (parts i).mp made
        exact ⟨describes, rfl⟩
      · rintro ⟨describes, same⟩
        exact ⟨(), describes.checkSet, (parts i).mpr ⟨describes, Option.some.inj same⟩⟩

end KeyDraft

end EntityStore
