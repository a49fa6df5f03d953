import EntityStore.Proofs.Parts

set_option autoImplicit false

namespace EntityStore

/-! ### Equality at every depth -/

theorem forall₂_imp_of_mem {α β : Type} {R S : α → β → Prop} {items : List α} {others : List β}
    (each : List.Forall₂ R items others) (turn : ∀ a ∈ items, ∀ b, R a b → S a b) : List.Forall₂ S items others := by
  induction each with
  | nil => exact List.Forall₂.nil
  | cons here _ ih =>
      apply List.Forall₂.cons
      · exact turn _ List.mem_cons_self _ here
      · exact ih fun a member => turn a (List.mem_cons_of_mem _ member)

theorem forall₂_trans_of_mem {α : Type} {R : α → α → Prop} {items others last : List α}
    (first : List.Forall₂ R items others) (second : List.Forall₂ R others last)
    (chain : ∀ a ∈ items, ∀ b c, R a b → R b c → R a c) : List.Forall₂ R items last := by
  induction first generalizing last with
  | nil => exact second
  | cons here _ ih =>
      obtain ⟨c, rest, next, later, rfl⟩ := List.forall₂_cons_left_iff.mp second
      apply List.Forall₂.cons
      · exact chain _ List.mem_cons_self _ _ here next
      · exact ih later fun a member => chain a (List.mem_cons_of_mem _ member)

theorem Double.same_symm {x y : Double} (same : x.same y = true) : y.same x = true := by
  rw [Double.same_iff] at same ⊢
  exact ⟨same.2.1, same.1, same.2.2.symm⟩

theorem hereditary_refl : Hereditary (fun v => v.hasNaN = false → SameValue v v)
    (fun e => e.hasNaN = false → e.same e = true) where
  plain s m plain numbers := by
    apply Value.same_single_iff.mpr
    refine ⟨s, rfl, ?_⟩
    cases s with
    | entity nested => exact absurd rfl (plain nested)
    | double x =>
        have number : x.isNaN = false := numbers
        simp [Scalar.same, Double.same, number]
    | _ => simp [Scalar.same]
  nested e m ih numbers := by
    apply Value.same_single_iff.mpr
    exact ⟨.entity e, rfl, Scalar.same_entity_iff.mpr ⟨e, rfl, ih numbers⟩⟩
  list items m ih numbers := by
    apply Value.same_list_iff.mpr
    refine ⟨items, rfl, List.forall₂_same.mpr fun x member => ih x member ?_⟩
    exact itemsHaveNaN_eq_false_iff.mp numbers x member
  properties e ih numbers := by
    rw [AnyEntity.hasNaN_eq, propertiesHaveNaN_eq_false_iff] at numbers
    refine AnyEntity.same_iff.mpr ⟨rfl, fun name => ?_⟩
    cases found : e.properties.at? name with
    | none => exact Option.Rel.none
    | some v => exact Option.Rel.some (ih name v found (numbers _ (Bindings.mem_of_at? found)))

theorem hereditary_symm : Hereditary (fun v => ∀ w, SameValue v w → SameValue w v)
    (fun e => ∀ f : AnyEntity, e.same f = true → f.same e = true) where
  plain s m plain w same := by
    obtain ⟨t, rfl, payload⟩ := Value.same_single_iff.mp same
    rcases Scalar.eq_or_double plain payload with rfl | ⟨x, y, rfl, rfl, equal⟩
    · exact same
    · exact Value.same_single_iff.mpr ⟨.double x, rfl, Double.same_symm equal⟩
  nested e m ih w same := by
    obtain ⟨t, rfl, payload⟩ := Value.same_single_iff.mp same
    obtain ⟨f, rfl, equal⟩ := Scalar.same_entity_iff.mp payload
    exact Value.same_single_iff.mpr ⟨.entity e, rfl, Scalar.same_entity_iff.mpr ⟨e, rfl, ih f equal⟩⟩
  list items m ih w same := by
    obtain ⟨others, rfl, each⟩ := Value.same_list_iff.mp same
    apply Value.same_list_iff.mpr
    exact ⟨items, rfl, (forall₂_imp_of_mem each fun a member b => ih a member (.single b)).flip⟩
  properties e ih f same := by
    obtain ⟨key, each⟩ := AnyEntity.same_iff.mp same
    refine AnyEntity.same_iff.mpr ⟨key.symm, fun name => ?_⟩
    rcases rel_cases (each name) with ⟨here, there⟩ | ⟨v, w, here, there, equal⟩
    · rw [here, there]
      exact Option.Rel.none
    · rw [here, there]
      exact Option.Rel.some (ih name v here w equal)

theorem hereditary_trans : Hereditary (fun v => ∀ w u, SameValue v w → SameValue w u → SameValue v u)
    (fun e => ∀ f g : AnyEntity, e.same f = true → f.same g = true → e.same g = true) where
  plain s m plain w u first second := by
    obtain ⟨t, rfl, payload⟩ := Value.same_single_iff.mp first
    obtain ⟨r, rfl, other⟩ := Value.same_single_iff.mp second
    exact Value.same_single_iff.mpr ⟨r, rfl, Scalar.same_trans plain payload other⟩
  nested e m ih w u first second := by
    obtain ⟨t, rfl, payload⟩ := Value.same_single_iff.mp first
    obtain ⟨f, rfl, equal⟩ := Scalar.same_entity_iff.mp payload
    obtain ⟨r, rfl, other⟩ := Value.same_single_iff.mp second
    obtain ⟨g, rfl, further⟩ := Scalar.same_entity_iff.mp other
    exact Value.same_single_iff.mpr ⟨.entity g, rfl, Scalar.same_entity_iff.mpr ⟨g, rfl, ih f g equal further⟩⟩
  list items m ih w u first second := by
    obtain ⟨others, rfl, each⟩ := Value.same_list_iff.mp first
    obtain ⟨last, rfl, further⟩ := Value.same_list_iff.mp second
    apply Value.same_list_iff.mpr
    exact ⟨last, rfl, forall₂_trans_of_mem each further fun a member b c => ih a member (.single b) (.single c)⟩
  properties e ih f g first second := by
    obtain ⟨key, each⟩ := AnyEntity.same_iff.mp first
    obtain ⟨lock, further⟩ := AnyEntity.same_iff.mp second
    refine AnyEntity.same_iff.mpr ⟨key.trans lock, fun name => ?_⟩
    rcases rel_cases (each name) with ⟨here, there⟩ | ⟨v, w, here, there, equal⟩
    · have beyond := further name
      rw [there] at beyond
      rwa [here]
    · rcases rel_cases (further name) with ⟨unbound, -⟩ | ⟨w', u, bound, beyond, next⟩
      · cases there.symm.trans unbound
      · cases there.symm.trans bound
        rw [here, beyond]
        exact Option.Rel.some (ih name v here w u equal next)

/-! ### Equal objects share a number -/

variable (h : Hashing)

theorem itemFingerprints_eq (items : List Element) :
    itemFingerprints h items = items.map fun x => (Value.single x).fingerprint h := by
  induction items with
  | nil => rfl
  | cons first rest ih => rw [itemFingerprints, ih, List.map_cons, Value.fingerprint]

theorem mem_propertyFingerprints {properties : Properties} {seen : List String} {name : String} {number : UInt64} :
    (name, number) ∈ propertyFingerprints h properties seen ↔
      name ∉ seen ∧ ∃ v, properties.at? name = some v ∧ v.fingerprint h = number := by
  induction properties generalizing seen with
  | nil => simp [propertyFingerprints]
  | cons property rest ih =>
      obtain ⟨own, value⟩ := property
      rw [propertyFingerprints, Bindings.at?_cons]
      by_cases before : own ∈ seen
      · rw [if_pos (List.contains_iff_mem.mpr before), ih]
        refine and_congr_right fun unseen => ?_
        have other : own ≠ name := fun same => unseen (same ▸ before)
        rw [if_neg other]
      · rw [if_neg fun found => before (List.contains_iff_mem.mp found), List.mem_cons, ih, Prod.mk.injEq,
          List.mem_cons, not_or]
        by_cases same : own = name
        · subst same
          simp [before, eq_comm]
        · simp [same, Ne.symm same]

theorem nodup_propertyFingerprints {properties : Properties} {seen : List String} :
    (propertyFingerprints h properties seen).Nodup := by
  induction properties generalizing seen with
  | nil => exact List.nodup_nil
  | cons property rest ih =>
      obtain ⟨own, value⟩ := property
      rw [propertyFingerprints]
      split
      · exact ih
      · refine List.nodup_cons.mpr ⟨fun again => ?_, ih⟩
        exact ((mem_propertyFingerprints h).mp again).1 List.mem_cons_self

/-- The number of an entity comes from its key and from its properties in any order. -/
theorem AnyEntity.fingerprint_eq (e : AnyEntity) : e.fingerprint h =
    h.sequence [e.key.fingerprint h,
      h.collection ((propertyFingerprints h e.properties []).map fun p => h.sequence [h.text p.1, p.2])] := by
  cases e with
  | draft k p => rfl
  | keyed e =>
      cases e
      rfl

theorem hereditary_fingerprint : Hereditary (fun v => ∀ w, SameValue v w → v.fingerprint h = w.fingerprint h)
    (fun e => ∀ f : AnyEntity, e.same f = true → e.fingerprint h = f.fingerprint h) where
  plain s m plain w same := by
    obtain ⟨t, rfl, payload⟩ := Value.same_single_iff.mp same
    rcases Scalar.eq_or_double plain payload with rfl | ⟨x, y, rfl, rfl, equal⟩
    · rfl
    · simp only [Value.fingerprint, Element.fingerprint, Scalar.fingerprint, Scalar.variant, h.double_same x y equal]
  nested e m ih w same := by
    obtain ⟨t, rfl, payload⟩ := Value.same_single_iff.mp same
    obtain ⟨f, rfl, equal⟩ := Scalar.same_entity_iff.mp payload
    simp only [Value.fingerprint, Element.fingerprint, Scalar.fingerprint, Scalar.variant, ih f equal]
  list items m ih w same := by
    obtain ⟨others, rfl, each⟩ := Value.same_list_iff.mp same
    have numbers := forall₂_imp_of_mem each fun a member b => ih a member (.single b)
    have shared := List.forall₂_map_left_iff.mpr (List.forall₂_map_right_iff.mpr numbers)
    rw [List.forall₂_eq_eq_eq] at shared
    rw [Value.fingerprint, Value.fingerprint, itemFingerprints_eq, itemFingerprints_eq, shared]
  properties e ih f same := by
    obtain ⟨key, each⟩ := AnyEntity.same_iff.mp same
    have reordered : (propertyFingerprints h e.properties []).Perm (propertyFingerprints h f.properties []) := by
      refine (List.perm_ext_iff_of_nodup (nodup_propertyFingerprints h) (nodup_propertyFingerprints h)).mpr ?_
      rintro ⟨name, number⟩
      rw [mem_propertyFingerprints, mem_propertyFingerprints]
      refine and_congr_right fun _ => ?_
      rcases rel_cases (each name) with ⟨here, there⟩ | ⟨v, w, here, there, equal⟩
      · simp [here, there]
      · simp [here, there, ih name v here w equal]
    rw [AnyEntity.fingerprint_eq, AnyEntity.fingerprint_eq, key, h.collection_perm _ _ (reordered.map _)]

/-! ### Reordered properties -/

/-- Properties that are equal one by one. -/
abbrev SameProperties (properties others : Properties) : Prop :=
  List.Forall₂ (fun p q => p.1 = q.1 ∧ SameValue p.2 q.2) properties others

theorem SameProperties.names {properties others : Properties} (same : SameProperties properties others) :
    properties.names = others.names := by
  induction same with
  | nil => rfl
  | cons here _ ih => exact congrArg₂ List.cons here.1 ih

theorem SameProperties.at? {properties others : Properties} (same : SameProperties properties others) (name : String) :
    Option.Rel SameValue (properties.at? name) (others.at? name) := by
  induction same with
  | nil => exact Option.Rel.none
  | @cons p q rest others here _ ih =>
      obtain ⟨own, v⟩ := p
      obtain ⟨other, w⟩ := q
      obtain ⟨rfl, equal⟩ := here
      rw [Bindings.at?_cons, Bindings.at?_cons]
      split
      · exact Option.Rel.some equal
      · exact ih

theorem Bindings.at?_of_perm {κ ν : Type} [DecidableEq κ] {b c : Bindings κ ν} (distinct : b.names.Nodup)
    (reordered : b.Perm c) (name : κ) : b.at? name = c.at? name := by
  have further : c.names.Nodup := (reordered.map Prod.fst).nodup_iff.mp distinct
  apply Option.ext
  intro v
  rw [← mem_iff_at? distinct, ← mem_iff_at? further, reordered.mem_iff]

/-- Properties that bind a name but once and bind the same names to equal values are equal one by one after a
reordering. -/
theorem SameProperties.exists_reordered {properties others : Properties} (distinct : properties.names.Nodup)
    (further : others.names.Nodup) (each : ∀ name, Option.Rel SameValue (properties.at? name) (others.at? name)) :
    ∃ reordered, SameProperties properties reordered ∧ reordered.Perm others := by
  have found : ∀ p ∈ properties, ∃ q : String × Value,
      (p.1 = q.1 ∧ SameValue p.2 q.2) ∧ others.at? q.1 = some q.2 := by
    rintro ⟨name, v⟩ member
    have own := (Bindings.mem_iff_at? distinct _ _).mp member
    rcases rel_cases (each name) with ⟨unbound, -⟩ | ⟨v', w, here, there, equal⟩
    · cases own.symm.trans unbound
    · cases own.symm.trans here
      exact ⟨(name, w), ⟨rfl, equal⟩, there⟩
  obtain ⟨reordered, chosen⟩ : ∃ reordered : Properties, _ := exists_forall₂ found
  have same : SameProperties properties reordered := (chosen.imp fun _ _ both => both.1).flip
  have once : reordered.names.Nodup := same.names ▸ distinct
  refine ⟨reordered, same, (List.perm_ext_iff_of_nodup once.of_map further.of_map).mpr ?_⟩
  rintro ⟨name, w⟩
  rw [Bindings.mem_iff_at? further]
  constructor
  · intro member
    obtain ⟨p, -, both⟩ := exists_mem_of_forall₂ chosen member
    exact both.2
  · intro there
    rcases rel_cases (each name) with ⟨-, unbound⟩ | ⟨v, w', here, bound, equal⟩
    · cases there.symm.trans unbound
    · obtain ⟨⟨own, u⟩, member, both⟩ := exists_mem_of_forall₂ chosen.flip (Bindings.mem_of_at? here)
      obtain ⟨⟨rfl, -⟩, looked⟩ := both
      cases there.symm.trans looked
      exact member

/-- Entities that bind a name but once are equal if their keys are and their properties are equal one by one
after a reordering. -/
theorem AnyEntity.same_iff_reordered {e f : AnyEntity} (distinct : e.properties.names.Nodup)
    (further : f.properties.names.Nodup) : e.same f = true ↔
      e.key = f.key ∧ ∃ reordered, SameProperties e.properties reordered ∧ reordered.Perm f.properties := by
  rw [same_iff]
  apply and_congr_right
  intro _
  constructor
  · exact SameProperties.exists_reordered distinct further
  · rintro ⟨reordered, same, perm⟩ name
    have once : reordered.names.Nodup := same.names ▸ distinct
    rw [← Bindings.at?_of_perm once perm]
    exact same.at? name

namespace Datum

/-- Values, and entities of every shape, that hold no not-a-number at any depth. -/
def IsObject : Datum → Prop
  | value v => v.hasNaN = false
  | entity e => e.hasNaN = false
  | _ => False

theorem IsObject.same_cases {a b : Datum} (object : a.IsObject) (other : b.IsObject) (same : a.same b = true) :
    (∃ v w, a = value v ∧ b = value w ∧ SameValue v w) ∨ ∃ e f, a = entity e ∧ b = entity f ∧ e.same f = true := by
  cases a with
  | value v =>
      cases b with
      | value w => exact Or.inl ⟨v, w, rfl, rfl, same⟩
      | entity f => cases same
      | _ => exact other.elim
  | entity e =>
      cases b with
      | value w => cases same
      | entity f => exact Or.inr ⟨e, f, rfl, rfl, same⟩
      | _ => exact other.elim
  | _ => exact object.elim

theorem same_equivalence : Equivalence fun a b : { d : Datum // d.IsObject } => a.val.same b.val = true where
  refl := by
    rintro ⟨a, object⟩
    cases a with
    | value v => exact hereditary_refl.value v object
    | entity e => exact hereditary_refl.entity e object
    | _ => exact object.elim
  symm := by
    rintro ⟨a, object⟩ ⟨b, other⟩ same
    rcases object.same_cases other same with ⟨v, w, rfl, rfl, equal⟩ | ⟨e, f, rfl, rfl, equal⟩
    · exact hereditary_symm.value v w equal
    · exact hereditary_symm.entity e f equal
  trans := by
    rintro ⟨a, object⟩ ⟨b, other⟩ ⟨c, further⟩ first second
    rcases object.same_cases other first with ⟨v, w, rfl, rfl, equal⟩ | ⟨e, f, rfl, rfl, equal⟩
    · rcases other.same_cases further second with ⟨_, u, own, rfl, next⟩ | ⟨_, _, mixed, -, -⟩
      · cases own
        exact hereditary_trans.value v w u equal next
      · cases mixed
    · rcases other.same_cases further second with ⟨_, _, mixed, -, -⟩ | ⟨_, g, own, rfl, next⟩
      · cases mixed
      · cases own
        exact hereditary_trans.entity e f g equal next

end Datum

/-- Without not-a-numbers equality is an equivalence: that of sorts, payloads and marks, and of keys and properties in
any order.  Equal objects have one number. -/
theorem AnyEntity.same_structural :
    (Equivalence fun a b : { d : Datum // d.IsObject } => a.val.same b.val = true) ∧
    (∀ v w : Value, v.same w = true ↔
      v.variant = w.variant ∧ v.payload.datum.same w.payload.datum = true ∧
        v.marks.indexed = w.marks.indexed ∧ v.marks.meaning = w.marks.meaning) ∧
    (∀ e f : AnyEntity, e.same f = true ↔
      e.key = f.key ∧ ∀ name, Option.Rel SameValue (e.properties.at? name) (f.properties.at? name)) ∧
    (∀ e f : AnyEntity, e.properties.names.Nodup → f.properties.names.Nodup → (e.same f = true ↔
      e.key = f.key ∧ ∃ reordered, SameProperties e.properties reordered ∧ reordered.Perm f.properties)) ∧
    (∀ (h : Hashing) (v w : Value), v.same w = true → v.fingerprint h = w.fingerprint h) ∧
    ∀ (h : Hashing) (e f : AnyEntity), e.same f = true → e.fingerprint h = f.fingerprint h :=
  ⟨Datum.same_equivalence, fun _ _ => Value.same_iff_parts, fun _ _ => AnyEntity.same_iff,
    fun _ _ => AnyEntity.same_iff_reordered, fun h => (hereditary_fingerprint h).value,
    fun h => (hereditary_fingerprint h).entity⟩

/-- A stored entity and a row whose properties stand in another order, also in an entity that is an item of a
list, and where a zero has the other sign. -/
theorem AnyEntity.same_structural_reordered :
    let space : PartialKey := ⟨⟨"app", by decide⟩, none, [], ⟨"Task", by decide⟩⟩
    let key : Key := ⟨space, .id ⟨1, by decide⟩⟩
    let zero (negative : Bool) : Value := .ofScalar (.double (Double.ofMagnitude negative 0))
    let text (s : String) : Value := .ofScalar (.string s)
    let nested (properties : Properties) : Element :=
      ⟨.entity (.draft (.incomplete space) properties), ⟨some false, none⟩⟩
    let e : AnyEntity := .keyed ⟨.stored, key, [("x", zero false),
      ("parts", .list [nested [("a", text "b"), ("c", text "d")]] ⟨none, none⟩)]⟩
    let f : AnyEntity := .keyed ⟨.projected, key, [
      ("parts", .list [nested [("c", text "d"), ("a", text "b")]] ⟨none, none⟩), ("x", zero true)]⟩
    e.same f = true ∧ (Datum.entity e).IsObject ∧ ∀ h : Hashing, e.fingerprint h = f.fingerprint h := by
  intro space key zero text nested e f
  obtain ⟨-, -, -, reordered, -, shared⟩ := same_structural
  have equal : e.same f = true := by
    apply (reordered e f (by decide) (by decide)).mpr
    refine ⟨rfl, [("x", zero true), ("parts", .list [nested [("c", text "d"), ("a", text "b")]] ⟨none, none⟩)], ?_,
      List.Perm.swap _ _ _⟩
    exact List.Forall₂.cons ⟨rfl, by decide⟩ (List.Forall₂.cons ⟨rfl, by decide⟩ List.Forall₂.nil)
  exact ⟨equal, by unfold Datum.IsObject; decide, fun h => shared h e f equal⟩

end EntityStore
