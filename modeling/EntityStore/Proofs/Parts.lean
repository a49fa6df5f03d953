import EntityStore.Proofs.Grouping
import EntityStore.Proofs.Moments
import EntityStore.Value.Create

/-!
Values and entities and their parts, which are values and entities again.  What holds of a whole if it holds of its
parts holds at every depth.  Equality is taken apart in this way: values are equal if their sorts, payloads and marks
are, and entities if their keys are and the same names are bound to equal values, in any order.
-/

set_option autoImplicit false

namespace EntityStore

/-- What values and entities have if their parts have it. -/
structure Hereditary (P : Value → Prop) (Q : AnyEntity → Prop) : Prop where
  plain : ∀ s m, (∀ nested, s ≠ .entity nested) → P (.single ⟨s, m⟩)
  nested : ∀ e m, Q e → P (.single ⟨.entity e, m⟩)
  list : ∀ items m, (∀ x ∈ items, P (.single x)) → P (.list items m)
  properties : ∀ e : AnyEntity, (∀ name v, e.properties.at? name = some v → P v) → Q e

namespace Hereditary

variable {P : Value → Prop} {Q : AnyEntity → Prop}

mutual

private theorem scalar (h : Hereditary P Q) : ∀ s m, P (.single ⟨s, m⟩)
  | .entity e, m => h.nested e m (entity h e)
  | .null, m => h.plain .null m nofun
  | .boolean b, m => h.plain (.boolean b) m nofun
  | .long n, m => h.plain (.long n) m nofun
  | .double x, m => h.plain (.double x) m nofun
  | .string s, m => h.plain (.string s) m nofun
  | .blob b, m => h.plain (.blob b) m nofun
  | .raw b, m => h.plain (.raw b) m nofun
  | .dateTime t, m => h.plain (.dateTime t) m nofun
  | .key k, m => h.plain (.key k) m nofun
termination_by structural s => s

private theorem element (h : Hereditary P Q) : ∀ x : Element, P (.single x)
  | ⟨s, m⟩ => scalar h s m
termination_by structural x => x

private theorem items (h : Hereditary P Q) : ∀ items : List Element, ∀ x ∈ items, P (.single x)
  | [] => List.forall_mem_nil _
  | first :: rest => List.forall_mem_cons.mpr ⟨element h first, items h rest⟩
termination_by structural items => items

theorem value (h : Hereditary P Q) : ∀ v, P v
  | .single x => element h x
  | .list all m => h.list all m (items h all)
termination_by structural v => v

private theorem bound (h : Hereditary P Q) : ∀ (p : List (String × Value)) name v, Bindings.at? p name = some v → P v
  | [], _, _, found => nomatch found
  | (own, w) :: rest, name, v, found => by
      rw [Bindings.at?_cons] at found
      split at found
      · cases found
        exact value h w
      · exact bound h rest name v found
termination_by structural p => p

private theorem keyed (h : Hereditary P Q) : ∀ e : Entity, Q (.keyed e)
  | ⟨_, _, p⟩ => h.properties _ (bound h p)
termination_by structural e => e

theorem entity (h : Hereditary P Q) : ∀ e, Q e
  | .draft _ p => h.properties _ (bound h p)
  | .keyed e => keyed h e
termination_by structural e => e

end

end Hereditary

/-! ### Equality taken apart -/

/-- Related bindings of a name: none on either side, or related values on both. -/
theorem rel_cases {α β : Type} {R : α → β → Prop} {a? : Option α} {b? : Option β} (related : Option.Rel R a? b?) :
    a? = none ∧ b? = none ∨ ∃ a b, a? = some a ∧ b? = some b ∧ R a b := by
  cases related with
  | none => exact Or.inl ⟨rfl, rfl⟩
  | some here => exact Or.inr ⟨_, _, rfl, rfl, here⟩

/-- Equality of values as a relation. -/
abbrev SameValue (v w : Value) : Prop := v.same w = true

theorem sameItems_iff {items others : List Element} :
    sameItems items others = true ↔ List.Forall₂ (fun a b => SameValue (.single a) (.single b)) items others := by
  induction items generalizing others with
  | nil => cases others <;> simp [sameItems]
  | cons first rest ih => cases others <;> simp [sameItems, ih, Value.same]

namespace Value

variable {s : Scalar} {m : Marks} {items : List Element} {w : Value}

theorem same_single_iff : (single ⟨s, m⟩).same w = true ↔ ∃ t, w = single ⟨t, m⟩ ∧ s.same t = true := by
  cases w with
  | single b =>
      obtain ⟨t, n⟩ := b
      simp only [same, Element.same, Bool.and_eq_true, decide_eq_true_eq, single.injEq, Element.mk.injEq]
      constructor
      · rintro ⟨rfl, payload⟩
        exact ⟨t, ⟨rfl, rfl⟩, payload⟩
      · rintro ⟨_, ⟨rfl, rfl⟩, payload⟩
        exact ⟨rfl, payload⟩
  | list others n => simp [same]

theorem same_list_iff : (list items m).same w = true ↔
    ∃ others, w = list others m ∧ List.Forall₂ (fun a b => SameValue (.single a) (.single b)) items others := by
  cases w with
  | single b => simp [same]
  | list others n =>
      simp only [same, Bool.and_eq_true, decide_eq_true_eq, sameItems_iff, list.injEq]
      constructor
      · rintro ⟨rfl, each⟩
        exact ⟨others, ⟨rfl, rfl⟩, each⟩
      · rintro ⟨_, ⟨rfl, rfl⟩, each⟩
        exact ⟨rfl, each⟩

end Value

theorem Scalar.same_entity_iff {e : AnyEntity} {t : Scalar} :
    (entity e).same t = true ↔ ∃ f, t = entity f ∧ e.same f = true := by
  cases t <;> simp [Scalar.same]

/-- Scalars that hold no entity are equal if they are the same, or equal doubles. -/
theorem Scalar.eq_or_double {s t : Scalar} (plain : ∀ nested, s ≠ .entity nested) (same : s.same t = true) :
    s = t ∨ ∃ x y, s = .double x ∧ t = .double y ∧ x.same y = true := by
  cases s <;> cases t <;> simp only [Scalar.same, decide_eq_true_eq, Bool.false_eq_true] at same
  case entity.entity nested _ => exact absurd rfl (plain nested)
  case double.double x y => exact Or.inr ⟨x, y, rfl, rfl, same⟩
  all_goals
    subst_vars
    exact Or.inl rfl

theorem propertiesWithin_of_at? {properties others : Properties} {seen : List String}
    {identical : Value → Value → Bool} (each : ∀ name ∉ seen, ∀ v, properties.at? name = some v →
      ∃ w, others.at? name = some w ∧ (identical v w || v.same w identical) = true) :
    propertiesWithin properties seen others identical = true := by
  induction properties generalizing seen with
  | nil => rfl
  | cons property rest ih =>
      obtain ⟨own, value⟩ := property
      rw [propertiesWithin, Bool.and_eq_true]
      constructor
      · by_cases before : own ∈ seen
        · simp [before]
        · obtain ⟨w, bound, equal⟩ := each own before value (by rw [Bindings.at?_cons, if_pos rfl])
          rw [bound]
          simp [equal]
      · apply ih
        intro name unseen v found
        rw [List.mem_cons, not_or] at unseen
        apply each name unseen.2 v
        rw [Bindings.at?_cons, if_neg (Ne.symm unseen.1), found]

theorem propertiesWithin_iff {properties others : Properties} {seen : List String} :
    propertiesWithin properties seen others = true ↔ ∀ name ∉ seen, ∀ v, properties.at? name = some v →
      ∃ w, others.at? name = some w ∧ v.same w = true := by
  refine ⟨fun within name unseen v => same_of_propertiesWithin within unseen, fun each => ?_⟩
  refine propertiesWithin_of_at? fun name unseen v found => ?_
  simpa using each name unseen v found

namespace AnyEntity

variable {e f : AnyEntity}

theorem same_eq (e f : AnyEntity) (identical : Value → Value → Bool := fun _ _ => false) :
    e.same f identical = (decide (e.key = f.key) && propertiesWithin e.properties [] f.properties identical &&
      f.properties.all fun p => Bindings.binds e.properties p.1) := by
  cases e with
  | draft k p =>
      cases f with
      | draft l q => rfl
      | keyed f =>
          cases f
          rfl
  | keyed e =>
      cases e
      cases f with
      | draft l q => rfl
      | keyed f =>
          cases f
          simp [same, Entity.same, key, properties]

/-- Entities are equal if their keys are and the same names are bound to equal values. -/
theorem same_iff : e.same f = true ↔
    e.key = f.key ∧ ∀ name, Option.Rel SameValue (e.properties.at? name) (f.properties.at? name) := by
  rw [same_eq, Bool.and_eq_true, Bool.and_eq_true, decide_eq_true_eq, propertiesWithin_iff, List.all_eq_true, and_assoc]
  apply and_congr_right
  intro _
  constructor
  · rintro ⟨within, bound⟩ name
    cases found : e.properties.at? name with
    | some v =>
        obtain ⟨w, looked, equal⟩ := within name List.not_mem_nil v found
        rw [looked]
        exact Option.Rel.some equal
    | none =>
        cases looked : f.properties.at? name with
        | none => exact Option.Rel.none
        | some w =>
            have binds := bound (name, w) (Bindings.mem_of_at? looked)
            simp [Bindings.binds, found] at binds
  · intro each
    constructor
    · intro name _ v found
      rcases rel_cases (each name) with ⟨unbound, -⟩ | ⟨own, w, here, looked, equal⟩
      · rw [unbound] at found
        cases found
      · cases here.symm.trans found
        exact ⟨w, looked, equal⟩
    · intro p member
      rcases rel_cases (each p.1) with ⟨-, unbound⟩ | ⟨own, w, here, -, -⟩
      · exact absurd (List.mem_map_of_mem member) ((Bindings.at?_eq_none_iff _ _).mp unbound)
      · rw [Bindings.binds, here, Option.isSome_some]

end AnyEntity

/-! ### Payloads -/

theorem elements_values (position : Nat) (items : List Element) :
    elements position (items.map fun x => .value (.single x)) = .ok items := by
  induction items generalizing position with
  | nil => rfl
  | cons first rest ih =>
      rw [List.map_cons, elements]
      simp only [Value.element?, ih]
      rfl

/-- A value takes its own payload back as it was handed out. -/
theorem Payload.create_datum (p : Payload) : Payload.create p.variant p.datum = .ok p := by
  cases p with
  | list items =>
      have taken := elements_values 0 items
      simp only [variant, datum, create, Datum.items?, taken]
      rfl
  | scalar s =>
      cases s with
      | long n =>
          have fits : Long.ofInt? n.value = some n := dif_pos n.inRange
          simp only [variant, Scalar.variant, datum, Scalar.datum, create, fits]
      | dateTime t =>
          have own : (⟨t, some 0⟩ : OffsetTime).universal? = some t :=
            (OffsetTime.universal?_eq_some_iff rfl t).mpr
              ((OffsetTime.sameInstant_iff _ _).mpr ⟨t.toMicros, by simp [OffsetTime.toMicros?]⟩)
          simp only [variant, Scalar.variant, datum, Scalar.datum, create, universalTime, own]
          rfl
      | _ => rfl

theorem Scalar.same_datum {s t : Scalar} (sort : s.variant = t.variant) : s.datum.same t.datum = s.same t := by
  cases s <;> cases t <;> cases sort
  case boolean.boolean a b => cases a <;> cases b <;> rfl
  case long.long m n =>
    have equal : (m.value = n.value) = (m = n) := by cases m; cases n; simp
    simp [datum, Datum.same, Datum.number?, Datum.sameNumber, same, equal]
  case dateTime.dateTime t u =>
    have equal : (t.toMicros = u.toMicros) = (t = u) := propext CivilTime.toMicros_injective.eq_iff
    simp [datum, Datum.same, OffsetTime.toMicros?, same, equal]
  case key.key k l => simp [datum, Datum.same, same]
  all_goals rfl

theorem sameAll_values (items others : List Element) :
    Datum.sameAll (items.map fun x => .value (.single x)) (others.map fun x => .value (.single x)) =
      sameItems items others := by
  induction items generalizing others with
  | nil => cases others <;> rfl
  | cons first rest ih =>
      cases others with
      | nil => rfl
      | cons second others =>
          simp only [List.map_cons, Datum.sameAll, Datum.same, sameItems, Bool.false_or, ih, Value.same]

theorem Scalar.variant_of_same {s t : Scalar} (same : s.same t = true) : s.variant = t.variant := by
  cases s <;> cases t <;> first | rfl | simp [Scalar.same] at same

theorem Scalar.variant_ne_list (s : Scalar) : s.variant ≠ .list := by cases s <;> exact nofun

/-- Values are equal if their sorts, their payloads and their marks are. -/
theorem Value.same_iff_parts {v w : Value} : v.same w = true ↔
    v.variant = w.variant ∧ v.payload.datum.same w.payload.datum = true ∧
      v.marks.indexed = w.marks.indexed ∧ v.marks.meaning = w.marks.meaning := by
  have marks : ∀ m n : Marks, m = n ↔ m.indexed = n.indexed ∧ m.meaning = n.meaning := fun ⟨_, _⟩ ⟨_, _⟩ => by simp
  rw [← marks]
  cases v with
  | single a =>
      obtain ⟨s, m⟩ := a
      cases w with
      | single b =>
          obtain ⟨t, n⟩ := b
          simp only [same, Element.same, Bool.and_eq_true, decide_eq_true_eq, variant, payload, Payload.datum,
            Value.marks]
          constructor
          · rintro ⟨equal, payload⟩
            have sort := Scalar.variant_of_same payload
            exact ⟨sort, by rwa [Scalar.same_datum sort], equal⟩
          · rintro ⟨sort, payload, equal⟩
            rw [Scalar.same_datum sort] at payload
            exact ⟨equal, payload⟩
      | list others n =>
          refine iff_of_false (by simp [same]) fun equal => ?_
          exact s.variant_ne_list equal.1
  | list items m =>
      cases w with
      | single b =>
          refine iff_of_false (by simp [same]) fun equal => ?_
          exact b.scalar.variant_ne_list equal.1.symm
      | list others n =>
          simp only [same, Bool.and_eq_true, decide_eq_true_eq, variant, payload, Payload.datum, Datum.same,
            sameAll_values, Value.marks, true_and]
          exact and_comm

/-! ### Not-a-numbers at any depth -/

mutual

def Scalar.hasNaN : Scalar → Bool
  | .double x => x.isNaN
  | .entity e => AnyEntity.hasNaN e
  | _ => false
termination_by structural s => s

def Element.hasNaN : Element → Bool
  | ⟨s, _⟩ => Scalar.hasNaN s
termination_by structural x => x

def itemsHaveNaN : List Element → Bool
  | [] => false
  | first :: rest => Element.hasNaN first || itemsHaveNaN rest
termination_by structural items => items

/-- Whether a value holds a not-a-number, in lists and entities at any depth. -/
def Value.hasNaN : Value → Bool
  | .single x => Element.hasNaN x
  | .list items _ => itemsHaveNaN items
termination_by structural v => v

def propertiesHaveNaN : List (String × Value) → Bool
  | [] => false
  | (_, v) :: rest => Value.hasNaN v || propertiesHaveNaN rest
termination_by structural p => p

def Entity.hasNaN : Entity → Bool
  | ⟨_, _, p⟩ => propertiesHaveNaN p
termination_by structural e => e

/-- Whether an entity holds a not-a-number, in its properties at any depth. -/
def AnyEntity.hasNaN : AnyEntity → Bool
  | .draft _ p => propertiesHaveNaN p
  | .keyed e => Entity.hasNaN e
termination_by structural e => e

end

theorem itemsHaveNaN_eq_false_iff {items : List Element} :
    itemsHaveNaN items = false ↔ ∀ x ∈ items, (Value.single x).hasNaN = false := by
  induction items with
  | nil => simp [itemsHaveNaN]
  | cons first rest ih => simp [itemsHaveNaN, Value.hasNaN, ih]

theorem propertiesHaveNaN_eq_false_iff {properties : List (String × Value)} :
    propertiesHaveNaN properties = false ↔ ∀ p ∈ properties, p.2.hasNaN = false := by
  induction properties with
  | nil => simp [propertiesHaveNaN]
  | cons first rest ih =>
      obtain ⟨name, v⟩ := first
      simp [propertiesHaveNaN, ih]

theorem AnyEntity.hasNaN_eq (e : AnyEntity) : e.hasNaN = propertiesHaveNaN e.properties := by
  cases e with
  | draft k p => rfl
  | keyed e =>
      cases e
      rfl

end EntityStore
