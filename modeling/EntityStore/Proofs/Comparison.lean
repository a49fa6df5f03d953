import EntityStore.Proofs.Semantics
import EntityStore.Proofs.Visibility

set_option autoImplicit false

namespace EntityStore

/-- A payload that an entity shows under a name: its key under the name of the key, otherwise a visible element of
the property. -/
inductive Entity.Exposes (e : Entity) : String → Scalar → Prop where
  | key : e.Exposes keyProperty (.key e.key)
  | element {name : String} {x : Element} (property : name ≠ keyProperty) (visible : x ∈ e.visible name) :
      e.Exposes name x.scalar

/-- Whether a relation admits two payloads, given whether the first is below, the same as or above the second. -/
def Comparison.Admits (r : Comparison) (below same above : Prop) : Prop :=
  match r with
  | less => below
  | lessOrEqual => below ∨ same
  | greater => above
  | greaterOrEqual => above ∨ same
  | equal => same

theorem Comparison.Admits.elim {r : Comparison} {below same above conclusion : Prop}
    (admits : r.Admits below same above) (ofBelow : below → conclusion) (ofSame : same → conclusion)
    (ofAbove : above → conclusion) : conclusion := by
  cases r with
  | less => exact ofBelow admits
  | lessOrEqual => exact Or.elim admits ofBelow ofSame
  | greater => exact ofAbove admits
  | greaterOrEqual => exact Or.elim admits ofAbove ofSame
  | equal => exact ofSame admits

theorem Comparison.admits_or_iff (r : Comparison) {b s a b' s' a' : Prop} :
    r.Admits (b ∨ b') (s ∨ s') (a ∨ a') ↔ r.Admits b s a ∨ r.Admits b' s' a' := by
  cases r with
  | less | greater | equal => exact Iff.rfl
  | lessOrEqual | greaterOrEqual => exact or_or_or_comm

theorem Long.ext_value {m n : Long} (same : m.value = n.value) : m = n := by
  cases m
  cases n
  cases same
  rfl

namespace Scalar

/-- The strict order among payloads of one sort. -/
inductive Below : Scalar → Scalar → Prop where
  | boolean : Below (.boolean false) (.boolean true)
  | long {m n : Long} (less : m.value < n.value) : Below (.long m) (.long n)
  | double {x y : Double} (less : x.below y = true) : Below (.double x) (.double y)
  | string {s t : String} (less : s < t) : Below (.string s) (.string t)
  | blob {b c : List UInt8} (less : b < c) : Below (.blob b) (.blob c)
  | raw {b c : List UInt8} (less : b < c) : Below (.raw b) (.raw c)
  | dateTime {t u : CivilTime} (less : t.fields.toList < u.fields.toList) : Below (.dateTime t) (.dateTime u)
  | key {k l : Key} (less : KeyPlace.cmp k.place l.place = .lt) : Below (.key k) (.key l)

/-- Equality among payloads of one sort. -/
inductive Equals : Scalar → Scalar → Prop where
  | null : Equals .null .null
  | boolean (b : Bool) : Equals (.boolean b) (.boolean b)
  | long (n : Long) : Equals (.long n) (.long n)
  | double {x y : Double} (equal : x.same y = true) : Equals (.double x) (.double y)
  | string (s : String) : Equals (.string s) (.string s)
  | blob (b : List UInt8) : Equals (.blob b) (.blob b)
  | raw (b : List UInt8) : Equals (.raw b) (.raw b)
  | dateTime (t : CivilTime) : Equals (.dateTime t) (.dateTime t)
  | key (k : Key) : Equals (.key k) (.key k)

/-- The strict order between payloads of two sorts: an integer is taken for the number of microseconds of a moment,
and the bytes of both sorts of byte strings are compared. -/
inductive BelowAcross : Scalar → Scalar → Prop where
  | longMoment {n : Long} {t : CivilTime} (less : n.value < t.toMicros) : BelowAcross (.long n) (.dateTime t)
  | momentLong {n : Long} {t : CivilTime} (less : t.toMicros < n.value) : BelowAcross (.dateTime t) (.long n)
  | blobRaw {b c : List UInt8} (less : b < c) : BelowAcross (.blob b) (.raw c)
  | rawBlob {b c : List UInt8} (less : b < c) : BelowAcross (.raw b) (.blob c)

/-- Equality between payloads of two sorts. -/
inductive EqualsAcross : Scalar → Scalar → Prop where
  | longMoment {n : Long} {t : CivilTime} (equal : n.value = t.toMicros) : EqualsAcross (.long n) (.dateTime t)
  | momentLong {n : Long} {t : CivilTime} (equal : t.toMicros = n.value) : EqualsAcross (.dateTime t) (.long n)
  | blobRaw (b : List UInt8) : EqualsAcross (.blob b) (.raw b)
  | rawBlob (b : List UInt8) : EqualsAcross (.raw b) (.blob b)

/-- Whether a payload stands in a relation to another one of its sort. -/
def Stands (r : Comparison) (x y : Scalar) : Prop := r.Admits (x.Below y) (x.Equals y) (y.Below x)

/-- Whether a payload stands in a relation to one of another sort. -/
def StandsAcross (r : Comparison) (x y : Scalar) : Prop :=
  r.Admits (x.BelowAcross y) (x.EqualsAcross y) (y.BelowAcross x)

variable {x y : Scalar} {a b : IndexEntry}

theorem Below.variant_eq (less : x.Below y) : x.variant = y.variant := by
  cases less <;> rfl

theorem Equals.variant_eq (equal : x.Equals y) : x.variant = y.variant := by
  cases equal <;> rfl

/-- The pairs of sorts that have index entries in common. -/
def sharedEntries : List (Variant × Variant) := [(.long, .dateTime), (.dateTime, .long), (.blob, .raw), (.raw, .blob)]

theorem BelowAcross.shared (less : x.BelowAcross y) :
    (x.variant, y.variant) ∈ sharedEntries ∧ (y.variant, x.variant) ∈ sharedEntries := by
  cases less <;> simp [variant, sharedEntries]

theorem EqualsAcross.shared (equal : x.EqualsAcross y) : (x.variant, y.variant) ∈ sharedEntries := by
  cases equal <;> simp [variant, sharedEntries]

theorem Stands.variant_eq {r : Comparison} (stands : x.Stands r y) : x.variant = y.variant :=
  Comparison.Admits.elim stands Below.variant_eq Equals.variant_eq fun less => less.variant_eq.symm

theorem StandsAcross.shared {r : Comparison} (stands : x.StandsAcross r y) :
    (x.variant, y.variant) ∈ sharedEntries :=
  Comparison.Admits.elim stands (fun less => less.shared.1) EqualsAcross.shared fun less => less.shared.2

theorem exists_entry_iff : (∃ a, x.entry? = some a) ↔ x.variant ≠ .entity := by
  cases x <;> simp [variant, entry?]

theorem exists_entry_of_stands {r : Comparison} (asked : y.entry? = some b)
    (stands : x.Stands r y ∨ x.StandsAcross r y) : ∃ a, x.entry? = some a := by
  rw [exists_entry_iff]
  intro nested
  rcases stands with own | across
  · exact exists_entry_iff.mp ⟨b, asked⟩ (own.variant_eq ▸ nested)
  · have shared := across.shared
    rw [nested] at shared
    simp [sharedEntries] at shared

/-- Index entries are in the order of the payloads that they stand for. -/
theorem payloadBelow_iff (left : x.entry? = some a) (right : y.entry? = some b) :
    a.payloadBelow b = true ↔ x.Below y ∨ x.BelowAcross y := by
  constructor
  · intro less
    -- What is left are the pairs of sorts whose entries can be compared at all.
    cases x <;> cases y <;> cases left <;> cases right <;>
      simp only [IndexEntry.payloadBelow, decide_eq_true_eq, Bool.and_eq_true, Bool.not_eq_true',
        Bool.false_eq_true] at less
    case boolean.boolean.refl.refl =>
      obtain ⟨rfl, rfl⟩ := less
      exact Or.inl .boolean
    case long.long.refl.refl => exact Or.inl (.long less)
    case double.double.refl.refl => exact Or.inl (.double less)
    case string.string.refl.refl => exact Or.inl (.string less)
    case blob.blob.refl.refl => exact Or.inl (.blob less)
    case raw.raw.refl.refl => exact Or.inl (.raw less)
    case dateTime.dateTime.refl.refl => exact Or.inl (.dateTime (CivilTime.toMicros_lt_iff.mp less))
    case key.key.refl.refl => exact Or.inl (.key less)
    case long.dateTime.refl.refl => exact Or.inr (.longMoment less)
    case dateTime.long.refl.refl => exact Or.inr (.momentLong less)
    case blob.raw.refl.refl => exact Or.inr (.blobRaw less)
    case raw.blob.refl.refl => exact Or.inr (.rawBlob less)
  · rintro (less | less)
    · cases less <;> cases left <;> cases right <;> simp_all [IndexEntry.payloadBelow, CivilTime.toMicros_lt_iff]
    · cases less <;> cases left <;> cases right <;> simp_all [IndexEntry.payloadBelow]

/-- Index entries are the same if the payloads are that they stand for. -/
theorem entry_same_iff (left : x.entry? = some a) (right : y.entry? = some b) :
    a.same b = true ↔ x.Equals y ∨ x.EqualsAcross y := by
  constructor
  · intro equal
    cases x <;> cases y <;> cases left <;> cases right <;>
      simp only [IndexEntry.same, decide_eq_true_eq, Bool.false_eq_true] at equal
    case null.null.refl.refl => exact Or.inl .null
    case boolean.boolean.refl.refl => exact Or.inl (equal ▸ .boolean _)
    case long.long.refl.refl m n =>
      obtain rfl : m = n := Long.ext_value equal
      exact Or.inl (.long m)
    case double.double.refl.refl => exact Or.inl (.double equal)
    case string.string.refl.refl => exact Or.inl (equal ▸ .string _)
    case blob.blob.refl.refl => exact Or.inl (equal ▸ .blob _)
    case raw.raw.refl.refl => exact Or.inl (equal ▸ .raw _)
    case dateTime.dateTime.refl.refl => exact Or.inl (CivilTime.toMicros_injective equal ▸ .dateTime _)
    case key.key.refl.refl => exact Or.inl (Key.place_injective equal ▸ .key _)
    case long.dateTime.refl.refl => exact Or.inr (.longMoment equal)
    case dateTime.long.refl.refl => exact Or.inr (.momentLong equal)
    case blob.raw.refl.refl => exact Or.inr (equal ▸ .blobRaw _)
    case raw.blob.refl.refl => exact Or.inr (equal ▸ .rawBlob _)
  · rintro (equal | equal)
    · cases equal <;> cases left <;> cases right <;> simp_all [IndexEntry.same]
    · cases equal <;> cases left <;> cases right <;> simp_all [IndexEntry.same]

end Scalar

/-- Entries that stand in a relation are of one rank. -/
theorem Comparison.rank_eq_of_holds {r : Comparison} {a b : IndexEntry} (holds : r.holds a b = true) :
    a.rank = b.rank := by
  have below : ∀ {c d : IndexEntry}, c.payloadBelow d = true → c.rank = d.rank := by
    intro c d less
    cases c <;> cases d <;> first | rfl | cases less
  have same : a.same b = true → a.rank = b.rank := by
    intro equal
    cases a <;> cases b <;> first | rfl | cases equal
  cases r with
  | less => exact below holds
  | lessOrEqual => exact ((Bool.or_eq_true _ _).mp holds).elim below same
  | greater => exact (below holds).symm
  | greaterOrEqual => exact ((Bool.or_eq_true _ _).mp holds).elim (fun less => (below less).symm) same
  | equal => exact same holds

theorem Comparison.holds_iff (r : Comparison) (a b : IndexEntry) :
    r.holds a b = true ↔ r.Admits (a.payloadBelow b = true) (a.same b = true) (b.payloadBelow a = true) := by
  cases r with
  | less | greater | equal => exact Iff.rfl
  | lessOrEqual | greaterOrEqual => exact Bool.or_eq_true _ _ ▸ Iff.rfl

theorem Scalar.holds_iff {x y : Scalar} {a b : IndexEntry} (left : x.entry? = some a) (right : y.entry? = some b)
    (r : Comparison) : r.holds a b = true ↔ x.Stands r y ∨ x.StandsAcross r y := by
  rw [r.holds_iff, payloadBelow_iff left right, entry_same_iff left right, payloadBelow_iff right left]
  exact r.admits_or_iff

theorem Entity.Exposes.exists_visible {e : Entity} {name : String} {x : Scalar} (exposed : e.Exposes name x)
    (property : name ≠ keyProperty) : ∃ shown ∈ e.visible name, shown.scalar = x := by
  cases exposed with
  | key => exact absurd rfl property
  | element _ visible => exact ⟨_, visible, rfl⟩

theorem Entity.mem_entries_iff (e : Entity) (name : String) (entry : IndexEntry) :
    entry ∈ e.entries name ↔ ∃ x, e.Exposes name x ∧ x.entry? = some entry := by
  by_cases key : name = keyProperty
  · rw [entries, if_pos key, List.mem_singleton, key]
    constructor
    · rintro rfl
      exact ⟨_, .key, rfl⟩
    · rintro ⟨_, exposed, shown⟩
      cases exposed with
      | key => exact (Option.some.inj shown).symm
      | element property => exact absurd rfl property
  · rw [e.entries_of_property key, List.mem_filterMap]
    constructor
    · rintro ⟨x, visible, shown⟩
      exact ⟨_, .element key visible, shown⟩
    · rintro ⟨_, exposed, shown⟩
      obtain ⟨x, visible, rfl⟩ := exposed.exists_visible key
      exact ⟨x, visible, shown⟩

namespace Condition

/-- A condition that is accepted compares with a payload that has an index entry. -/
theorem target_of_check {property : String} {relation : Comparison} {value : Value}
    (accepted : (compare property relation value).check = .ok ()) :
    ∃ target marks entry, value = .single ⟨target, marks⟩ ∧ target.entry? = some entry := by
  cases value with
  | list items marks => cases accepted
  | single x =>
      obtain ⟨target, marks⟩ := x
      cases target with
      | entity e => cases accepted
      | _ => exact ⟨_, _, _, rfl, rfl⟩

theorem holds_compare_iff {target : Scalar} {sought : IndexEntry} (asked : target.entry? = some sought)
    (property : String) (relation : Comparison) (marks : Marks) (e : Entity) :
    (compare property relation (.single ⟨target, marks⟩)).holds e = true ↔
      ∃ x, e.Exposes property x ∧ (x.Stands relation target ∨ x.StandsAcross relation target) := by
  rw [holds_iff]
  constructor
  · rintro ⟨_, same, entry, member, -, holds⟩
    obtain rfl := Option.some.inj (asked.symm.trans same)
    obtain ⟨x, exposed, shown⟩ := (e.mem_entries_iff property entry).mp member
    exact ⟨x, exposed, (Scalar.holds_iff shown asked relation).mp holds⟩
  · rintro ⟨x, exposed, stands⟩
    obtain ⟨entry, shown⟩ := Scalar.exists_entry_of_stands asked stands
    have holds := (Scalar.holds_iff shown asked relation).mpr stands
    exact ⟨sought, asked, entry, (e.mem_entries_iff property entry).mpr ⟨x, exposed, shown⟩,
      Comparison.rank_eq_of_holds holds, holds⟩

end Condition

theorem Condition.check_of_forM {conditions : List Condition} {u : PUnit}
    (checked : conditions.forM check = .ok u) : ∀ c ∈ conditions, c.check = .ok () := by
  induction conditions with
  | nil => exact List.forall_mem_nil _
  | cons c rest ih =>
      rw [List.forM_eq_forM, List.forM_cons] at checked
      cases first : c.check with
      | error e => simp [first, bind, Except.bind] at checked
      | ok _ =>
          rw [first] at checked
          exact List.forall_mem_cons.mpr ⟨first, ih checked⟩

theorem StructuredQuery.check_conditions {q : StructuredQuery} (checked : q.check = .ok ()) :
    ∀ c ∈ q.conditions, c.check = .ok () := by
  unfold check at checked
  cases conditions : q.conditions.forM Condition.check with
  | error e => simp [conditions, bind, Except.bind] at checked
  | ok _ => exact Condition.check_of_forM conditions

namespace Store

/-- A comparison is met by the entities that expose a payload in the relation to the one asked for, of the same sort or
of one that shares its place in the order: integers and moments, or the two sorts of bytes. -/
theorem comparison_met {s : Store} {query : Query} {q : StructuredQuery} (structured : query.toStructured = .ok q)
    {handle? : Option Handle} {stored : Bindings Key Entity} (seen : s.seen? handle? = some stored)
    {cursor : Cursor} {next : Store} (accepted : s.execute query handle? = .ok (cursor, next)) {property : String}
    {relation : Comparison} {value : Value} (asked : .compare property relation value ∈ q.conditions) :
    ∃ target marks, value = .single ⟨target, marks⟩ ∧
      (∀ e, (Condition.compare property relation value).holds e = true ↔
        ∃ x, e.Exposes property x ∧ (x.Stands relation target ∨ x.StandsAcross relation target)) ∧
      (∀ x : Scalar, x.Stands relation target → x.variant = target.variant) ∧
      (∀ x : Scalar, x.StandsAcross relation target → (x.variant, target.variant) ∈ Scalar.sharedEntries) ∧
      ∀ e ∈ q.select (stored.map Prod.snd), (Condition.compare property relation value).holds e = true := by
  obtain ⟨checked, -⟩ := (execute_eq_ok_iff structured seen cursor).mp ⟨next, accepted⟩
  obtain ⟨target, marks, entry, rfl, sought⟩ :=
    Condition.target_of_check (StructuredQuery.check_conditions checked _ asked)
  refine ⟨target, marks, rfl, ?_, fun _ => Scalar.Stands.variant_eq, fun _ => Scalar.StandsAcross.shared, ?_⟩
  · exact Condition.holds_compare_iff sought property relation marks
  · intro e selected
    have passes := ((q.mem_select _ e).mp selected).2
    exact (Condition.holds_iff _ e).mpr (((q.selects_iff e).mp passes).conditions _ asked)

/-- A number is asked for, and one entity has it among its numbers. -/
theorem comparison_met_by_numbers :
    let key (n : EntityId) : Key := ⟨⟨⟨"app", by decide⟩, none, [], ⟨"Task", by decide⟩⟩, .id n⟩
    let number : Element := ⟨.long ⟨7, by decide⟩, ⟨none, none⟩⟩
    let text : Element := ⟨.string "7", ⟨none, none⟩⟩
    let first : Entity := ⟨.stored, key ⟨1, by decide⟩, [("n", .list [text, number] ⟨none, none⟩)]⟩
    let second : Entity := ⟨.stored, key ⟨2, by decide⟩, [("n", .single text)]⟩
    let asked : Condition := .compare "n" .greaterOrEqual (.single number)
    let q : StructuredQuery := ⟨.full, none, none, some (.condition asked), [], [], [], none, 0⟩
    let s := reached .standard
      [.commit [⟨.put, .entity (.keyed first)⟩, ⟨.put, .entity (.keyed second)⟩] none]
    s.execute (.structured q) none = .ok (⟨.full, [.entity first]⟩, s) ∧
      ∀ e, asked.holds e = true ↔ ∃ x, e.Exposes "n" x ∧
        (x.Stands .greaterOrEqual number.scalar ∨ x.StandsAcross .greaterOrEqual number.scalar) := by
  intro key number text first second asked q s
  have accepted : s.execute (.structured q) none = .ok (⟨.full, [.entity first]⟩, s) := by
    subst s q asked second first text number key
    cbv
  have stated : asked ∈ q.conditions := List.mem_singleton_self asked
  have seen : s.seen? none = some [(key ⟨1, by decide⟩, first), (key ⟨2, by decide⟩, second)] := rfl
  obtain ⟨target, marks, same, met, -⟩ := comparison_met (q := q) rfl seen accepted stated
  refine ⟨accepted, ?_⟩
  rw [congrArg Element.scalar (Value.single.inj same)]
  exact met

/-- An integer is found where a moment is asked for. -/
theorem moment_met_by_integer :
    let key : Key := ⟨⟨⟨"app", by decide⟩, none, [], ⟨"Task", by decide⟩⟩, .id ⟨1, by decide⟩⟩
    let entity : Entity := ⟨.stored, key, [("n", .single ⟨.long ⟨1000000, by decide⟩, ⟨none, none⟩⟩)]⟩
    let moment : Value := .single ⟨.dateTime ⟨⟨1970, 1, 1, 0, 0, 1, 0⟩, by decide⟩, ⟨none, none⟩⟩
    let q : StructuredQuery :=
      ⟨.full, none, none, some (.condition (.compare "n" .equal moment)), [], [], [], none, 0⟩
    let s := reached .standard [.commit [⟨.put, .entity (.keyed entity)⟩] none]
    s.execute (.structured q) none = .ok (⟨.full, [.entity entity]⟩, s) ∧
      (Condition.compare "n" .equal moment).holds entity = true ∧
      ∀ x, entity.Exposes "n" x → x.variant ≠ moment.variant := by
  intro key entity moment q s
  refine ⟨?_, by decide, ?_⟩
  · subst s q moment entity key
    cbv
  · intro x exposed
    obtain ⟨shown, visible, rfl⟩ := exposed.exists_visible (by decide)
    have only : entity.visible "n" = [⟨.long ⟨1000000, by decide⟩, ⟨none, none⟩⟩] := rfl
    rw [only] at visible
    rw [List.mem_singleton.mp visible]
    intro same
    cases same

end Store

end EntityStore
