import EntityStore.Proofs.Comparison
import EntityStore.Proofs.Contents
import Mathlib.Data.List.Lex
import Mathlib.Data.String.Basic
import Mathlib.Order.RelClasses

set_option autoImplicit false

namespace EntityStore

section Lexicographic

variable {α : Type} {cmp : α → α → Ordering}

theorem compareLex_append [Std.ReflCmp cmp] (shared a b : List α) :
    List.compareLex cmp (shared ++ a) (shared ++ b) = List.compareLex cmp a b := by
  induction shared with
  | nil => rfl
  | cons x rest ih =>
      have self : cmp x x = .eq := Std.ReflCmp.compare_self
      rw [List.cons_append, List.cons_append, List.compareLex_cons_cons, self, ih]
      rfl

theorem compareLex_extended [Std.ReflCmp cmp] (shared : List α) {further : List α} (proper : further ≠ []) :
    List.compareLex cmp shared (shared ++ further) = .lt := by
  obtain ⟨x, rest, rfl⟩ := List.exists_cons_of_ne_nil proper
  calc List.compareLex cmp shared (shared ++ x :: rest)
    _ = List.compareLex cmp (shared ++ []) (shared ++ x :: rest) := by rw [List.append_nil]
    _ = List.compareLex cmp [] (x :: rest) := compareLex_append shared [] (x :: rest)
    _ = .lt := List.compareLex_nil_cons

/-- What stands between two lists that begin alike begins so as well. -/
theorem prefix_of_between [Std.TransCmp cmp] [Std.LawfulEqCmp cmp] {start a b c : List α}
    (lower : (List.compareLex cmp a b).isLE = true) (upper : (List.compareLex cmp b c).isLE = true)
    (left : start <+: a) (right : start <+: c) : start <+: b := by
  induction start generalizing a b c with
  | nil => exact List.nil_prefix
  | cons x rest ih =>
      obtain ⟨a, rfl⟩ := left
      obtain ⟨c, rfl⟩ := right
      rw [List.cons_append] at lower upper
      cases b with
      | nil =>
          rw [List.compareLex_cons_nil] at lower
          cases lower
      | cons y b =>
          rw [List.compareLex_cons_cons] at lower upper
          -- The first items are in order both ways, so they are the same one.
          have same : cmp x y = .eq :=
            Std.OrientedCmp.isLE_antisymm (Ordering.isLE_left_of_isLE_then lower)
              (Ordering.isLE_left_of_isLE_then upper)
          obtain rfl := Std.LawfulEqCmp.eq_of_compare same
          rw [same] at lower upper
          exact List.cons_prefix_cons.mpr ⟨rfl, ih lower upper (List.prefix_append rest a) (List.prefix_append rest c)⟩

end Lexicographic

theorem StepPlace.cmp_of_rank {kind name other : String} {rank higher : Int} {id otherId : Nat}
    (lower : compare rank higher = .lt) : cmp ⟨kind, rank, id, name⟩ ⟨kind, higher, otherId, other⟩ = .lt := by
  simp only [cmp, Std.compare_self, lower, Ordering.eq_then, Ordering.lt_then]

/-- The characters of a label as numbers. -/
def Label.codePoints (l : Label) : List Nat := l.text.toList.map Char.toNat

theorem Label.codePoints_lt {k l : Label} (less : k.text < l.text) : k.codePoints < l.codePoints :=
  List.map_lt (fun _ _ below => below) (String.lt_iff_toList_lt.mp less)

theorem Label.text_lt_iff {k l : Label} : k.text < l.text ↔ k.codePoints < l.codePoints := by
  constructor
  · exact codePoints_lt
  · intro less
    rcases lt_trichotomy k.text l.text with below | same | above
    · exact below
    · rw [codePoints, codePoints, same] at less
      exact absurd less (lt_irrefl _)
    · exact absurd less (lt_asymm (codePoints_lt above))

namespace AnyKey

/-- Whether a key comes before another. -/
def Before (a b : AnyKey) : Prop := KeyPlace.cmp a.place b.place = .lt

/-- A key that is an ancestor of another, or this key itself. -/
structure LiesWithin (k : AnyKey) (a : Key) : Prop where
  dataset : k.toPartialKey.dataset = a.dataset
  namespaceName : k.toPartialKey.namespaceName = a.namespaceName
  path : a.path <+: k.path

theorem isWithin_iff (k : AnyKey) (a : Key) : k.isWithin a = true ↔ k.LiesWithin a := by
  rw [isWithin, Bool.and_eq_true, Bool.and_eq_true, decide_eq_true_iff, decide_eq_true_iff,
    List.isPrefixOf_iff_prefix, and_assoc]
  constructor
  · rintro ⟨dataset, namespaceName, path⟩
    exact ⟨dataset, namespaceName, path⟩
  · rintro ⟨dataset, namespaceName, path⟩
    exact ⟨dataset, namespaceName, path⟩

theorem cmp_eq_iff {a b : AnyKey} : KeyPlace.cmp a.place b.place = .eq ↔ a = b := by
  rw [Std.LawfulEqCmp.compare_eq_iff_eq]
  exact place_injective.eq_iff

instance : IsStrictTotalOrder AnyKey Before where
  irrefl k before := by
    have same : KeyPlace.cmp k.place k.place = .eq := Std.ReflCmp.compare_self
    rw [Before, same] at before
    cases before
  trans a b c first second := Std.TransCmp.lt_trans first second
  trichotomous a b notBefore notAfter := by
    rw [Before, KeyPlace.cmp_swap] at notAfter
    unfold Before at notBefore
    rw [← cmp_eq_iff]
    cases order : KeyPlace.cmp a.place b.place with
    | lt => exact absurd order notBefore
    | eq => rfl
    | gt => simp [order] at notAfter

/-- Keys in one space stand in the order of their last steps. -/
theorem before_iff_of_space {a b : AnyKey} (space : a.toPartialKey = b.toPartialKey) :
    a.Before b ↔ StepPlace.cmp a.leaf.place b.leaf.place = .lt := by
  have path : List.compareLex StepPlace.cmp (a.path.map PathElement.place) (b.path.map PathElement.place) =
      StepPlace.cmp a.leaf.place b.leaf.place := by
    rw [path_eq, path_eq, space, List.map_append, List.map_append, compareLex_append]
    simp only [List.map_cons, List.map_nil, List.compareLex_cons_cons, List.compareLex_nil_nil, Ordering.then_eq]
  rw [Before, KeyPlace.cmp, place, place]
  simp only [space, Std.compare_self, path, Ordering.eq_then]

variable {space : PartialKey}

theorem incomplete_before (identifier : Identifier) :
    (incomplete space).Before (complete (space.withIdentifier identifier)) := by
  apply (before_iff_of_space (by rfl)).mpr
  cases identifier with
  | id n => exact StepPlace.cmp_of_rank (by decide)
  | name l => exact StepPlace.cmp_of_rank (by decide)

theorem id_before_name (n : EntityId) (l : Label) :
    (complete (space.withIdentifier (.id n))).Before (complete (space.withIdentifier (.name l))) := by
  apply (before_iff_of_space (by rfl)).mpr
  exact StepPlace.cmp_of_rank (by decide)

theorem ids_before_iff {m n : EntityId} :
    (complete (space.withIdentifier (.id m))).Before (complete (space.withIdentifier (.id n))) ↔ m.value < n.value :=
  calc (complete (space.withIdentifier (.id m))).Before (complete (space.withIdentifier (.id n)))
    _ ↔ StepPlace.cmp ⟨space.kind.text, 0, m.value, ""⟩ ⟨space.kind.text, 0, n.value, ""⟩ = .lt :=
        before_iff_of_space rfl
    _ ↔ compare m.value n.value = .lt := by
        simp only [StepPlace.cmp, Std.compare_self, Ordering.eq_then, Ordering.then_eq]
    _ ↔ m.value < n.value := Nat.compare_eq_lt

theorem names_before_iff {k l : Label} :
    (complete (space.withIdentifier (.name k))).Before (complete (space.withIdentifier (.name l))) ↔
      k.codePoints < l.codePoints :=
  calc (complete (space.withIdentifier (.name k))).Before (complete (space.withIdentifier (.name l)))
    _ ↔ StepPlace.cmp ⟨space.kind.text, 1, 0, k.text⟩ ⟨space.kind.text, 1, 0, l.text⟩ = .lt :=
        before_iff_of_space rfl
    _ ↔ compare k.text l.text = .lt := by simp only [StepPlace.cmp, Std.compare_self, Ordering.eq_then]
    _ ↔ k.text < l.text := compareOfLessAndEq_eq_lt
    _ ↔ k.codePoints < l.codePoints := Label.text_lt_iff

theorem LiesWithin.refl (k : Key) : (complete k).LiesWithin k := ⟨rfl, rfl, List.prefix_rfl⟩

/-- A key lies within the one that has its place in full. -/
theorem LiesWithin.eq_of_path {k : AnyKey} {a : Key} (within : k.LiesWithin a) (same : k.path = a.path) :
    k = complete a := by
  apply place_injective
  simp only [place, within.dataset, within.namespaceName, same]
  rfl

/-- What lies below a key comes after it. -/
theorem before_of_liesWithin {k : AnyKey} {a : Key} (within : k.LiesWithin a) (proper : k ≠ complete a) :
    (complete a).Before k := by
  obtain ⟨further, path⟩ := within.path
  have below : further ≠ [] := by
    rintro rfl
    rw [List.append_nil] at path
    exact proper (within.eq_of_path path.symm)
  have longer : List.compareLex StepPlace.cmp (a.path.map PathElement.place) (k.path.map PathElement.place) = .lt := by
    rw [← path, List.map_append]
    exact compareLex_extended _ (List.map_eq_nil_iff.not.mpr below)
  have dataset : (complete a).toPartialKey.dataset = k.toPartialKey.dataset := within.dataset.symm
  have namespaceName : (complete a).toPartialKey.namespaceName = k.toPartialKey.namespaceName :=
    within.namespaceName.symm
  rw [Before, KeyPlace.cmp, place, place]
  simp only [dataset, namespaceName, Std.compare_self, Ordering.eq_then]
  exact longer

end AnyKey

/-- The keys of one kind under one parent in their order. -/
structure PartialKey.Lines (space : PartialKey) : Prop where
  incomplete (identifier : Identifier) :
    (AnyKey.incomplete space).Before (.complete (space.withIdentifier identifier))
  ids (m n : EntityId) :
    (AnyKey.complete (space.withIdentifier (.id m))).Before (.complete (space.withIdentifier (.id n))) ↔
      m.value < n.value
  idName (n : EntityId) (l : Label) :
    (AnyKey.complete (space.withIdentifier (.id n))).Before (.complete (space.withIdentifier (.name l)))
  names (k l : Label) :
    (AnyKey.complete (space.withIdentifier (.name k))).Before (.complete (space.withIdentifier (.name l))) ↔
      k.codePoints < l.codePoints

theorem PartialKey.lines (space : PartialKey) : space.Lines where
  incomplete := AnyKey.incomplete_before
  ids _ _ := AnyKey.ids_before_iff
  idName := AnyKey.id_before_name
  names _ _ := AnyKey.names_before_iff

/-- Only the key itself equals a key, in whatever way values are indexed. -/
theorem Condition.holds_equal_key_iff (name : String) (k : Key) (marks : Marks) (e : Entity) :
    (compare name .equal (.single ⟨.key k, marks⟩)).holds e = true ↔ e.Exposes name (.key k) := by
  have sought : Scalar.entry? (.key k) = some (.key k.place) := rfl
  rw [holds_compare_iff sought]
  constructor
  · intro met
    obtain ⟨x, exposed, stands⟩ := met
    rcases stands with own | across
    · cases own
      exact exposed
    · cases across
  · intro exposed
    exact ⟨.key k, exposed, Or.inl (.key k)⟩

namespace Entity

theorem exposes_key_iff (e : Entity) (k : Key) : e.Exposes keyProperty (.key k) ↔ e.key = k := by
  constructor
  · intro exposed
    generalize shown : Scalar.key k = x at exposed
    cases exposed with
    | key => exact (Scalar.key.inj shown).symm
    | element property => exact absurd rfl property
  · intro own
    exact own ▸ .key

theorem exposes_iff (e : Entity) {name : String} (property : name ≠ keyProperty) (x : Scalar) :
    e.Exposes name x ↔ ∃ shown ∈ e.visible name, shown.scalar = x := by
  constructor
  · intro exposed
    exact exposed.exists_visible property
  · intro visible
    obtain ⟨shown, member, rfl⟩ := visible
    exact .element property member

end Entity

namespace Order

/-- An order by key puts one entity before another if it puts its key there. -/
theorem precedes_by_key_iff (direction : Direction) (a b : Entity) :
    (⟨keyProperty, direction⟩ : Order).Precedes a b ↔
      match direction with
      | .ascending => (AnyKey.complete a.key).Before (.complete b.key)
      | .descending => (AnyKey.complete b.key).Before (.complete a.key) := by
  have entries (e : Entity) : e.entries keyProperty = [.key e.key.place] := if_pos rfl
  rw [precedes_iff_of_single (entries a) (entries b)]
  cases direction <;> simp [below, IndexEntry.below, IndexEntry.rank, IndexEntry.payloadBelow, AnyKey.Before] <;> rfl

end Order

namespace StructuredQuery

/-- A list of entities that goes up from key to key. -/
def Ascends (entities : List Entity) : Prop :=
  entities.Pairwise fun a b => (AnyKey.complete a.key).Before (.complete b.key)

/-- Any way to go through entities under keys of their own without going down is the way of the engine. -/
theorem eq_mergeSort_of_not_before {entities listed : List Entity} (distinct : (entities.map Entity.key).Nodup)
    (perm : listed.Perm entities)
    (rising : listed.Pairwise fun a b => ¬ (AnyKey.complete b.key).Before (.complete a.key)) :
    listed = entities.mergeSort keyOrdered := by
  have strict : Ascends (entities.mergeSort keyOrdered) := keyOrdered_strict distinct
  have permuted : listed.Perm (entities.mergeSort keyOrdered) := perm.trans (List.mergeSort_perm _ _).symm
  apply List.Perm.eq_of_pairwise ?_ rising (strict.imp fun before => asymm before) permuted
  intro a b left right notAfter notBefore
  have sameKey : AnyKey.complete a.key = .complete b.key :=
    Std.Trichotomous.trichotomous (r := AnyKey.Before) _ _ notBefore notAfter
  have stored : b ∈ entities := List.mem_mergeSort.mp right
  exact List.inj_on_of_nodup_map distinct (perm.mem_iff.mp left) stored (AnyKey.complete.inj sameKey)

end StructuredQuery

theorem createNamespace_empty : createNamespace (.text "") = createNamespace .none := rfl

namespace AnyKey

/-- Keys stand in one strict order in which only equal keys share a place and a key comes before all that lies below it;
every query first puts the entities into this order. -/
theorem strictly_ordered :
    IsStrictTotalOrder AnyKey Before ∧
      (∀ a b : AnyKey, a.place = b.place ↔ a = b) ∧
      (∀ a b : AnyKey, KeyPlace.cmp a.place b.place = .eq ↔ a = b) ∧
      (∀ dataset kind ancestors,
        PartialKey.create dataset kind (.text "") ancestors = PartialKey.create dataset kind .none ancestors) ∧
      (∀ dataset kind identifier ancestors,
        Key.create dataset kind identifier (.text "") ancestors = Key.create dataset kind identifier .none ancestors) ∧
      (∀ (k : AnyKey) (a : Key), k.LiesWithin a → k ≠ complete a → (complete a).Before k) ∧
      (∀ space : PartialKey, space.Lines) ∧
      (∀ k marks e,
        (Condition.compare keyProperty .equal (.single ⟨.key k, marks⟩)).holds e = true ↔ e.key = k) ∧
      (∀ name k marks e, name ≠ keyProperty →
        ((Condition.compare name .equal (.single ⟨.key k, marks⟩)).holds e = true ↔
          ∃ x ∈ e.visible name, x.scalar = .key k)) ∧
      (∀ direction a b, (⟨keyProperty, direction⟩ : Order).Precedes a b ↔
        match direction with
        | .ascending => (complete a.key).Before (complete b.key)
        | .descending => (complete b.key).Before (complete a.key)) ∧
      ∀ limits requests handle? stored, (Store.reached limits requests).seen? handle? = some stored →
        ∃ byKey, byKey.Perm (stored.map Prod.snd) ∧ StructuredQuery.Ascends byKey ∧
          (∀ listed : List Entity, listed.Perm (stored.map Prod.snd) →
            listed.Pairwise (fun a b => ¬ (complete b.key).Before (complete a.key)) → listed = byKey) ∧
          ∀ q : StructuredQuery,
            q.select (stored.map Prod.snd) = q.orders.foldr Order.sort (byKey.filter q.selects) := by
  refine ⟨inferInstance, fun _ _ => place_injective.eq_iff, fun _ _ => cmp_eq_iff, ?_, ?_, ?_, PartialKey.lines,
    ?_, ?_, Order.precedes_by_key_iff, ?_⟩
  · intro dataset kind ancestors
    rw [PartialKey.create, PartialKey.create, createNamespace_empty]
  · intro dataset kind identifier ancestors
    rw [Key.create, Key.create, PartialKey.create, PartialKey.create, createNamespace_empty]
  · intro k a within proper
    exact before_of_liesWithin within proper
  · intro k marks e
    rw [Condition.holds_equal_key_iff, e.exposes_key_iff]
  · intro name k marks e property
    rw [Condition.holds_equal_key_iff, e.exposes_iff property]
  · intro limits requests handle? stored seen
    have filed := Store.seesFiled_reached limits requests handle? stored seen
    refine ⟨(stored.map Prod.snd).mergeSort StructuredQuery.keyOrdered, List.mergeSort_perm _ _, ?_, ?_, ?_⟩
    · exact StructuredQuery.keyOrdered_strict filed.keys_nodup
    · intro listed perm rising
      exact StructuredQuery.eq_mergeSort_of_not_before filed.keys_nodup perm rising
    · intro q
      exact q.select_eq _

/-- A task stands behind its space and ahead of what lies below it.  Two tasks that are stored the other way round are
found in the order of their numbers. -/
theorem strictly_ordered_of_tasks :
    let space : PartialKey := ⟨⟨"app", by decide⟩, none, [], ⟨"Task", by decide⟩⟩
    let two := space.withIdentifier (.id ⟨2, by decide⟩)
    let ten := space.withIdentifier (.id ⟨10, by decide⟩)
    let child := (two.childSpace ⟨"Note", by decide⟩).withIdentifier (.name ⟨"10", by decide⟩)
    let bare (k : Key) : Entity := ⟨.stored, k, []⟩
    let requests : List Request :=
      [.commit [⟨.put, .entity (.keyed (bare ten))⟩, ⟨.put, .entity (.keyed (bare two))⟩] none]
    let q : StructuredQuery := ⟨.full, none, none, none, [], [], [], none, 0⟩
    (incomplete space).Before (complete two) ∧ (complete two).Before (complete ten) ∧
      (complete two).Before (complete child) ∧
      (Store.reached .standard requests).seen? none = some [(ten, bare ten), (two, bare two)] ∧
      q.select [bare ten, bare two] = [bare two, bare ten] := by
  intro space two ten child bare requests q
  obtain ⟨-, -, -, -, -, ancestors, siblings, -, -, -, engine⟩ := strictly_ordered
  have risen : (complete two).Before (complete ten) := ((siblings space).ids _ _).mpr (by decide)
  have within : (complete child).LiesWithin two := (isWithin_iff _ _).mp (by decide)
  have seen : (Store.reached .standard requests).seen? none = some [(ten, bare ten), (two, bare two)] := by
    subst requests bare ten two space
    rfl
  obtain ⟨byKey, -, -, only, found⟩ := engine .standard requests none _ seen
  have listed : [bare two, bare ten] = byKey := by
    apply only _ (List.Perm.swap _ _ _)
    exact List.pairwise_pair.mpr (asymm risen)
  refine ⟨(siblings space).incomplete _, risen, ancestors _ _ within (by decide), seen, ?_⟩
  calc q.select [bare ten, bare two]
    _ = byKey.filter q.selects := found q
    _ = [bare two, bare ten].filter q.selects := by rw [listed]
    _ = [bare two, bare ten] := rfl

end AnyKey

end EntityStore
