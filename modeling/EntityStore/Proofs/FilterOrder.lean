import EntityStore.Proofs.Comparison
import EntityStore.Proofs.Invisibility
import Mathlib.Data.List.Pairwise

set_option autoImplicit false

namespace EntityStore

/-- The sides of a value on one of which each entry of its rank is, from below to above. -/
def Comparison.sides : List Comparison := [.less, .equal, .greater]

namespace IndexEntry

/-- Entries with payloads of one type. -/
inductive SameType : IndexEntry → IndexEntry → Prop where
  | null : SameType .null .null
  | integer (m n : Int) : SameType (.integer m) (.integer n)
  | boolean (b c : Bool) : SameType (.boolean b) (.boolean c)
  | bytes (b c : List UInt8) : SameType (.bytes b) (.bytes c)
  | text (s t : String) : SameType (.text s) (.text t)
  | double (x y : Double) : SameType (.double x) (.double y)
  | key (p q : KeyPlace) : SameType (.key p) (.key q)

/-- A total order of comparable entries up to ties.  It goes by rank, and within a rank by payload, where payloads are
of one type; those entries tie that have one rank and equal payloads. -/
structure RanksFirst (below : IndexEntry → IndexEntry → Bool) : Prop where
  total : ∀ a b, below b a = false ∨ below a b = false
  trans : ∀ a b c : IndexEntry, b.isComparable = true → below b a = false → below c b = false →
    below c a = false
  ranks : ∀ a b : IndexEntry, a.rank ≠ b.rank → below a b = decide (a.rank < b.rank)
  payloads : ∀ a b : IndexEntry, a.rank = b.rank → a.SameType b ∧ below a b = a.payloadBelow b
  ties : ∀ a b : IndexEntry, a.isComparable = true → b.isComparable = true →
    (below a b = false ∧ below b a = false ↔ a.rank = b.rank ∧ a.same b = true)

variable {a b : IndexEntry}

theorem sameType_of_rank (rank : a.rank = b.rank) : a.SameType b := by
  cases a <;> cases b <;> first | constructor | cases rank

/-- The payloads of entries of different ranks do not matter. -/
theorem below_of_rank_ne (ranks : a.rank ≠ b.rank) : a.below b = decide (a.rank < b.rank) := by
  rw [Bool.eq_iff_iff, below_iff, decide_eq_true_iff]
  exact or_iff_left fun both => ranks both.1

theorem below_of_rank (rank : a.rank = b.rank) : a.below b = a.payloadBelow b := by
  rw [Bool.eq_iff_iff, below_iff]
  constructor
  · rintro (lower | ⟨-, payload⟩)
    · omega
    · exact payload
  · exact fun payload => Or.inr ⟨rank, payload⟩

theorem not_payloadBelow_of_same (equal : a.same b = true) : a.payloadBelow b = false ∧ b.payloadBelow a = false := by
  cases a <;> cases b <;> simp only [same, payloadBelow, decide_eq_true_eq, Bool.false_eq_true] at equal ⊢
  case null.null => exact ⟨trivial, trivial⟩
  case integer.integer => simp [equal]
  case boolean.boolean => simp [equal]
  case bytes.bytes => simp [equal, List.lt_irrefl]
  case text.text => simp [equal]
  case double.double =>
    simp only [Double.same, Bool.and_eq_true, beq_iff_eq] at equal
    simp [Double.below, equal.2]
  case key.key =>
    subst equal
    simp [Std.ReflCmp.compare_self]

/-- Between comparable payloads of one type one of the three relations holds. -/
theorem payload_trichotomy (rank : a.rank = b.rank) (left : a.isComparable = true) (right : b.isComparable = true) :
    a.payloadBelow b = true ∨ a.same b = true ∨ b.payloadBelow a = true := by
  cases sameType_of_rank rank with
  | null => exact Or.inr (Or.inl rfl)
  | integer m n =>
      simp only [payloadBelow, same, decide_eq_true_eq]
      omega
  | boolean b c => cases b <;> cases c <;> simp [payloadBelow, same]
  | bytes b c =>
      simp only [payloadBelow, same, decide_eq_true_eq]
      exact Std.lt_trichotomy b c
  | text s t =>
      simp only [payloadBelow, same, decide_eq_true_eq]
      exact Std.lt_trichotomy s t
  | double x y =>
      simp only [isComparable] at left right
      simp only [payloadBelow, same, Double.below, Double.same, left, right, Bool.true_and, decide_eq_true_eq,
        beq_iff_eq]
      omega
  | key p q =>
      simp only [payloadBelow, same, decide_eq_true_eq]
      rw [KeyPlace.cmp_swap p q]
      cases order : KeyPlace.cmp p q with
      | lt => exact Or.inl rfl
      | eq => exact Or.inr (Or.inl (Std.LawfulEqCmp.eq_of_compare order))
      | gt => exact Or.inr (Or.inr rfl)

/-- Comparable entries of which neither is below the other have one rank and equal payloads. -/
theorem tied_iff (left : a.isComparable = true) (right : b.isComparable = true) :
    a.below b = false ∧ b.below a = false ↔ a.rank = b.rank ∧ a.same b = true := by
  by_cases rank : a.rank = b.rank
  · rw [below_of_rank rank, below_of_rank rank.symm]
    constructor
    · rintro ⟨notBelow, notAbove⟩
      have side := payload_trichotomy rank left right
      rw [notBelow, notAbove] at side
      exact ⟨rank, by simpa using side⟩
    · exact fun tied => not_payloadBelow_of_same tied.2
  · rw [below_of_rank_ne rank, below_of_rank_ne (Ne.symm rank), decide_eq_false_iff_not, decide_eq_false_iff_not]
    constructor
    · rintro ⟨notBelow, notAbove⟩
      omega
    · exact fun tied => absurd tied.1 rank

theorem ranksFirst_below : RanksFirst below where
  total a b := by
    cases lower : b.below a with
    | false => exact Or.inl rfl
    | true => exact Or.inr (below_asymm lower)
  trans _ _ _ := not_below_trans
  ranks _ _ := below_of_rank_ne
  payloads _ _ rank := ⟨sameType_of_rank rank, below_of_rank rank⟩
  ties _ _ := tied_iff

/-- What is below an entry is below everything that is not below the entry. -/
theorem below_of_not_below {c : IndexEntry} (comparable : b.isComparable = true) (lower : a.below c = true)
    (upper : b.below c = false) : a.below b = true := by
  refine Bool.of_not_eq_false fun other => ?_
  rw [not_below_trans comparable upper other] at lower
  cases lower

/-- What is not above an entry is below everything that the entry is below. -/
theorem below_of_not_above {c : IndexEntry} (comparable : a.isComparable = true) (lower : c.below a = false)
    (upper : c.below b = true) : a.below b = true := by
  refine Bool.of_not_eq_false fun other => ?_
  rw [not_below_trans comparable other lower] at upper
  cases upper

theorem unrelated_of_not_comparable (missing : a.isComparable = false ∨ b.isComparable = false) :
    a.payloadBelow b = false ∧ a.same b = false ∧ b.payloadBelow a = false := by
  cases a <;> cases b <;>
    simp only [payloadBelow, same, and_self, isComparable, or_self, Bool.true_eq_false] at missing ⊢
  case double.double x y =>
    simp only [Bool.not_eq_false'] at missing
    rcases missing with nan | nan <;> simp [Double.below, Double.same, nan]

end IndexEntry

namespace Comparison

variable {a b : IndexEntry}

theorem holds_of_not_comparable (missing : a.isComparable = false ∨ b.isComparable = false) (r : Comparison) :
    r.holds a b = false := by
  obtain ⟨notBelow, notSame, notAbove⟩ := IndexEntry.unrelated_of_not_comparable missing
  cases r <;> simp [holds, notBelow, notSame, notAbove]

theorem comparable_of_holds {r : Comparison} (holds : r.holds a b = true) : a.isComparable = true := by
  refine Bool.of_not_eq_false fun missing => ?_
  rw [holds_of_not_comparable (Or.inl missing)] at holds
  cases holds

/-- On its side of a value an entry is below it, tied with it or above it in the order of entries as well. -/
theorem side_below : (less.holds a b = true → a.below b = true) ∧
    (equal.holds a b = true → a.below b = false ∧ b.below a = false) ∧
    (greater.holds a b = true → b.below a = true) := by
  refine ⟨fun holds => ?_, fun holds => ?_, fun holds => ?_⟩
  · rwa [IndexEntry.below_of_rank (rank_eq_of_holds holds)]
  · have rank := rank_eq_of_holds holds
    rw [IndexEntry.below_of_rank rank, IndexEntry.below_of_rank rank.symm]
    exact IndexEntry.not_payloadBelow_of_same holds
  · rwa [IndexEntry.below_of_rank (rank_eq_of_holds holds).symm]

/-- An entry on one side of a value is below all entries on the later sides. -/
theorem below_of_sides : sides.Pairwise fun first second =>
    ∀ {a b c : IndexEntry}, first.holds a c = true → second.holds b c = true → a.below b = true := by
  simp only [sides, List.pairwise_cons, List.mem_cons, List.not_mem_nil, or_false, forall_eq_or_imp, forall_eq,
    false_implies, implies_true, List.Pairwise.nil, and_true]
  refine ⟨⟨?_, ?_⟩, ?_⟩ <;> intro a b c first second
  · exact IndexEntry.below_of_not_below (comparable_of_holds second) (side_below.1 first) (side_below.2.1 second).1
  · exact IndexEntry.below_of_not_below (comparable_of_holds second) (side_below.1 first)
      (IndexEntry.below_asymm (side_below.2.2 second))
  · exact IndexEntry.below_of_not_above (comparable_of_holds first) (side_below.2.1 first).2 (side_below.2.2 second)

/-- No entry is on two sides. -/
theorem eq_of_sides {r t : Comparison} (side : r ∈ sides) (other : t ∈ sides) (first : r.holds a b = true)
    (second : t.holds a b = true) : r = t := by
  have swap : Std.Symm fun r t : Comparison => r.holds a b = true → t.holds a b = true → r = t :=
    ⟨fun _ _ once second first => (once first second).symm⟩
  have apart : sides.Pairwise fun r t => r.holds a b = true → t.holds a b = true → r = t := by
    refine below_of_sides.imp fun below first second => ?_
    have itself := below first second
    rw [IndexEntry.below_asymm itself] at itself
    cases itself
  exact apart.forall_of_forall (fun _ _ _ _ => rfl) side other first second

/-- A comparable entry is on exactly one side of a comparable value of its rank. -/
theorem existsUnique_side (rank : a.rank = b.rank) (left : a.isComparable = true) (right : b.isComparable = true) :
    ∃! r, r ∈ sides ∧ r.holds a b = true := by
  have found : ∃ r ∈ sides, r.holds a b = true := by
    rcases IndexEntry.payload_trichotomy rank left right with lower | equal | higher
    · exact ⟨.less, by decide, lower⟩
    · exact ⟨.equal, by decide, equal⟩
    · exact ⟨.greater, by decide, higher⟩
  obtain ⟨r, side, holds⟩ := found
  exact ⟨r, ⟨side, holds⟩, fun _ also => eq_of_sides also.1 side also.2 holds⟩

end Comparison

/-- Payloads have entries of one rank if they are of one sort or their sorts have entries in common. -/
theorem Scalar.rank_eq_iff {x y : Scalar} {a b : IndexEntry} (left : x.entry? = some a) (right : y.entry? = some b) :
    a.rank = b.rank ↔ x.variant = y.variant ∨ (x.variant, y.variant) ∈ sharedEntries := by
  cases x <;> cases y <;> cases left <;> cases right <;> simp [IndexEntry.rank, variant, sharedEntries]

namespace Condition

/-- How the conditions that compare a property with a value divide the entities with a single entry for the property.
One whose entry is of the rank of the value meets exactly one of those for the sides of the value, and no other one
meets any.  A not-a-number is on no side. -/
structure Divides (property : String) (value : Value) (target : IndexEntry) (e : Entity) (x : IndexEntry) : Prop where
  ofRank : ∀ r, (compare property r value).holds e = true → x.rank = target.rank
  oneSide : x.rank = target.rank → x.isComparable = true → target.isComparable = true →
    ∃! r, r ∈ Comparison.sides ∧ (compare property r value).holds e = true
  lessOrEqual : (compare property .lessOrEqual value).holds e = true ↔
    (compare property .less value).holds e = true ∨ (compare property .equal value).holds e = true
  greaterOrEqual : (compare property .greaterOrEqual value).holds e = true ↔
    (compare property .greater value).holds e = true ∨ (compare property .equal value).holds e = true
  noSide : x.isComparable = false ∨ target.isComparable = false → ∀ r, (compare property r value).holds e = false

section

variable {property : String} {value : Value} {target x : IndexEntry} {e : Entity}

theorem holds_iff_of_single (asked : value.target? = some target) (single : e.entries property = [x])
    (r : Comparison) :
    (compare property r value).holds e = true ↔ x.rank = target.rank ∧ r.holds x target = true := by
  simp [holds, asked, single]

theorem divides_of_single (asked : value.target? = some target) (single : e.entries property = [x]) :
    Divides property value target e x := by
  have met := holds_iff_of_single asked single
  refine ⟨fun r holds => ((met r).mp holds).1, ?_, ?_, ?_, ?_⟩
  · intro rank left right
    obtain ⟨r, ⟨side, holds⟩, only⟩ := Comparison.existsUnique_side rank left right
    refine ⟨r, ⟨side, (met r).mpr ⟨rank, holds⟩⟩, ?_⟩
    rintro other ⟨otherSide, otherHolds⟩
    exact only other ⟨otherSide, ((met other).mp otherHolds).2⟩
  · simp only [met, Comparison.holds, Bool.or_eq_true, and_or_left]
  · simp only [met, Comparison.holds, Bool.or_eq_true, and_or_left]
  · intro missing r
    refine Bool.eq_false_iff.mpr fun holds => ?_
    rw [met, Comparison.holds_of_not_comparable missing] at holds
    cases holds.2

end

end Condition

/-- Entities with single entries are sorted by these. -/
theorem Order.sort_pairwise_of_single {o : Order} {entities : List Entity}
    (single : ∀ e ∈ entities, ∃ x, e.entries o.property = [x] ∧ x.isComparable = true) :
    (o.sort entities).Pairwise fun a b => ∃ x y, a.entries o.property = [x] ∧ b.entries o.property = [y] ∧
      o.below y x = false := by
  have comparable : ∀ e ∈ entities, ∀ x ∈ e.entries o.property, x.isComparable = true := by
    intro e member x shown
    obtain ⟨entry, only, compares⟩ := single e member
    rw [only] at shown
    rwa [List.mem_singleton.mp shown]
  have perm := o.sort_perm entities fun e member => by
    obtain ⟨entry, only, -⟩ := single e member
    exact List.isEmpty_eq_false_iff.mpr (only ▸ List.cons_ne_nil entry [])
  have unordered : entities.Pairwise fun _ _ => True := List.pairwise_of_forall fun _ _ => trivial
  have sorted := sort_pairwise comparable unordered
  refine sorted.imp_of_mem fun {a b} left right ordered => ?_
  obtain ⟨x, ofA, -⟩ := single a (perm.mem_iff.mp left)
  obtain ⟨y, ofB, -⟩ := single b (perm.mem_iff.mp right)
  rw [precedes_iff_of_single ofA ofB, precedes_iff_of_single ofB ofA] at ordered
  refine ⟨x, y, ofA, ofB, ?_⟩
  rcases ordered with lower | ⟨notLower, -⟩
  · exact o.below_asymm lower
  · exact Bool.eq_false_iff.mpr notLower

/-- Whether a row is that of a stored entity that meets a condition. -/
def Row.Meets (stored : Bindings Key Entity) (r : Row) (c : Condition) : Prop :=
  ∃ e, stored.at? r.origin = some e ∧ c.holds e = true

/-- All rows of entities that meet one condition come before all rows of entities that meet another one. -/
def Condition.MetBefore (stored : Bindings Key Entity) (rows : List Row) (first second : Condition) : Prop :=
  ∀ (i j : Nat) (r s : Row), rows[i]? = some r → rows[j]? = some s → r.Meets stored first → s.Meets stored second →
    i < j

theorem ProjectedRow.firstPerGroup_sublist (objects : Place → Place) (groupBy : List String)
    (rows : List ProjectedRow) : (firstPerGroup objects groupBy rows).Sublist rows := by
  -- The rows are kept in reverse, on top of those that were kept before.
  have keeps (kept : List ProjectedRow) :
      (rows.foldl (fun kept row =>
        if kept.any fun earlier => groupBy.all (earlier.agreesOn objects row) then kept else row :: kept)
        kept).reverse.Sublist (kept.reverse ++ rows) := by
    induction rows generalizing kept with
    | nil => simp
    | cons row rest ih =>
        rw [List.foldl_cons]
        split
        · exact (ih kept).trans ((List.sublist_cons_self row rest).append_left _)
        · simpa using ih (row :: kept)
  exact keeps []

namespace StructuredQuery

theorem window_sublist (q : StructuredQuery) (rows : List Row) : (q.window rows).Sublist rows := by
  rw [window_eq]
  exact (List.take_sublist _ _).trans (List.drop_sublist _ _)

/-- The rows go through the selected entities in their order; several of them can come from one entity. -/
theorem origins_sublist (q : StructuredQuery) (selected : List Entity) :
    ∃ count : Entity → Nat,
      ((q.rows selected).map Row.origin).Sublist (selected.flatMap fun e => List.replicate (count e) e.key) := by
  have single : selected.map Entity.key = selected.flatMap fun e => List.replicate 1 e.key := List.map_eq_flatMap
  unfold rows
  split
  · refine ⟨fun _ => 1, ?_⟩
    rw [List.map_map, ← single]
    exact List.Sublist.refl _
  · have keys : (ProjectedRow.ofEntities selected q.projected).map ProjectedRow.key =
        selected.flatMap fun e => List.replicate (e.project q.projected).length e.key := by
      rw [ProjectedRow.ofEntities, List.map_flatMap]
      refine List.flatMap_congr fun e _ => List.eq_replicate_iff.mpr ⟨List.length_map .., fun k member => ?_⟩
      obtain ⟨row, projected, rfl⟩ := List.mem_map.mp member
      exact (ProjectedRow.of_project projected).1
    refine ⟨fun e => (e.project q.projected).length, ?_⟩
    rw [List.map_map, ← keys]
    refine List.Sublist.map ProjectedRow.key ?_
    split
    · exact List.Sublist.refl _
    · exact ProjectedRow.firstPerGroup_sublist _ _ _
  · refine ⟨fun _ => 1, ?_⟩
    rw [List.map_map, ← single]
    exact List.Sublist.refl _

/-- Each row is that of a selected entity. -/
theorem exists_origin (q : StructuredQuery) {selected : List Entity} {r : Row}
    (member : r ∈ q.window (q.rows selected)) : ∃ e ∈ selected, e.key = r.origin := by
  obtain ⟨count, shown⟩ := q.origins_sublist selected
  have listed := shown.subset (List.mem_map_of_mem ((q.window_sublist _).subset member))
  obtain ⟨e, present, here⟩ := List.mem_flatMap.mp listed
  exact ⟨e, present, (List.eq_of_mem_replicate here).symm⟩

/-- What holds of selected entities in their order, and of each with itself, holds of the entities of rows in their
order. -/
theorem origins_in_order (q : StructuredQuery) {selected : List Entity} {R : Entity → Entity → Prop}
    (ordered : selected.Pairwise R) (own : ∀ e ∈ selected, R e e) {i j : Nat} (le : i ≤ j) {r s : Row}
    (first : (q.window (q.rows selected))[i]? = some r) (second : (q.window (q.rows selected))[j]? = some s) :
    ∃ a ∈ selected, ∃ b ∈ selected, a.key = r.origin ∧ b.key = s.origin ∧ R a b := by
  rcases Nat.lt_or_eq_of_le le with less | rfl
  · obtain ⟨count, shown⟩ := q.origins_sublist selected
    have pairs : (selected.flatMap fun e => List.replicate (count e) e.key).Pairwise fun k l =>
        ∃ a ∈ selected, ∃ b ∈ selected, a.key = k ∧ b.key = l ∧ R a b := by
      refine List.pairwise_flatMap.mpr ⟨fun e member => ?_, ordered.imp_of_mem ?_⟩
      · exact List.pairwise_replicate.mpr (Or.inr ⟨e, member, e, member, rfl, rfl, own e member⟩)
      · intro a b left right related k ofA l ofB
        rw [List.eq_of_mem_replicate ofA, List.eq_of_mem_replicate ofB]
        exact ⟨a, left, b, right, rfl, rfl, related⟩
    have rows := List.pairwise_map.mp (pairs.sublist (((q.window_sublist _).map Row.origin).trans shown))
    obtain ⟨here, rfl⟩ := List.getElem?_eq_some_iff.mp first
    obtain ⟨there, rfl⟩ := List.getElem?_eq_some_iff.mp second
    exact List.pairwise_iff_getElem.mp rows i j here there less
  · obtain rfl := Option.some.inj (first.symm.trans second)
    obtain ⟨e, member, key⟩ := q.exists_origin (List.mem_of_getElem? first)
    exact ⟨e, member, e, member, key, key, own e member⟩

/-- A query that orders by a property with single entries first selects the entities in the order of these entries. -/
theorem select_ascends {q : StructuredQuery} {property : String} {rest : List Order}
    (orders : q.orders = ⟨property, .ascending⟩ :: rest) {entities : List Entity}
    (single : ∀ e ∈ entities, q.Describes e → ∃ x, e.entries property = [x] ∧ x.isComparable = true) :
    (q.select entities).Pairwise fun a b => ∃ x y, a.entries property = [x] ∧ b.entries property = [y] ∧
      y.below x = false := by
  have described : ∀ e ∈ (entities.mergeSort keyOrdered).filter q.selects, e ∈ entities ∧ q.Describes e := by
    intro e member
    obtain ⟨sorted, selected⟩ := List.mem_filter.mp member
    exact ⟨List.mem_mergeSort.mp sorted, (q.selects_iff e).mp selected⟩
  have perm := Order.foldr_sort_perm rest ((entities.mergeSort keyOrdered).filter q.selects) fun o asked e member =>
    List.isEmpty_eq_false_iff.mpr ((described e member).2.ordered o (orders ▸ List.mem_cons_of_mem _ asked))
  rw [select_eq, orders, List.foldr_cons]
  refine Order.sort_pairwise_of_single (o := ⟨property, .ascending⟩) fun e member => ?_
  obtain ⟨present, describes⟩ := described e (perm.mem_iff.mp member)
  exact single e present describes

/-- The rows in ascending order meet the conditions for the sides of a value one after the other. -/
theorem sides_in_order {q : StructuredQuery} {property : String} {rest : List Order}
    (orders : q.orders = ⟨property, .ascending⟩ :: rest) {stored : Bindings Key Entity} (filed : Filed stored)
    (single : ∀ e ∈ stored.map Prod.snd, q.Describes e → ∃ x, e.entries property = [x] ∧ x.isComparable = true)
    {value : Value} {target : IndexEntry} (asked : value.target? = some target) :
    Comparison.sides.Pairwise fun first second =>
      Condition.MetBefore stored (q.window (q.rows (q.select (stored.map Prod.snd)))) (.compare property first value)
        (.compare property second value) := by
  have ascends := q.select_ascends orders single
  have own : ∀ e ∈ q.select (stored.map Prod.snd), ∃ x y, e.entries property = [x] ∧ e.entries property = [y] ∧
      y.below x = false := by
    intro e member
    obtain ⟨present, selected⟩ := (q.mem_select _ e).mp member
    obtain ⟨x, only, -⟩ := single e present ((q.selects_iff e).mp selected)
    exact ⟨x, x, only, only, Order.below_irrefl ⟨property, .ascending⟩ x⟩
  have stands : ∀ {e k f}, e ∈ q.select (stored.map Prod.snd) → e.key = k → stored.at? k = some f → f = e := by
    rintro e _ f member rfl found
    rw [((q.mem_select_iff filed e).mp member).1] at found
    exact (Option.some.inj found).symm
  refine Comparison.below_of_sides.imp fun {first second} below => ?_
  rintro i j r s here there ⟨e, foundE, holdsE⟩ ⟨f, foundF, holdsF⟩
  refine Nat.lt_of_not_le fun le => ?_
  obtain ⟨a, ofA, b, ofB, keyA, keyB, x, y, entryA, entryB, notBelow⟩ := q.origins_in_order ascends own le there here
  obtain rfl := stands ofA keyA foundF
  obtain rfl := stands ofB keyB foundE
  obtain ⟨-, sideX⟩ := (Condition.holds_iff_of_single asked entryA second).mp holdsF
  obtain ⟨-, sideY⟩ := (Condition.holds_iff_of_single asked entryB first).mp holdsE
  have lower := below sideY sideX
  rw [notBelow] at lower
  cases lower

end StructuredQuery

namespace Store

/-- The entries of the indexes are in order by rank and then by payload, and conditions agree with it: they divide the
entities with a single entry, and the rows below a value come before those tied with it and those above it. -/
theorem conditions_follow_order :
    IndexEntry.RanksFirst IndexEntry.below ∧
      (∀ (x y : Scalar) (a b : IndexEntry), x.entry? = some a → y.entry? = some b →
        (a.rank = b.rank ↔ x.variant = y.variant ∨ (x.variant, y.variant) ∈ Scalar.sharedEntries)) ∧
      ∀ (property : String) (relation : Comparison) (value : Value),
        (Condition.compare property relation value).check = .ok () →
        ∃ target, value.target? = some target ∧
          (∀ e x, e.entries property = [x] → Condition.Divides property value target e x) ∧
          ∀ (limits : StoreLimits) (requests : List Request) (query : Query) (q : StructuredQuery) (rest : List Order)
            (handle? : Option Handle) (stored : Bindings Key Entity) (cursor : Cursor) (next : Store),
            query.toStructured = .ok q → q.orders = ⟨property, .ascending⟩ :: rest →
            (reached limits requests).seen? handle? = some stored →
            (∀ e ∈ stored.map Prod.snd, q.Describes e → ∃ x, e.entries property = [x] ∧ x.isComparable = true) →
            (reached limits requests).execute query handle? = .ok (cursor, next) →
            (∀ r ∈ cursor.rows, ∃ e, stored.at? r.origin = some e ∧ q.Describes e) ∧
              Comparison.sides.Pairwise fun first second =>
                Condition.MetBefore stored cursor.rows (.compare property first value)
                  (.compare property second value) := by
  refine ⟨IndexEntry.ranksFirst_below, fun _ _ _ _ => Scalar.rank_eq_iff, fun property relation value accepted => ?_⟩
  obtain ⟨scalar, marks, target, rfl, asked⟩ := Condition.target_of_check accepted
  refine ⟨target, asked, fun _ _ => Condition.divides_of_single asked, ?_⟩
  intro limits requests query q rest handle? stored cursor next structured orders seen single executed
  have filed := seesFiled_reached limits requests handle? stored seen
  obtain ⟨-, rfl⟩ := (execute_eq_ok_iff structured seen cursor).mp ⟨next, executed⟩
  refine ⟨fun r member => ?_, q.sides_in_order orders filed single asked⟩
  obtain ⟨e, selected, key⟩ := q.exists_origin member
  obtain ⟨found, described⟩ := (q.mem_select_iff filed e).mp selected
  exact ⟨e, key ▸ found, described⟩

/-- Of three integers the middle one is tied with the moment that is asked for; a text is of another rank. -/
theorem conditions_follow_order_of_moment :
    let key (n : EntityId) : Key := ⟨⟨⟨"app", by decide⟩, none, [], ⟨"Task", by decide⟩⟩, .id n⟩
    let holding (n : EntityId) (x : Scalar) : Entity := ⟨.stored, key n, [("due", .single ⟨x, none, none⟩)]⟩
    let above : Entity := holding ⟨1, by decide⟩ (.long ⟨1000001, by decide⟩)
    let tied : Entity := holding ⟨2, by decide⟩ (.long ⟨1000000, by decide⟩)
    let below : Entity := holding ⟨3, by decide⟩ (.long ⟨-5, by decide⟩)
    let text : Entity := holding ⟨4, by decide⟩ (.string "1000000")
    let requests : List Request :=
      [.commit ([above, tied, below, text].map fun e => ⟨.put, .entity (.keyed e)⟩) none]
    let q : StructuredQuery := ⟨.keyOnly, none, some "Task", none, [⟨"due", .ascending⟩], [], [], none, 0⟩
    let moment : Value := .ofScalar (.dateTime ⟨⟨1970, 1, 1, 0, 0, 1, 0⟩, by decide⟩)
    let s := reached .standard requests
    let rows : List Row := [.key below.key, .key tied.key, .key above.key, .key text.key]
    s.execute (.structured q) none = .ok (⟨.keyOnly, rows⟩, s) ∧
      (∃! r, r ∈ Comparison.sides ∧ (Condition.compare "due" r moment).holds tied = true) ∧
      Comparison.sides.Pairwise fun first second =>
        Condition.MetBefore s.entities rows (.compare "due" first moment) (.compare "due" second moment) := by
  intro key holding above tied below text requests q moment s rows
  have accepted : s.execute (.structured q) none = .ok (⟨.keyOnly, rows⟩, s) := by
    subst rows s q requests text below tied above holding key
    cbv
  obtain ⟨-, -, conditions⟩ := conditions_follow_order
  obtain ⟨target, asked, divides, inOrder⟩ := conditions "due" .equal moment rfl
  cases asked
  have single : ∀ e ∈ s.entities.map Prod.snd, q.Describes e → ∃ x, e.entries "due" = [x] ∧ x.isComparable = true := by
    have entities : s.entities.map Prod.snd = [above, tied, below, text] := by
      subst s requests text below tied above holding key
      cbv
    rw [entities]
    intro e member _
    simp only [List.mem_cons, List.not_mem_nil, or_false] at member
    rcases member with rfl | rfl | rfl | rfl <;> exact ⟨_, rfl, rfl⟩
  have ordered := (inOrder .standard requests (.structured q) q [] none s.entities _ _ rfl rfl rfl single accepted).2
  exact ⟨accepted, (divides tied (.integer 1000000) rfl).oneSide rfl rfl rfl, ordered⟩

end Store

end EntityStore
