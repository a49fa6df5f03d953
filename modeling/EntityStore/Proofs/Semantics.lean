import EntityStore.Proofs.Equality
import EntityStore.Proofs.Records

/-!
What a query means.  It lists the stored entities that it describes, each once, in the lexicographic order of
its orders, where keys break ties; offset and limit cut one stretch out of this list.  The engine gets there by
sorting stably, once by key and then by each order, the last one first.
-/

set_option autoImplicit false

namespace EntityStore.Sort

variable {α : Type} {le : α → α → Bool} {R : α → α → Prop}

/-- A sort that is stable keeps the relation of items that tie. -/
theorem mergeSort_stable (trans : ∀ a b c, le a b = true → le b c = true → le a c = true)
    (total : ∀ a b, (le a b || le b a) = true) {items : List α} (before : items.Pairwise R) :
    (items.mergeSort le).Pairwise fun a b => le a b = true ∧ (le b a = true → R a b) := by
  induction items with
  | nil => simp
  | cons x rest ih =>
      obtain ⟨ahead, beforeRest⟩ := List.pairwise_cons.mp before
      obtain ⟨lower, upper, sorted, restSorted, strict⟩ := List.mergeSort_cons trans total x rest
      have ordered := List.pairwise_mergeSort trans total (x :: rest)
      have later := ih beforeRest
      rw [sorted] at ordered ⊢
      rw [restSorted] at later
      obtain ⟨laterLower, laterUpper, laterAcross⟩ := List.pairwise_append.mp later
      obtain ⟨-, orderedUpper, -⟩ := List.pairwise_append.mp ordered
      refine List.pairwise_append.mpr ⟨laterLower, List.pairwise_cons.mpr ⟨?_, laterUpper⟩, ?_⟩
      · intro b member
        have fromRest : b ∈ rest.mergeSort le := by
          rw [restSorted]
          exact List.mem_append_right _ member
        exact ⟨(List.pairwise_cons.mp orderedUpper).1 b member,
          fun _ => ahead b (List.mem_mergeSort.mp fromRest)⟩
      · intro a member b other
        rcases List.mem_cons.mp other with rfl | further
        · -- The items that end up ahead of the first one are strictly below it.
          have below : le b a = false := by simpa using strict a member
          have either := total a b
          rw [below, Bool.or_false] at either
          exact ⟨either, fun tied => absurd tied (by simp [below])⟩
        · exact laterAcross a member b further

/-- It is enough that the items themselves are in order up to ties. -/
theorem mergeSort_stable_of_mem {items : List α}
    (trans : ∀ a ∈ items, ∀ b ∈ items, ∀ c ∈ items, le a b = true → le b c = true → le a c = true)
    (total : ∀ a ∈ items, ∀ b ∈ items, (le a b || le b a) = true) (before : items.Pairwise R) :
    (items.mergeSort le).Pairwise fun a b => le a b = true ∧ (le b a = true → R a b) := by
  have sorted : ((items.attach.mergeSort fun a b => le a.1 b.1).map Subtype.val) = items.mergeSort le := by
    rw [List.map_mergeSort (s := le) fun _ _ _ _ => rfl, List.attach_map_subtype_val]
  have attached : items.attach.Pairwise fun a b => R a.1 b.1 := by
    rw [← List.pairwise_map, List.attach_map_subtype_val]
    exact before
  rw [← sorted, List.pairwise_map]
  refine mergeSort_stable ?_ ?_ attached
  · intro a b c
    exact trans a.1 a.2 b.1 b.2 c.1 c.2
  · intro a b
    exact total a.1 a.2 b.1 b.2

end EntityStore.Sort

namespace EntityStore

/-- No value that is indexed is a not-a-number. -/
def Entity.IsComparable (e : Entity) : Prop :=
  ∀ property ∈ e.properties, ∀ entry ∈ property.2.entries, entry.isComparable = true

instance (e : Entity) : Decidable e.IsComparable :=
  inferInstanceAs (Decidable (∀ property ∈ e.properties, ∀ entry ∈ property.2.entries,
    entry.isComparable = true))

theorem Entity.IsComparable.entries {e : Entity} (comparable : e.IsComparable) (name : String) :
    ∀ entry ∈ e.entries name, entry.isComparable = true := by
  intro entry member
  unfold Entity.entries at member
  split at member
  · rw [List.mem_singleton.mp member]
    rfl
  · cases found : e.property? name with
    | none => simp [found] at member
    | some value =>
        simp only [found, Option.map_some, Option.getD_some] at member
        exact comparable (name, value) (Bindings.mem_of_at? found) entry member

/-- Whether one entity comes before another by some orders, the first one that tells them apart, or else by
key. -/
def ComesBefore : List Order → Entity → Entity → Prop
  | [], a, b => KeyPlace.cmp a.key.place b.key.place = .lt
  | o :: rest, a, b => o.Precedes a b ∨ ¬ o.Precedes b a ∧ ComesBefore rest a b

namespace Order

theorem Places.comparable {o : Order} {e : Entity} {entry : IndexEntry} (places : o.Places e entry)
    (comparable : e.IsComparable) : entry.isComparable = true := comparable.entries _ entry places.own

theorem Precedes.asymm {o : Order} {a b : Entity} (left : a.IsComparable) (right : b.IsComparable)
    (before : o.Precedes a b) : ¬ o.Precedes b a := by
  obtain ⟨x, y, ofA, ofB, lower⟩ := before
  rw [precedes_iff ofB ofA (ofB.comparable right) (ofA.comparable left), o.below_asymm lower]
  exact Bool.false_ne_true

/-- The entities that an order can place, each with the entry that places it. -/
def keyed (o : Order) (entities : List Entity) : List (IndexEntry × Entity) :=
  entities.filterMap (Entity.keyedBy o)

section

variable {o : Order} {entities : List Entity} {R : Entity → Entity → Prop}
  (comparable : ∀ e ∈ entities, ∀ x ∈ e.entries o.property, x.isComparable = true)
include comparable

theorem places_of_keyed {p : IndexEntry × Entity} (member : p ∈ o.keyed entities) :
    o.Places p.2 p.1 ∧ p.1.isComparable = true := by
  obtain ⟨entry, found⟩ := p
  obtain ⟨e, origin, key⟩ := List.mem_filterMap.mp member
  obtain ⟨rfl, places⟩ := places_of_keyedBy (comparable e origin) key
  exact ⟨places, comparable found origin entry places.own⟩

theorem keyed_pairwise (before : entities.Pairwise R) : (o.keyed entities).Pairwise fun p r => R p.2 r.2 := by
  refine List.pairwise_filterMap.mpr (before.imp_of_mem ?_)
  intro a b left right related p keyedA r keyedB
  obtain ⟨rfl, -⟩ := places_of_keyedBy (comparable a left) keyedA
  obtain ⟨rfl, -⟩ := places_of_keyedBy (comparable b right) keyedB
  exact related

theorem sort_eq_mergeSort :
    o.sort entities = ((o.keyed entities).mergeSort fun p r => !o.below r.1 p.1).map Prod.snd := by
  have all : (o.keyed entities).all (·.1.isComparable) = true :=
    List.all_eq_true.mpr fun _ member => (places_of_keyed comparable member).2
  obtain ⟨property, direction⟩ := o
  rw [keyed] at all ⊢
  cases direction with
  | ascending =>
      simp only [sort, Sort.ascending, all, if_true]
      rfl
  | descending =>
      simp only [sort, Sort.descending, all, if_true]
      rfl

/-- A sort by one order keeps what was before among the entities that it does not tell apart. -/
theorem sort_pairwise (before : entities.Pairwise R) :
    (o.sort entities).Pairwise fun a b => o.Precedes a b ∨ ¬ o.Precedes b a ∧ R a b := by
  rw [sort_eq_mergeSort comparable, List.pairwise_map]
  refine (Sort.mergeSort_stable_of_mem ?_ ?_ (keyed_pairwise comparable before)).imp_of_mem ?_
  · intro p _ r member t _ first second
    rw [Bool.not_eq_true'] at first second ⊢
    exact o.not_below_trans (places_of_keyed comparable member).2 first second
  · intro p _ r _
    cases lower : o.below r.1 p.1 with
    | false => rfl
    | true => simp [o.below_asymm lower]
  · rintro p r left right ⟨atLeast, tied⟩
    obtain ⟨ofLeft, leftCompares⟩ := places_of_keyed comparable (List.mem_mergeSort.mp left)
    obtain ⟨ofRight, rightCompares⟩ := places_of_keyed comparable (List.mem_mergeSort.mp right)
    rw [precedes_iff ofLeft ofRight leftCompares rightCompares,
      precedes_iff ofRight ofLeft rightCompares leftCompares]
    cases lower : o.below p.1 r.1 with
    | true => exact Or.inl rfl
    | false =>
        rw [Bool.not_eq_true'] at atLeast
        refine Or.inr ⟨by simp [atLeast], tied ?_⟩
        rw [lower]
        rfl

end

end Order

theorem ComesBefore.asymm {orders : List Order} {a b : Entity} (left : a.IsComparable) (right : b.IsComparable)
    (before : ComesBefore orders a b) : ¬ ComesBefore orders b a := by
  induction orders with
  | nil => exact KeyPlace.cmp_asymm before
  | cons o rest ih =>
      rintro (after | ⟨untold, after⟩)
      · rcases before with first | ⟨unled, -⟩
        · exact first.asymm left right after
        · exact unled after
      · rcases before with first | ⟨-, later⟩
        · exact untold first
        · exact ih later after

theorem ComesBefore.alike {orders : List Order} {a b e f : Entity} (before : ComesBefore orders a b)
    (left : a.Alike e) (right : b.Alike f) : ComesBefore orders e f := by
  induction orders with
  | nil =>
      unfold ComesBefore at before ⊢
      rwa [← left.key, ← right.key]
  | cons o rest ih =>
      rcases before with first | ⟨untold, later⟩
      · exact Or.inl (first.alike left right)
      · exact Or.inr ⟨fun after => untold (after.alike right.symm left.symm), ih later⟩

/-- Sorting by each order, the last one first, brings about the lexicographic order. -/
theorem Order.foldr_sort_pairwise (orders : List Order) {entities : List Entity}
    (comparable : ∀ e ∈ entities, e.IsComparable)
    (ordered : ∀ o ∈ orders, ∀ e ∈ entities, (e.entries o.property).isEmpty = false)
    (before : entities.Pairwise (ComesBefore [])) :
    (orders.foldr Order.sort entities).Pairwise (ComesBefore orders) := by
  induction orders with
  | nil => exact before
  | cons o rest ih =>
      obtain ⟨-, orderedLater⟩ := List.forall_mem_cons.mp ordered
      refine sort_pairwise ?_ (ih orderedLater)
      intro e member
      exact (comparable e ((foldr_sort_perm rest entities orderedLater).mem_iff.mp member)).entries o.property

/-- Whether an entity meets a condition: its key is the ancestor or lies below it, or one of its entries for
the property is of the same sort as the value and stands in the relation to it. -/
def Condition.Met (e : Entity) : Condition → Prop
  | .hasAncestor k =>
      e.key.dataset = k.dataset ∧ e.key.namespaceName = k.namespaceName ∧ k.path <+: e.key.path
  | .compare property relation value =>
      ∃ target, value.target? = some target ∧
        ∃ entry ∈ e.entries property, entry.rank = target.rank ∧ relation.holds entry target = true

theorem Condition.holds_iff (c : Condition) (e : Entity) : c.holds e = true ↔ c.Met e := by
  cases c with
  | hasAncestor k =>
      rw [holds, Key.isWithin, AnyKey.isWithin, Bool.and_eq_true, Bool.and_eq_true, decide_eq_true_iff,
        decide_eq_true_iff, List.isPrefixOf_iff_prefix, and_assoc]
      rfl
  | compare property relation value =>
      unfold holds Met
      cases asked : value.target? with
      | none => simp [asked]
      | some target => simp [asked]

theorem Condition.Met.alike {c : Condition} {e f : Entity} (met : c.Met e) (alike : e.Alike f) : c.Met f := by
  cases c with
  | hasAncestor k =>
      unfold Met at met ⊢
      rwa [← alike.key]
  | compare property relation value =>
      obtain ⟨target, asked, entry, member, rank, holds⟩ := met
      obtain ⟨other, present, each⟩ := (alike.entries property).exists_mem member
      exact ⟨target, asked, other, present, each.rank ▸ rank, each.holds_eq relation target ▸ holds⟩

/-- An entity that a query describes: it is of the namespace and of the kind, if one is named, it meets all
conditions, and all orders find something to order it by. -/
structure StructuredQuery.Describes (q : StructuredQuery) (e : Entity) : Prop where
  namespaceName : e.key.namespaceName.map Label.text = q.namespaceName.filter (· ≠ "")
  kind : ∀ kind, q.kind = some kind → e.key.kind.text = kind
  conditions : ∀ c ∈ q.conditions, c.Met e
  ordered : ∀ o ∈ q.orders, e.entries o.property ≠ []

theorem StructuredQuery.Describes.alike {q : StructuredQuery} {e f : Entity} (described : q.Describes e)
    (alike : e.Alike f) : q.Describes f where
  namespaceName := alike.key ▸ described.namespaceName
  kind := alike.key ▸ described.kind
  conditions c asked := (described.conditions c asked).alike alike
  ordered o asked := by
    intro none
    have entries := alike.entries o.property
    rw [none] at entries
    exact described.ordered o asked (List.forall₂_nil_right_iff.mp entries)

/-- The list of the stored entities that a query describes, each once, in the order for which the query asks. -/
structure StructuredQuery.Lists (q : StructuredQuery) (stored : Bindings Key Entity) (listed : List Entity) :
    Prop where
  members : ∀ e, e ∈ listed ↔ stored.at? e.key = some e ∧ q.Describes e
  distinct : listed.Nodup
  inOrder : listed.Pairwise (ComesBefore q.orders)

/-- Equal maps: the same keys, and equal entities under them. -/
def SameEntities (stored others : Bindings Key Entity) : Prop :=
  ∀ k, Option.Rel (fun e f => e.same f = true) (stored.at? k) (others.at? k)

/-- Equal rows. -/
inductive Row.Same : Row → Row → Prop where
  | entity {e f : Entity} (equal : e.same f = true) : Row.Same (.entity e) (.entity f)
  | key (k : Key) : Row.Same (.key k) (.key k)

/-- What a map holds under the key of an entity. -/
def Entity.counterpart (others : Bindings Key Entity) (e : Entity) : Entity := (others.at? e.key).getD e

namespace Entity

variable {R : Entity → Entity → Prop} {stored others : Bindings Key Entity}

theorem counterpart_of_rel (related : ∀ k, Option.Rel R (stored.at? k) (others.at? k)) {e : Entity}
    (found : stored.at? e.key = some e) :
    others.at? e.key = some (e.counterpart others) ∧ R e (e.counterpart others) := by
  have each := related e.key
  unfold Entity.counterpart
  rw [found] at each
  cases looked : others.at? e.key with
  | none =>
      rw [looked] at each
      cases each
  | some f =>
      rw [looked] at each
      cases each with
      | some here => exact ⟨rfl, here⟩

theorem exists_counterpart (related : ∀ k, Option.Rel R (stored.at? k) (others.at? k))
    (keys : ∀ e f, R e f → e.key = f.key) {f : Entity} (found : others.at? f.key = some f) :
    ∃ e, stored.at? e.key = some e ∧ e.counterpart others = f := by
  have each := related f.key
  rw [found] at each
  cases looked : stored.at? f.key with
  | none =>
      rw [looked] at each
      cases each
  | some e =>
      rw [looked] at each
      cases each with
      | some here =>
          have key := keys e f here
          refine ⟨e, by rw [key, looked], ?_⟩
          rw [Entity.counterpart, key, found, Option.getD_some]

end Entity

namespace StructuredQuery

theorem selects_iff (q : StructuredQuery) (e : Entity) : q.selects e = true ↔ q.Describes e := by
  have kinds : q.kind.all (· = e.key.kind.text) = true ↔
      ∀ kind, q.kind = some kind → e.key.kind.text = kind := by
    cases q.kind with
    | none => simp
    | some kind => simp [eq_comm]
  have parts : q.selects e = true ↔
      (e.key.namespaceName.map Label.text = q.namespaceName.filter (· ≠ "") ∧
        ∀ kind, q.kind = some kind → e.key.kind.text = kind) ∧
      (∀ c ∈ q.conditions, c.Met e) ∧ ∀ o ∈ q.orders, e.entries o.property ≠ [] := by
    simp [selects, inScope, kinds, Condition.holds_iff, and_assoc]
  rw [parts]
  constructor
  · rintro ⟨⟨namespaceName, kind⟩, conditions, ordered⟩
    exact ⟨namespaceName, kind, conditions, ordered⟩
  · rintro ⟨namespaceName, kind, conditions, ordered⟩
    exact ⟨⟨namespaceName, kind⟩, conditions, ordered⟩

/-- A query selects the stored entities that it describes. -/
theorem mem_select_iff (q : StructuredQuery) {stored : Bindings Key Entity} (filed : Filed stored) (e : Entity) :
    e ∈ q.select (stored.map Prod.snd) ↔ stored.at? e.key = some e ∧ q.Describes e := by
  rw [mem_select, filed.mem_iff, selects_iff]

/-- There is no other such list. -/
theorem Lists.unique {q : StructuredQuery} {stored : Bindings Key Entity} {listed other : List Entity}
    (comparable : ∀ e ∈ stored.map Prod.snd, e.IsComparable) (lists : q.Lists stored listed)
    (relists : q.Lists stored other) : other = listed := by
  have perm : other.Perm listed := (List.perm_ext_iff_of_nodup relists.distinct lists.distinct).mpr fun e =>
    (relists.members e).trans (lists.members e).symm
  refine List.Perm.eq_of_pairwise ?_ relists.inOrder lists.inOrder perm
  intro a b left right before after
  have compares : ∀ e, stored.at? e.key = some e → e.IsComparable := fun e found =>
    comparable e (List.mem_map_of_mem (Bindings.mem_of_at? found))
  have leftCompares := compares a ((relists.members a).mp left).1
  have rightCompares := compares b ((lists.members b).mp right).1
  exact absurd after (before.asymm leftCompares rightCompares)

/-- Where the stored entities are equal so are the lists. -/
theorem Lists.same {q : StructuredQuery} {stored others : Bindings Key Entity} {listed : List Entity}
    (lists : q.Lists stored listed) (equal : SameEntities stored others) :
    ∃ relisted, q.Lists others relisted ∧ List.Forall₂ (fun e f => e.same f = true) listed relisted := by
  have found : ∀ e ∈ listed, stored.at? e.key = some e := fun e member => ((lists.members e).mp member).1
  have alike : ∀ {e}, stored.at? e.key = some e → e.Alike (e.counterpart others) := fun found =>
    Entity.alike_of_same (Entity.counterpart_of_rel equal found).2
  refine ⟨listed.map (Entity.counterpart others), ⟨fun f => ?_, ?_, ?_⟩, ?_⟩
  · rw [List.mem_map]
    constructor
    · rintro ⟨e, member, rfl⟩
      refine ⟨?_, ((lists.members e).mp member).2.alike (alike (found e member))⟩
      rw [← (alike (found e member)).key]
      exact (Entity.counterpart_of_rel equal (found e member)).1
    · rintro ⟨there, described⟩
      obtain ⟨e, here, rfl⟩ := Entity.exists_counterpart equal (fun _ _ same => (Entity.alike_of_same same).key) there
      exact ⟨e, (lists.members e).mpr ⟨here, described.alike (alike here).symm⟩, rfl⟩
  · refine lists.distinct.map_on fun a left b right same => ?_
    have keys : a.key = b.key := by
      rw [(alike (found a left)).key, same, (alike (found b right)).key]
    have both := found a left
    rw [keys, found b right] at both
    exact (Option.some.inj both).symm
  · refine List.pairwise_map.mpr (lists.inOrder.imp_of_mem ?_)
    intro a b left right before
    exact before.alike (alike (found a left)) (alike (found b right))
  · rw [List.forall₂_map_right_iff, List.forall₂_same]
    exact fun e member => (Entity.counterpart_of_rel equal (found e member)).2

/-- What the engine selects is this list. -/
theorem lists_select (q : StructuredQuery) {stored : Bindings Key Entity} (filed : Filed stored)
    (comparable : ∀ e ∈ stored.map Prod.snd, e.IsComparable) :
    q.Lists stored (q.select (stored.map Prod.snd)) where
  members := q.mem_select_iff filed
  distinct := by
    have nodup := (List.Nodup.of_map _ filed.keys_nodup).filter q.selects
    exact (q.select_perm _).nodup_iff.mpr nodup
  inOrder := by
    let listed := (stored.map Prod.snd).mergeSort keyOrdered
    have kept : ∀ e ∈ listed.filter q.selects, e ∈ stored.map Prod.snd ∧ q.selects e = true := by
      intro e member
      obtain ⟨sorted, selected⟩ := List.mem_filter.mp member
      exact ⟨List.mem_mergeSort.mp sorted, selected⟩
    rw [select_eq]
    refine Order.foldr_sort_pairwise q.orders ?_ ?_ ?_
    · intro e member
      exact comparable e (kept e member).1
    · intro o asked e member
      exact List.isEmpty_eq_false_iff.mpr (((q.selects_iff e).mp (kept e member).2).ordered o asked)
    · exact (keyOrdered_strict filed.keys_nodup).filter q.selects

theorem window_eq (q : StructuredQuery) (rows : List Row) :
    q.window rows = (rows.drop q.offset).take (q.limit.getD rows.length) := by
  unfold window
  cases q.limit with
  | none =>
      rw [Option.getD_none, List.take_of_length_le]
      rw [List.length_drop]
      exact Nat.sub_le _ _
  | some limit => rfl

theorem rows_same (q : StructuredQuery) {first second : List Entity} (plain : q.resultType ≠ .projection)
    (equal : List.Forall₂ (fun e f => e.same f = true) first second) :
    List.Forall₂ Row.Same (q.rows first) (q.rows second) := by
  unfold rows
  split
  · rw [List.forall₂_map_left_iff, List.forall₂_map_right_iff]
    refine equal.imp fun e f same => ?_
    rw [(Entity.alike_of_same same).key]
    exact Row.Same.key f.key
  · next projected => exact absurd projected plain
  · rw [List.forall₂_map_left_iff, List.forall₂_map_right_iff]
    exact equal.imp fun _ _ same => Row.Same.entity same

theorem window_same (q : StructuredQuery) {first second : List Row} (equal : List.Forall₂ Row.Same first second) :
    List.Forall₂ Row.Same (q.window first) (q.window second) := by
  unfold window
  cases q.limit with
  | none => exact List.forall₂_drop q.offset equal
  | some limit => exact List.forall₂_take limit (List.forall₂_drop q.offset equal)

end StructuredQuery

namespace Store

/-- What is seen in a store, by transactions or without, is stored under its own keys. -/
def SeesFiled (s : Store) : Prop := ∀ handle? stored, s.seen? handle? = some stored → Filed stored

theorem seesFiled_of_perform {s : Store} (sees : s.SeesFiled) {request : Request}
    (filed : Filed (s.perform request).2.entities) : (s.perform request).2.SeesFiled := by
  intro handle? stored seen
  cases handle? with
  | none =>
      cases seen
      exact filed
  | some h =>
      obtain ⟨t, opened, rfl⟩ := Option.map_eq_some_iff.mp seen
      cases ended : request.ends h with
      | true =>
          rw [s.closed_of_perform ended] at opened
          cases opened
      | false =>
          by_cases begins : request = .beginTransaction ∧ h = handle (s.begun + 1)
          · obtain ⟨rfl, rfl⟩ := begins
            have began : (s.perform .beginTransaction).2.transactions.at? (handle (s.begun + 1)) =
                some ⟨s.entities, s.version, [], []⟩ := Bindings.at?_put_self _ _ _
            rw [began] at opened
            cases opened
            exact sees none s.entities rfl
          · rw [s.transactions_of_perform ended fun first same => begins ⟨first, same⟩] at opened
            obtain ⟨earlier, found, rfl⟩ := Option.map_eq_some_iff.mp opened
            have snapshot : s.seen? (some h) = some earlier.snapshot := by rw [seen?, found, Option.map_some]
            exact sees (some h) earlier.snapshot snapshot

theorem seesFiled_of_run {s : Store} (sound : s.Sound) (sees : s.SeesFiled) {requests : List Request}
    (staged : ∀ request ∈ requests, request.IsStaged) : (s.run requests).2.SeesFiled := by
  induction requests generalizing s with
  | nil => exact sees
  | cons request rest ih =>
      obtain ⟨stagedHere, stagedLater⟩ := List.forall_mem_cons.mp staged
      have soundNext := (s.changes_of_perform stagedHere).sound sound
      exact ih soundNext (seesFiled_of_perform sees soundNext.filed) stagedLater

theorem filed_of_seen (limits : StoreLimits) {requests : List Request}
    (staged : ∀ request ∈ requests, request.IsStaged) {handle? : Option Handle} {stored : Bindings Key Entity}
    (seen : (reached limits requests).seen? handle? = some stored) : Filed stored := by
  refine seesFiled_of_run (sound_empty limits) ?_ staged handle? stored seen
  intro handle? stored seen
  cases handle? with
  | none =>
      cases seen
      exact Filed.nil
  | some h => cases seen

/-- A query is accepted if it passes its checks, and then its rows are those of the entities that it selects. -/
theorem execute_eq_ok_iff {s : Store} {query : Query} {q : StructuredQuery} {handle? : Option Handle}
    {stored : Bindings Key Entity} {objects : Place → Place} (structured : query.toStructured = .ok q)
    (seen : s.seen? handle? = some stored) (cursor : Cursor) :
    (∃ next, s.execute query handle? objects = .ok (cursor, next)) ↔
      q.check = .ok () ∧ cursor = ⟨q.resultType, q.window (q.rows (q.select (stored.map Prod.snd)) objects)⟩ := by
  rw [execute_of_seen seen query objects, structured]
  cases checked : q.check with
  | error e => simp [answer, checked, bind, Except.bind]
  | ok _ => simp [answer, checked, bind, Except.bind, pure, Except.pure, eq_comm]

/-- The rows of an accepted query are the stretch that offset and limit cut out of the one list which the query
describes. They depend only on the entities, and are equal for equal ones. -/
theorem rows_of_list (limits : StoreLimits) {requests : List Request}
    (staged : ∀ request ∈ requests, request.IsStaged) {query : Query} {q : StructuredQuery}
    (structured : query.toStructured = .ok q) {handle? : Option Handle} {stored : Bindings Key Entity}
    (seen : (reached limits requests).seen? handle? = some stored)
    (comparable : ∀ e ∈ stored.map Prod.snd, e.IsComparable) {cursor : Cursor} {next : Store}
    (accepted : (reached limits requests).execute query handle? = .ok (cursor, next)) :
    (∃ listed, q.Lists stored listed ∧ (∀ other, q.Lists stored other → other = listed) ∧
      cursor.resultType = q.resultType ∧
      (q.resultType = .full →
        cursor.rows = ((listed.drop q.offset).take (q.limit.getD listed.length)).map .entity) ∧
      (q.resultType = .keyOnly →
        cursor.rows = ((listed.drop q.offset).take (q.limit.getD listed.length)).map fun e => .key e.key)) ∧
    ∀ otherLimits others otherHandle? otherStored, (∀ request ∈ others, request.IsStaged) →
      (reached otherLimits others).seen? otherHandle? = some otherStored →
      ((∀ k, otherStored.at? k = stored.at? k) →
        ∃ after, (reached otherLimits others).execute query otherHandle? = .ok (cursor, after)) ∧
      ((∀ e ∈ otherStored.map Prod.snd, e.IsComparable) → SameEntities stored otherStored →
        ∃ otherCursor after, (reached otherLimits others).execute query otherHandle? = .ok (otherCursor, after) ∧
          otherCursor.resultType = cursor.resultType ∧
          (q.resultType ≠ .projection → List.Forall₂ Row.Same cursor.rows otherCursor.rows)) := by
  have filed := filed_of_seen limits staged seen
  have lists := q.lists_select filed comparable
  obtain ⟨checked, rfl⟩ := (execute_eq_ok_iff structured seen cursor).mp ⟨next, accepted⟩
  refine ⟨⟨q.select (stored.map Prod.snd), lists, ?_, rfl, ?_, ?_⟩, ?_⟩
  · intro other relists
    exact lists.unique comparable relists
  · intro full
    simp only [StructuredQuery.window_eq, StructuredQuery.rows, full, List.length_map, ← List.map_drop,
      ← List.map_take]
  · intro keyOnly
    simp only [StructuredQuery.window_eq, StructuredQuery.rows, keyOnly, List.length_map, ← List.map_drop,
      ← List.map_take]
  · intro otherLimits others otherHandle? otherStored otherStaged otherSeen
    have refiled := filed_of_seen otherLimits otherStaged otherSeen
    refine ⟨fun same => ?_, fun otherComparable equal => ?_⟩
    · refine (execute_eq_ok_iff structured otherSeen _).mpr ⟨checked, ?_⟩
      rw [q.select_congr_stored filed refiled fun e _ => by rw [same]]
    · obtain ⟨relisted, relists, each⟩ := lists.same equal
      obtain rfl := (q.lists_select refiled otherComparable).unique otherComparable relists
      obtain ⟨after, executed⟩ := (execute_eq_ok_iff structured otherSeen _).mpr ⟨checked, rfl⟩
      exact ⟨_, after, executed, rfl, fun plain => q.window_same (q.rows_same plain each)⟩

theorem rows_of_list_of_two :
    let key (n : EntityId) : Key := ⟨⟨⟨"app", by decide⟩, none, [], ⟨"Task", by decide⟩⟩, .id n⟩
    let number (n : Long) : Element := ⟨.long n, ⟨none, none⟩⟩
    let middle : Entity := ⟨.stored, key ⟨1, by decide⟩, [("n", .single (number ⟨2, by decide⟩))]⟩
    let outer : Entity := ⟨.stored, key ⟨2, by decide⟩,
      [("n", .list [number ⟨1, by decide⟩, number ⟨3, by decide⟩] ⟨none, none⟩)]⟩
    let requests : List Request :=
      [.commit [⟨.put, .entity (.keyed middle)⟩, ⟨.put, .entity (.keyed outer)⟩] none]
    let q : StructuredQuery := ⟨.full, none, some "Task", none, [⟨"n", .descending⟩], [], [], some 1, 0⟩
    let s := reached .standard requests
    (∀ request ∈ requests, request.IsStaged) ∧ (∀ e ∈ s.entities.map Prod.snd, e.IsComparable) ∧
      s.execute (.structured q) none = .ok (⟨.full, [.entity outer]⟩, s) ∧
      ∃ listed, q.Lists s.entities listed ∧ (listed.take 1).map Row.entity = [.entity outer] := by
  intro key number middle outer requests q s
  have staged : ∀ request ∈ requests, request.IsStaged := by decide +revert
  have comparable : ∀ e ∈ s.entities.map Prod.snd, e.IsComparable := by decide +revert
  have accepted : s.execute (.structured q) none = .ok (⟨.full, [.entity outer]⟩, s) := by
    subst s q requests outer middle number key
    cbv
  obtain ⟨⟨listed, lists, -, -, full, -⟩, -⟩ := rows_of_list .standard staged rfl rfl comparable accepted
  exact ⟨staged, comparable, accepted, listed, lists, (full rfl).symm⟩

end Store

end EntityStore
