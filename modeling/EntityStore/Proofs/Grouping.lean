import EntityStore.Proofs.Semantics

set_option autoImplicit false

namespace EntityStore

/-- Some items of a list in their order: those to which no item before them is related. -/
inductive Firsts {α : Type} (R : α → α → Prop) : List α → List α → Prop where
  | nil : Firsts R [] []
  | kept {items firsts : List α} {x : α} (before : Firsts R items firsts)
      (new : ∀ earlier ∈ items, ¬ R earlier x) : Firsts R (items ++ [x]) (firsts ++ [x])
  | dropped {items firsts : List α} {x earlier : α} (before : Firsts R items firsts) (member : earlier ∈ items)
      (related : R earlier x) : Firsts R (items ++ [x]) firsts

namespace Firsts

variable {α : Type} {R : α → α → Prop} {items firsts : List α}

theorem sublist (selected : Firsts R items firsts) : firsts.Sublist items := by
  induction selected with
  | nil => exact List.Sublist.refl []
  | kept _ _ ih => exact ih.append_right _
  | dropped _ _ _ ih => exact ih.trans (List.sublist_append_left _ _)

theorem pairwise (selected : Firsts R items firsts) : firsts.Pairwise fun a b => ¬ R a b := by
  induction selected with
  | nil => exact List.Pairwise.nil
  | kept before new ih =>
      refine List.pairwise_append.mpr ⟨ih, List.pairwise_singleton _ _, ?_⟩
      intro earlier member last here
      rw [List.mem_singleton.mp here]
      exact new earlier (before.sublist.subset member)
  | dropped _ _ _ ih => exact ih

/-- What is kept of the start of a list is the start of what is kept. -/
theorem of_append {before after : List α} (selected : Firsts R (before ++ after) firsts) :
    ∃ kept, Firsts R before kept ∧ kept <+: firsts := by
  induction after using List.reverseRecOn generalizing firsts with
  | nil => exact ⟨firsts, by rwa [List.append_nil] at selected, List.prefix_refl _⟩
  | append_singleton after last ih =>
      rw [← List.append_assoc] at selected
      generalize whole : before ++ after ++ [last] = items at selected
      cases selected with
      | nil => simp at whole
      | kept earlier new =>
          obtain ⟨rfl, -⟩ := List.append_inj' whole rfl
          obtain ⟨kept, start, ahead⟩ := ih earlier
          exact ⟨kept, start, ahead.trans (List.prefix_append _ _)⟩
      | dropped earlier member related =>
          obtain ⟨rfl, -⟩ := List.append_inj' whole rfl
          exact ih earlier

/-- Every item is kept or related to one that is. -/
theorem covers (selected : Firsts R items firsts)
    (trans : ∀ x ∈ items, ∀ y ∈ items, ∀ z ∈ items, R x y → R y z → R x z) :
    ∀ x ∈ items, x ∈ firsts ∨ ∃ earlier ∈ firsts, R earlier x := by
  induction selected with
  | nil => exact List.forall_mem_nil _
  | @kept items firsts x before new ih =>
      have within : ∀ y ∈ items, y ∈ items ++ [x] := fun y member => List.mem_append_left _ member
      have earlier := ih fun a inA b inB c inC => trans a (within a inA) b (within b inB) c (within c inC)
      intro y member
      rcases List.mem_append.mp member with old | last
      · rcases earlier y old with here | ⟨first, present, related⟩
        · exact Or.inl (List.mem_append_left _ here)
        · exact Or.inr ⟨first, List.mem_append_left _ present, related⟩
      · exact Or.inl (List.mem_append_right _ last)
  | @dropped items firsts x other before member related ih =>
      have within : ∀ y ∈ items, y ∈ items ++ [x] := fun y member => List.mem_append_left _ member
      have earlier := ih fun a inA b inB c inC => trans a (within a inA) b (within b inB) c (within c inC)
      intro y present
      rcases List.mem_append.mp present with old | last
      · exact earlier y old
      · rw [List.mem_singleton.mp last]
        rcases earlier other member with here | ⟨first, kept, near⟩
        · exact Or.inr ⟨other, here, related⟩
        · refine Or.inr ⟨first, kept, ?_⟩
          exact trans first (within first (before.sublist.subset kept)) other (within other member) x
            (List.mem_append_right _ List.mem_cons_self) near related

/-- An item that is left out is related to one that was kept before it. -/
theorem exists_kept (selected : Firsts R items firsts)
    (trans : ∀ x ∈ items, ∀ y ∈ items, ∀ z ∈ items, R x y → R y z → R x z) {before after : List α} {x earlier : α}
    (split : items = before ++ x :: after) (member : earlier ∈ before) (related : R earlier x) :
    ∃ kept, kept <+: firsts ∧ Firsts R before kept ∧ ∃ first ∈ kept, R first x := by
  subst split
  obtain ⟨kept, start, ahead⟩ := selected.of_append
  have within : ∀ y ∈ before, y ∈ before ++ x :: after := fun y present => List.mem_append_left _ present
  refine ⟨kept, ahead, start, ?_⟩
  rcases start.covers (fun a inA b inB c inC => trans a (within a inA) b (within b inB) c (within c inC))
    earlier member with here | ⟨first, present, near⟩
  · exact ⟨earlier, here, related⟩
  · refine ⟨first, present, trans first ?_ earlier (within earlier member) x ?_ near related⟩
    · exact within first (start.sublist.subset present)
    · exact List.mem_append_right _ List.mem_cons_self

/-- Going through a list it is enough to compare each item with those that were kept. -/
theorem of_foldl {related : α → α → Bool} (items : List α)
    (decides : ∀ x ∈ items, ∀ y ∈ items, related x y = true ↔ R x y)
    (trans : ∀ x ∈ items, ∀ y ∈ items, ∀ z ∈ items, R x y → R y z → R x z) :
    Firsts R items
      (items.foldl (fun kept x => if kept.any (related · x) then kept else x :: kept) []).reverse := by
  induction items using List.reverseRecOn with
  | nil => exact Firsts.nil
  | append_singleton items x ih =>
      have within : ∀ y ∈ items, y ∈ items ++ [x] := fun y member => List.mem_append_left _ member
      have last : x ∈ items ++ [x] := List.mem_append_right _ List.mem_cons_self
      have before := ih (fun a inA b inB => decides a (within a inA) b (within b inB))
        fun a inA b inB c inC => trans a (within a inA) b (within b inB) c (within c inC)
      have covered := before.covers
        fun a inA b inB c inC => trans a (within a inA) b (within b inB) c (within c inC)
      rw [List.foldl_append, List.foldl_cons, List.foldl_nil]
      generalize items.foldl (fun kept x => if kept.any (related · x) then kept else x :: kept) [] = kept
        at before covered
      have kept_mem : ∀ y ∈ kept, y ∈ items := fun y member =>
        before.sublist.subset (List.mem_reverse.mpr member)
      by_cases met : kept.any (related · x) = true
      · rw [if_pos met]
        obtain ⟨earlier, member, same⟩ := List.any_eq_true.mp met
        have origin := kept_mem earlier member
        exact Firsts.dropped before origin ((decides earlier (within earlier origin) x last).mp same)
      · rw [if_neg met, List.reverse_cons]
        refine Firsts.kept before fun earlier member near => met ?_
        rw [List.any_eq_true]
        rcases covered earlier member with here | ⟨first, present, nearer⟩
        · exact ⟨earlier, List.mem_reverse.mp here, (decides earlier (within earlier member) x last).mpr near⟩
        · have origin := kept_mem first (List.mem_reverse.mp present)
          refine ⟨first, List.mem_reverse.mp present, (decides first (within first origin) x last).mpr ?_⟩
          exact trans first (within first origin) earlier (within earlier member) x last nearer near

end Firsts

/-- The bindings of a list of pairs bind a name as its last pair does. -/
theorem Bindings.at?_ofPairs {κ ν : Type} [DecidableEq κ] (pairs : List (κ × ν)) (name : κ) :
    (ofPairs pairs).at? name = (pairs.filter (·.1 = name)).getLast?.map Prod.snd := by
  induction pairs using List.reverseRecOn with
  | nil => rfl
  | append_singleton pairs p ih =>
      rw [ofPairs, List.foldl_append, List.foldl_cons, List.foldl_nil, at?_put, List.filter_append,
        List.getLast?_append]
      by_cases own : p.1 = name
      · simp [own]
      · simp only [own, ↓reduceIte, decide_false, Bool.false_eq_true, List.filter_cons_of_neg, not_false_eq_true,
          List.filter_nil, List.getLast?_nil, Option.none_or]
        exact ih

theorem mem_combinations {α : Type} {lists : List (List α)} {combination : List α} :
    combination ∈ combinations lists ↔ List.Forall₂ (· ∈ ·) combination lists := by
  induction lists generalizing combination with
  | nil => simp [combinations]
  | cons items rest ih =>
      rw [combinations, List.mem_flatMap, List.forall₂_cons_right_iff]
      constructor
      · rintro ⟨item, member, mapped⟩
        obtain ⟨later, found, rfl⟩ := List.mem_map.mp mapped
        exact ⟨item, later, member, ih.mp found, rfl⟩
      · rintro ⟨item, later, member, found, rfl⟩
        exact ⟨item, member, List.mem_map.mpr ⟨later, ih.mpr found, rfl⟩⟩

theorem Entity.mem_choices {e : Entity} {name : String} {c : Choice} :
    c ∈ e.choices name ↔
      c.name = name ∧ (((e.property? name).map Value.projected).getD [])[c.position]? = some c.element := by
  obtain ⟨own, position, element⟩ := c
  simp only [choices, List.mem_map, List.mem_zipIdx_iff_getElem?, Choice.mk.injEq]
  constructor
  · rintro ⟨found, looked, rfl, rfl, rfl⟩
    exact ⟨rfl, looked⟩
  · rintro ⟨rfl, looked⟩
    exact ⟨(element, position), looked, rfl, rfl, rfl⟩

namespace ProjectedRow

/-- Whether two rows agree on a property: they show equal values under its name, or a not-a-number that is the same
object. -/
inductive Agrees (objects : Place → Place) (r s : ProjectedRow) (name : String) : Prop where
  | equal {v w : Value} (left : r.entity.property? name = some v) (right : s.entity.property? name = some w)
      (same : v.same w = true)
  | shared {c d : Choice} (left : r.shown? name = some c) (right : s.shown? name = some d)
      (unequal : c.element.isNaN = true ∧ d.element.isNaN = true) (object : objects (r.source c) = objects (s.source d))

/-- Whether two rows are in one group: they agree on all of some properties.  The key is not among them. -/
def InGroup (objects : Place → Place) (names : List String) (r s : ProjectedRow) : Prop :=
  ∀ name ∈ names, name ≠ keyProperty → r.Agrees objects s name

theorem property?_entity (r : ProjectedRow) (name : String) :
    r.entity.property? name = (r.shown? name).map fun c => .single c.element := by
  rw [Entity.property?, entity, Bindings.at?_ofPairs, shown?, List.filter_map, List.getLast?_map, Option.map_map]
  rfl

variable {e f : Entity} {names : List String} {r s t : ProjectedRow} {name : String} {c d : Choice}

theorem of_project (projected : r ∈ e.project names) :
    r.key = e.key ∧
      List.Forall₂ (fun c name => c ∈ e.choices name) r.choices (names.filter (· ≠ keyProperty)) := by
  obtain ⟨choices, member, rfl⟩ := List.mem_map.mp projected
  exact ⟨rfl, List.forall₂_map_right_iff.mp (mem_combinations.mp member)⟩

theorem shown?_mem (projected : r ∈ e.project names) (shown : r.shown? name = some c) : c ∈ e.choices name := by
  obtain ⟨member, own⟩ := List.mem_filter.mp (List.mem_of_getLast? shown)
  obtain ⟨asked, -, chosen⟩ := exists_mem_of_forall₂ (of_project projected).2 member
  rw [decide_eq_true_iff, (Entity.mem_choices.mp chosen).1] at own
  exact own ▸ chosen

theorem exists_shown (projected : r ∈ e.project names) (asked : name ∈ names) (property : name ≠ keyProperty) :
    ∃ c, r.shown? name = some c := by
  have member : name ∈ names.filter (· ≠ keyProperty) := List.mem_filter.mpr ⟨asked, by simpa using property⟩
  obtain ⟨c, present, chosen⟩ := exists_mem_of_forall₂ (of_project projected).2.flip member
  have own : c ∈ r.choices.filter (·.name = name) :=
    List.mem_filter.mpr ⟨present, by simpa using (Entity.mem_choices.mp chosen).1⟩
  exact ⟨_, List.getLast?_eq_some_getLast (List.ne_nil_of_mem own)⟩

theorem shown?_keyProperty (projected : r ∈ e.project names) : r.shown? keyProperty = none := by
  have none : r.choices.filter (·.name = keyProperty) = [] := by
    refine List.filter_eq_nil_iff.mpr fun c member => ?_
    obtain ⟨asked, present, chosen⟩ := exists_mem_of_forall₂ (of_project projected).2 member
    have property := (List.mem_filter.mp present).2
    rw [← (Entity.mem_choices.mp chosen).1] at property
    simpa using property
  rw [shown?, none, List.getLast?_nil]

end ProjectedRow

/-- What a projected row shows is no nested entity. -/
theorem Element.plain_of_projected {e shown : Element} (projected : e.projected? = some shown) :
    ∀ nested, shown.scalar ≠ .entity nested := by
  unfold projected? at projected
  intro nested
  split at projected
  · cases projected
  · split at projected
    · cases projected
    · cases projected
      exact nofun
    · next unnested _ =>
        cases projected
        exact unnested nested

theorem Scalar.same_trans {a b c : Scalar} (plain : ∀ nested, a ≠ .entity nested) (first : a.same b = true)
    (second : b.same c = true) : a.same c = true := by
  cases a <;> cases b <;> simp only [Scalar.same, decide_eq_true_eq, Bool.false_eq_true] at first
  case entity.entity nested _ => exact absurd rfl (plain nested)
  case double.double x y =>
    cases c <;> simp only [Scalar.same, Bool.false_eq_true] at second ⊢
    case double z =>
      rw [Double.same_iff] at first second ⊢
      exact ⟨first.1, second.2.1, first.2.2.trans second.2.2⟩
  all_goals
    subst_vars
    exact second

theorem Value.same_single_trans {a b c : Element} (plain : ∀ nested, a.scalar ≠ .entity nested)
    (first : (single a).same (single b) = true) (second : (single b).same (single c) = true) :
    (single a).same (single c) = true := by
  obtain ⟨x, m⟩ := a
  obtain ⟨y, n⟩ := b
  obtain ⟨z, o⟩ := c
  simp only [Value.same, Element.same, Bool.and_eq_true, decide_eq_true_eq] at first second ⊢
  exact ⟨first.1.trans second.1, Scalar.same_trans plain first.2 second.2⟩

/-- A not-a-number equals nothing. -/
theorem Element.isNaN_of_same {a b : Element} (equal : (Value.single a).same (.single b) = true) :
    a.isNaN = false ∧ b.isNaN = false := by
  obtain ⟨s, m⟩ := a
  obtain ⟨t, n⟩ := b
  simp only [Value.same, Element.same, Bool.and_eq_true, decide_eq_true_eq] at equal
  obtain ⟨-, payload⟩ := equal
  cases s <;> cases t <;> simp only [Scalar.same, Bool.false_eq_true] at payload
  case double.double x y =>
    rw [Double.same_iff] at payload
    exact ⟨payload.1, payload.2.1⟩
  all_goals exact ⟨rfl, rfl⟩

theorem Entity.plain_of_choices {e : Entity} {name : String} {c : Choice} (chosen : c ∈ e.choices name) :
    ∀ nested, c.element.scalar ≠ .entity nested := by
  have looked := List.mem_of_getElem? (mem_choices.mp chosen).2
  cases found : e.property? name with
  | none => simp [found] at looked
  | some v =>
      rw [found, Option.map_some, Option.getD_some, v.projected_eq] at looked
      obtain ⟨element, -, projected⟩ := List.mem_filterMap.mp looked
      exact Element.plain_of_projected projected

namespace ProjectedRow

variable {objects : Place → Place} {r s : ProjectedRow} {name : String} {c d : Choice}

theorem agrees_iff (left : r.shown? name = some c) (right : s.shown? name = some d) :
    r.Agrees objects s name ↔ (Value.single c.element).same (.single d.element) = true ∨
      (c.element.isNaN = true ∧ d.element.isNaN = true) ∧ objects (r.source c) = objects (s.source d) := by
  constructor
  · rintro (⟨first, second, same⟩ | ⟨first, second, unequal, object⟩)
    · rw [property?_entity, left] at first
      rw [property?_entity, right] at second
      cases first
      cases second
      exact Or.inl same
    · cases left.symm.trans first
      cases right.symm.trans second
      exact Or.inr ⟨unequal, object⟩
  · rintro (same | ⟨unequal, object⟩)
    · refine Agrees.equal ?_ ?_ same
      · rw [property?_entity, left, Option.map_some]
      · rw [property?_entity, right, Option.map_some]
    · exact Agrees.shared left right unequal object

theorem agreesOn_iff (left : r.shown? name = some c) (right : s.shown? name = some d) :
    r.agreesOn objects s name = true ↔ r.Agrees objects s name := by
  rw [agrees_iff left right]
  simp [agreesOn, sharesNaN, left, right, Value.same]

variable {entities : List Entity} {names : List String}

theorem exists_shown_of_mem (member : r ∈ ofEntities entities names) (asked : name ∈ names)
    (property : name ≠ keyProperty) :
    ∃ c, r.shown? name = some c ∧ ∀ nested, c.element.scalar ≠ .entity nested := by
  obtain ⟨e, -, projected⟩ := List.mem_flatMap.mp member
  obtain ⟨c, shown⟩ := exists_shown projected asked property
  exact ⟨c, shown, Entity.plain_of_choices (shown?_mem projected shown)⟩

theorem Agrees.trans (asked : name ∈ names) (property : name ≠ keyProperty) {t : ProjectedRow}
    (ofR : r ∈ ofEntities entities names) (ofS : s ∈ ofEntities entities names)
    (ofT : t ∈ ofEntities entities names) (first : r.Agrees objects s name) (second : s.Agrees objects t name) :
    r.Agrees objects t name := by
  obtain ⟨c, shown, plain⟩ := exists_shown_of_mem ofR asked property
  obtain ⟨d, middle, -⟩ := exists_shown_of_mem ofS asked property
  obtain ⟨x, last, -⟩ := exists_shown_of_mem ofT asked property
  rw [agrees_iff shown middle] at first
  rw [agrees_iff middle last] at second
  rw [agrees_iff shown last]
  -- The element in the middle is a not-a-number or not, so both agree in the same way.
  rcases first with same | ⟨unequal, object⟩ <;> rcases second with equal | ⟨apart, further⟩
  · exact Or.inl (Value.same_single_trans plain same equal)
  · exact absurd apart.1 (Bool.eq_false_iff.mp (Element.isNaN_of_same same).2)
  · exact absurd unequal.2 (Bool.eq_false_iff.mp (Element.isNaN_of_same equal).1)
  · exact Or.inr ⟨⟨unequal.1, apart.2⟩, object.trans further⟩

/-- What is kept when the rows of a projection are grouped by projected names. -/
theorem firsts_firstPerGroup {groupBy : List String} (asked : ∀ name ∈ groupBy, name ∈ names) :
    (∀ r ∈ ofEntities entities names, ∀ s ∈ ofEntities entities names, ∀ t ∈ ofEntities entities names,
      InGroup objects groupBy r s → InGroup objects groupBy s t → InGroup objects groupBy r t) ∧
    Firsts (InGroup objects groupBy) (ofEntities entities names)
      (firstPerGroup objects groupBy (ofEntities entities names)) := by
  have trans : ∀ r ∈ ofEntities entities names, ∀ s ∈ ofEntities entities names,
      ∀ t ∈ ofEntities entities names,
      InGroup objects groupBy r s → InGroup objects groupBy s t → InGroup objects groupBy r t :=
    fun r ofR s ofS t ofT first second name member property =>
      Agrees.trans (asked name member) property ofR ofS ofT (first name member property)
        (second name member property)
  refine ⟨trans, Firsts.of_foldl _ ?_ trans⟩
  intro r ofR s ofS
  rw [List.all_eq_true]
  constructor
  · intro agree name member property
    obtain ⟨c, shown, -⟩ := exists_shown_of_mem ofR (asked name member) property
    obtain ⟨d, other, -⟩ := exists_shown_of_mem ofS (asked name member) property
    exact (agreesOn_iff shown other).mp (agree name member)
  · intro grouped name member
    by_cases property : name = keyProperty
    · obtain ⟨e, -, ofE⟩ := List.mem_flatMap.mp ofR
      obtain ⟨f, -, ofF⟩ := List.mem_flatMap.mp ofS
      rw [property, agreesOn, shown?_keyProperty ofE, shown?_keyProperty ofF]
    · obtain ⟨c, shown, -⟩ := exists_shown_of_mem ofR (asked name member) property
      obtain ⟨d, other, -⟩ := exists_shown_of_mem ofS (asked name member) property
      exact (agreesOn_iff shown other).mpr (grouped name member property)

end ProjectedRow

namespace StructuredQuery

/-- The query for all rows before they are grouped. -/
def ungrouped (q : StructuredQuery) : StructuredQuery := { q with groupBy := [], limit := none, offset := 0 }

theorem asked_of_check {q : StructuredQuery} (checked : q.check = .ok ()) :
    q.ungrouped.check = .ok () ∧ ∀ name ∈ q.groupBy, name ∈ q.projected := by
  unfold check at checked ⊢
  have same : q.ungrouped.conditions = q.conditions := rfl
  rw [same]
  cases conditions : q.conditions.forM Condition.check with
  | error e => simp [conditions, bind, Except.bind] at checked
  | ok _ =>
      refine ⟨rfl, ?_⟩
      simp only [conditions, bind, Except.bind] at checked
      split at checked
      · cases checked
      · split at checked
        · cases checked
        · next found =>
            intro name member
            simpa using List.find?_eq_none.mp found name member

theorem rows_of_projection {q : StructuredQuery} (projects : q.resultType = .projection) (selected : List Entity)
    (objects : Place → Place) :
    q.ungrouped.rows selected objects = (ProjectedRow.ofEntities selected q.projected).map ProjectedRow.row ∧
      (q.groupBy ≠ [] → q.rows selected objects =
        (ProjectedRow.firstPerGroup objects q.groupBy (ProjectedRow.ofEntities selected q.projected)).map
          ProjectedRow.row) := by
  have ungrouped : q.ungrouped.resultType = .projection := projects
  refine ⟨?_, fun groups => ?_⟩
  · unfold rows
    rw [ungrouped]
    rfl
  · unfold rows
    rw [projects]
    simp only [List.isEmpty_eq_false_iff.mpr groups, Bool.false_eq_true, ↓reduceIte]

end StructuredQuery

namespace Store

/-- A query that groups the rows of a projection keeps the first row of each group.  Rows are in one group if they
agree on all properties by which it groups; the key is none of them. -/
theorem grouped_rows {s : Store} (objects : Place → Place) {q : StructuredQuery} (projects : q.resultType = .projection)
    (groups : q.groupBy ≠ []) {handle? : Option Handle} {stored : Bindings Key Entity}
    (seen : s.seen? handle? = some stored) {cursor : Cursor} {next : Store}
    (accepted : s.execute (.structured q) handle? objects = .ok (cursor, next)) :
    let rows := ProjectedRow.ofEntities (q.select (stored.map Prod.snd)) q.projected
    let firsts := ProjectedRow.firstPerGroup objects q.groupBy rows
    (∃ after, s.execute (.structured q.ungrouped) handle? objects =
        .ok (⟨.projection, rows.map ProjectedRow.row⟩, after)) ∧
      cursor = ⟨.projection, q.window (firsts.map ProjectedRow.row)⟩ ∧
      Firsts (ProjectedRow.InGroup objects q.groupBy) rows firsts ∧
      (firsts.Pairwise fun r s => ¬ ProjectedRow.InGroup objects q.groupBy r s) ∧
      ∀ before r after, rows = before ++ r :: after →
        (∃ earlier ∈ before, ProjectedRow.InGroup objects q.groupBy earlier r) →
        ∃ kept, kept <+: firsts ∧ Firsts (ProjectedRow.InGroup objects q.groupBy) before kept ∧
          ∃ earlier ∈ kept, ProjectedRow.InGroup objects q.groupBy earlier r := by
  intro rows firsts
  obtain ⟨checked, rfl⟩ := (execute_eq_ok_iff rfl seen cursor).mp ⟨next, accepted⟩
  obtain ⟨ungrouped, asked⟩ := StructuredQuery.asked_of_check checked
  obtain ⟨allRows, groupedRows⟩ :=
    StructuredQuery.rows_of_projection projects (q.select (stored.map Prod.snd)) objects
  obtain ⟨trans, selected⟩ : _ ∧ Firsts (ProjectedRow.InGroup objects q.groupBy) rows firsts :=
    ProjectedRow.firsts_firstPerGroup asked
  refine ⟨?_, ?_, selected, selected.pairwise, ?_⟩
  · refine (execute_eq_ok_iff (q := q.ungrouped) rfl seen _).mpr ⟨ungrouped, ?_⟩
    rw [← allRows]
    exact congrArg (Cursor.mk · _) projects.symm
  · rw [groupedRows groups, projects]
  · rintro before r after split ⟨earlier, member, related⟩
    exact selected.exists_kept trans split member related

/-- Two entities have a place in common, and one not-a-number is an object of both.  Another one in the second entity
is in a group of its own, although its row shows the same. -/
theorem grouped_rows_of_places :
    let key (n : EntityId) : Key := ⟨⟨⟨"app", by decide⟩, none, [], ⟨"Task", by decide⟩⟩, .id n⟩
    let text (s : String) : Element := ⟨.string s, ⟨none, none⟩⟩
    let unknown : Element := ⟨.double Double.nan, ⟨none, none⟩⟩
    let entity (n : EntityId) (places : List Element) : Entity :=
      ⟨.stored, key n, [("place", .list places ⟨none, none⟩), ("tag", .list [text "a", text "b"] ⟨none, none⟩)]⟩
    let requests : List Request :=
      [.commit [⟨.put, .entity (.keyed (entity ⟨1, by decide⟩ [text "Oslo", unknown]))⟩,
        ⟨.put, .entity (.keyed (entity ⟨2, by decide⟩ [unknown, text "Oslo", unknown, text "Bergen"]))⟩] none]
    let objects (place : Place) : Place :=
      if place = ⟨key ⟨2, by decide⟩, "place", 0⟩ then ⟨key ⟨1, by decide⟩, "place", 1⟩ else place
    let q : StructuredQuery :=
      ⟨.projection, none, none, none, [], [⟨"place", false⟩, ⟨"tag", false⟩], ["place"], none, 0⟩
    let s := reached .standard requests
    let row (n : EntityId) (place : Element) : Row :=
      .entity ⟨.projected, key n, [("place", .single place), ("tag", .single (text "a"))]⟩
    let firsts := ProjectedRow.firstPerGroup objects ["place"]
      (ProjectedRow.ofEntities (q.select (s.entities.map Prod.snd)) q.projected)
    s.execute (.structured q) none objects = .ok (⟨.projection, firsts.map ProjectedRow.row⟩, s) ∧
      firsts.map ProjectedRow.row = [row ⟨1, by decide⟩ (text "Oslo"), row ⟨1, by decide⟩ unknown,
        row ⟨2, by decide⟩ unknown, row ⟨2, by decide⟩ (text "Bergen")] ∧
      (firsts.Pairwise fun r s => ¬ ProjectedRow.InGroup objects ["place"] r s) := by
  intro key text unknown entity requests objects q s row firsts
  have accepted : s.execute (.structured q) none objects = .ok (⟨.projection,
      [row ⟨1, by decide⟩ (text "Oslo"), row ⟨1, by decide⟩ unknown, row ⟨2, by decide⟩ unknown,
        row ⟨2, by decide⟩ (text "Bergen")]⟩, s) := by
    subst row s q objects requests entity unknown text key
    cbv
  obtain ⟨-, same, -, apart, -⟩ :=
    grouped_rows objects (q := q) rfl (by simp [q]) rfl accepted
  have shown : [row ⟨1, by decide⟩ (text "Oslo"), row ⟨1, by decide⟩ unknown, row ⟨2, by decide⟩ unknown,
      row ⟨2, by decide⟩ (text "Bergen")] = firsts.map ProjectedRow.row := congrArg Cursor.rows same
  exact ⟨shown ▸ accepted, shown.symm, apart⟩

/-- Rows with different keys fall into one group when a query groups by the key. -/
theorem key_ungrouped :
    let key (n : EntityId) : Key := ⟨⟨⟨"app", by decide⟩, none, [], ⟨"Task", by decide⟩⟩, .id n⟩
    let stored (n : EntityId) : Mutation := ⟨.put, .entity (.keyed ⟨.stored, key n, []⟩)⟩
    let q : StructuredQuery :=
      ⟨.projection, none, none, none, [], [⟨keyProperty, false⟩], [keyProperty], none, 0⟩
    let s := reached .standard [.commit [stored ⟨1, by decide⟩, stored ⟨2, by decide⟩] none]
    let row (n : EntityId) : Row := .entity ⟨.projected, key n, []⟩
    s.execute (.structured q.ungrouped) none =
        .ok (⟨.projection, [row ⟨1, by decide⟩, row ⟨2, by decide⟩]⟩, s) ∧
      key ⟨1, by decide⟩ ≠ key ⟨2, by decide⟩ ∧
      s.execute (.structured q) none = .ok (⟨.projection, [row ⟨1, by decide⟩]⟩, s) := by
  intro key stored q s row
  refine ⟨?_, by decide, ?_⟩
  · subst row s q stored key
    cbv
  · subst row s q stored key
    cbv

end Store

end EntityStore
