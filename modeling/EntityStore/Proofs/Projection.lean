import EntityStore.Proofs.Cursors
import EntityStore.Proofs.Grouping
import EntityStore.Proofs.Visibility

set_option autoImplicit false

namespace EntityStore

section Combinations

variable {α : Type}

theorem combinations_append (lists : List (List α)) (items : List α) :
    combinations (lists ++ [items]) =
      (combinations lists).flatMap fun before => items.map fun last => before ++ [last] := by
  induction lists with
  | nil => simp [combinations, List.map_eq_flatMap]
  | cons first rest ih =>
      rw [List.cons_append, combinations, combinations, List.flatMap_assoc]
      congr 1
      funext item
      rw [ih, List.map_flatMap, List.flatMap_map]
      simp only [List.map_map]
      rfl

theorem length_combinations (lists : List (List α)) :
    (combinations lists).length = (lists.map List.length).prod := by
  induction lists with
  | nil => rfl
  | cons items rest ih =>
      rw [combinations, List.length_flatMap, List.map_cons, List.prod_cons, ← ih]
      simp only [List.length_map, List.map_const', List.sum_replicate_nat]

/-- Where the items of each list are numbered upwards, the combinations are in the lexicographic order of the
numbers. -/
theorem combinations_pairwise (number : α → Nat) {lists : List (List α)}
    (upwards : ∀ items ∈ lists, items.Pairwise fun x y => number x < number y) :
    (combinations lists).Pairwise fun v w => v.map number < w.map number := by
  induction lists with
  | nil => exact List.pairwise_singleton _ _
  | cons items rest ih =>
      obtain ⟨first, later⟩ := List.forall_mem_cons.mp upwards
      rw [combinations, List.pairwise_flatMap]
      -- Combinations with one first item differ later; otherwise the first items decide.
      constructor
      · intro item _
        rw [List.pairwise_map]
        apply (ih later).imp
        intro v w below
        exact List.cons_lt_cons_iff.mpr (Or.inr ⟨rfl, below⟩)
      · apply first.imp
        intro item next below v inV w inW
        obtain ⟨before, -, rfl⟩ := List.mem_map.mp inV
        obtain ⟨after, -, rfl⟩ := List.mem_map.mp inW
        exact List.cons_lt_cons_iff.mpr (Or.inl below)

end Combinations

section Repeats

variable {κ : Type} [DecidableEq κ]

theorem eraseDups_append_singleton (names : List κ) (name : κ) :
    (names ++ [name]).eraseDups = if name ∈ names then names.eraseDups else names.eraseDups ++ [name] := by
  rw [List.eraseDups_append]
  by_cases repeated : name ∈ names
  · simp [repeated, List.removeAll]
  · simp [repeated, List.removeAll, List.eraseDups_cons]

/-- A product over names counts each name once, and those that are repeated again. -/
theorem exists_prod_eq (size : κ → Nat) (names : List κ) :
    ∃ again, (names.map size).prod = (names.eraseDups.map size).prod * again ∧
      ∀ name, 1 < names.count name → size name ∣ again := by
  induction names using List.reverseRecOn with
  | nil => exact ⟨1, rfl, fun name twice => absurd twice (by simp)⟩
  | append_singleton names last ih =>
      obtain ⟨again, equal, divides⟩ := ih
      rw [List.map_append, List.prod_append_nat, equal, eraseDups_append_singleton]
      by_cases repeated : last ∈ names
      -- Its size counts again, and all other names that are repeated are so among the earlier ones.
      · refine ⟨again * size last, by simp [repeated, Nat.mul_assoc], ?_⟩
        intro name twice
        by_cases same : name = last
        · exact same ▸ Nat.dvd_mul_left _ _
        · have earlier : 1 < names.count name := by simpa [List.count_append, Ne.symm same] using twice
          exact (divides name earlier).trans (Nat.dvd_mul_right _ _)
      · refine ⟨again, by simp [repeated, Nat.mul_right_comm], ?_⟩
        intro name twice
        apply divides
        have different : last ≠ name := by
          intro same
          rw [← same, List.count_append, List.count_eq_zero.mpr repeated] at twice
          simp at twice
        simpa [List.count_append, different] using twice

/-- Where the names that are repeated do not count, they have size one. -/
theorem eq_one_of_prod_eq {size : κ → Nat} {names : List κ} (positive : ∀ name ∈ names, size name ≠ 0)
    (equal : (names.map size).prod = (names.eraseDups.map size).prod) {name : κ} (twice : 1 < names.count name) :
    size name = 1 := by
  obtain ⟨again, split, divides⟩ := exists_prod_eq size names
  have nonzero : (names.eraseDups.map size).prod ≠ 0 := by
    rw [← equal, ne_eq, List.prod_eq_zero_iff_exists_zero_nat]
    rintro ⟨_, member, rfl⟩
    obtain ⟨other, here, zero⟩ := List.mem_map.mp member
    exact positive other here zero
  have once : again = 1 := by
    apply Nat.eq_of_mul_eq_mul_left (Nat.pos_of_ne_zero nonzero)
    rw [← split, equal, Nat.mul_one]
  exact Nat.dvd_one.mp (once ▸ divides name twice)

end Repeats

/-- The projected properties that a row shows values of: the key of an entity stands beside them. -/
def projectedProperties (names : List String) : List String := names.filter (· ≠ keyProperty)

namespace Choice

/-- What each of some choices says, in their order. -/
def shownBy (way : List Choice) : Bindings String Value := way.map fun c => (c.name, .single c.element)

/-- What the last choice for each name says. -/
def lastShownBy (way : List Choice) : Bindings String Value := Bindings.ofPairs (shownBy way)

end Choice

namespace Entity

/-- Whether a choice is one of the visible elements of a property, at the place that it has among them. -/
def Picks (e : Entity) (c : Choice) (name : String) : Prop :=
  c.name = name ∧ (e.visible name)[c.position]?.map Element.tagged = some c.element

/-- The ways to take one visible element for each of some names, each way once, in the lexicographic order of the
places of the elements. -/
structure Ways (e : Entity) (names : List String) (ways : List (List Choice)) : Prop where
  members : ∀ way, way ∈ ways ↔ List.Forall₂ e.Picks way names
  inOrder : ways.Pairwise fun v w => v.map Choice.position < w.map Choice.position

/-- One row for each way to take a visible element for each of some names, with the key of the entity and what is
taken. -/
def HasRowPerWay (e : Entity) (names : List String) (rows : List Row) : Prop :=
  ∃ ways, e.Ways names ways ∧ rows = ways.map fun way => .entity ⟨.projected, e.key, Choice.shownBy way⟩

/-- The rows of an entity when some properties are projected. -/
def projectedRows (e : Entity) (names : List String) : List Row := (e.project names).map ProjectedRow.row

theorem picks_iff {e : Entity} {name : String} {c : Choice} : e.Picks c name ↔ c ∈ e.choices name := by
  rw [mem_choices, projected_eq, List.getElem?_map]
  exact Iff.rfl

theorem map_position_choices (e : Entity) (name : String) :
    (e.choices name).map Choice.position = List.range' 0 (e.visible name).length := by
  rw [choices, projected_eq, List.map_map, ← List.length_map Element.tagged, ← List.zipIdx_map_snd]
  rfl

theorem length_choices (e : Entity) (name : String) : (e.choices name).length = (e.visible name).length := by
  simpa using congrArg List.length (e.map_position_choices name)

namespace Ways

variable {e : Entity} {names : List String} {ways others : List (List Choice)}

theorem of_choices (e : Entity) (names : List String) : e.Ways names (combinations (names.map e.choices)) where
  members way := by
    rw [mem_combinations, List.forall₂_map_right_iff]
    constructor
    · exact List.Forall₂.imp fun _ _ => picks_iff.mpr
    · exact List.Forall₂.imp fun _ _ => picks_iff.mp
  inOrder := by
    apply combinations_pairwise
    intro items member
    obtain ⟨name, -, rfl⟩ := List.mem_map.mp member
    rw [← List.pairwise_map, map_position_choices]
    exact List.pairwise_lt_range'

theorem nodup (taken : e.Ways names ways) : ways.Nodup := by
  apply taken.inOrder.imp
  intro v w below same
  exact List.lt_irrefl _ (same ▸ below)

theorem unique (taken : e.Ways names ways) (again : e.Ways names others) : ways = others := by
  apply List.Perm.eq_of_pairwise _ taken.inOrder again.inOrder
  · rw [List.perm_ext_iff_of_nodup taken.nodup again.nodup]
    intro way
    rw [taken.members, again.members]
  · intro v w _ _ below above
    exact absurd above (List.lt_asymm below)

/-- There are as many ways as the product of the numbers of visible elements says. -/
theorem length (taken : e.Ways names ways) : ways.length = (names.map fun name => (e.visible name).length).prod := by
  rw [taken.unique (of_choices e names), length_combinations, List.map_map]
  congr 1
  apply List.map_congr_left
  intro name _
  exact e.length_choices name

/-- Without a visible element for one of the names there is no way. -/
theorem eq_nil_iff (taken : e.Ways names ways) : ways = [] ↔ ∃ name ∈ names, e.visible name = [] := by
  rw [← List.length_eq_zero_iff, taken.length, List.prod_eq_zero_iff_exists_zero_nat]
  simp [List.length_eq_zero_iff]

end Ways

end Entity

namespace Choice

theorem shownBy_append (way : List Choice) (c : Choice) :
    shownBy (way ++ [c]) = shownBy way ++ [(c.name, .single c.element)] := List.map_append

theorem lastShownBy_append (way : List Choice) (c : Choice) :
    lastShownBy (way ++ [c]) = (lastShownBy way).put c.name (.single c.element) := by
  rw [lastShownBy, shownBy_append, Bindings.ofPairs, List.foldl_append]
  rfl

/-- The only choice for a name is shown. -/
theorem at?_lastShownBy {way : List Choice} {c : Choice} (member : c ∈ way)
    (only : ∀ d ∈ way, d.name = c.name → d = c) : (lastShownBy way).at? c.name = some (.single c.element) := by
  induction way using List.reverseRecOn with
  | nil => cases member
  | append_singleton way last ih =>
      rw [lastShownBy_append, Bindings.at?_put]
      by_cases own : last.name = c.name
      · rw [if_pos own, only last (List.mem_append_right _ List.mem_cons_self) own]
      · rw [if_neg own]
        apply ih
        · rcases List.mem_append.mp member with earlier | here
          · exact earlier
          · exact absurd (congrArg Choice.name (List.mem_singleton.mp here).symm) own
        · exact fun d inWay => only d (List.mem_append_left _ inWay)

/-- Nothing is shown for a name for which there is no choice. -/
theorem exists_of_names_lastShownBy {way : List Choice} {name : String} (shown : name ∈ (lastShownBy way).names) :
    ∃ c ∈ way, c.name = name := by
  induction way using List.reverseRecOn with
  | nil => cases shown
  | append_singleton way last ih =>
      rw [lastShownBy_append, Bindings.mem_names_put] at shown
      rcases shown with here | earlier
      · exact ⟨last, List.mem_append_right _ List.mem_cons_self, here.symm⟩
      · obtain ⟨c, member, named⟩ := ih earlier
        exact ⟨c, List.mem_append_left _ member, named⟩

end Choice

namespace Entity

variable {e : Entity} {names : List String} {name : String} {way : List Choice}

theorem mem_of_combination (taken : way ∈ combinations (names.map e.choices)) {c : Choice} (member : c ∈ way) :
    c.name ∈ names ∧ c ∈ e.choices c.name := by
  have picks := ((Ways.of_choices e names).members way).mp taken
  obtain ⟨asked, present, picked⟩ := exists_mem_of_forall₂ picks member
  have named : c.name = asked := picked.1
  exact ⟨named ▸ present, named ▸ picks_iff.mp picked⟩

theorem exists_of_combination (taken : way ∈ combinations (names.map e.choices)) (asked : name ∈ names) :
    ∃ c ∈ way, c ∈ e.choices name := by
  have picks := ((Ways.of_choices e names).members way).mp taken
  obtain ⟨c, member, picked⟩ := exists_mem_of_forall₂ picks.flip asked
  exact ⟨c, member, picks_iff.mp picked⟩

/-- A property with one visible element may be projected again. -/
theorem combinations_append_repeated (repeated : name ∈ names) (one : (e.visible name).length = 1) :
    (combinations ((names ++ [name]).map e.choices)).map Choice.lastShownBy =
      (combinations (names.map e.choices)).map Choice.lastShownBy := by
  rw [← e.length_choices, List.length_eq_one_iff] at one
  obtain ⟨c, only⟩ := one
  have own : c ∈ e.choices name := by simp [only]
  have unique : ∀ d ∈ e.choices name, d = c := by simp [only]
  rw [List.map_append, List.map_singleton, combinations_append, List.map_flatMap, only]
  simp only [List.map_cons, List.map_nil, Choice.lastShownBy_append]
  rw [← List.map_eq_flatMap]
  apply List.map_congr_left
  intro before taken
  -- The one element was taken before, so the row shows it already.
  apply Bindings.put_of_at?
  apply Choice.at?_lastShownBy
  · obtain ⟨d, member, picked⟩ := exists_of_combination taken repeated
    exact unique d picked ▸ member
  · intro other member named
    apply unique
    rw [← (mem_choices.mp own).1, ← named]
    exact (mem_of_combination taken member).2

/-- What is shown of another property stands behind what is shown of the ones before it. -/
theorem combinations_append_fresh (fresh : name ∉ names) :
    (combinations ((names ++ [name]).map e.choices)).map Choice.lastShownBy =
      ((combinations (names.map e.choices)).map Choice.lastShownBy).flatMap fun shown =>
        (e.choices name).map fun last => shown ++ [(last.name, .single last.element)] := by
  rw [List.map_append, List.map_singleton, combinations_append, List.map_flatMap, List.flatMap_map]
  apply List.flatMap_congr
  intro before taken
  rw [List.map_map]
  apply List.map_congr_left
  intro last picked
  rw [Function.comp_apply, Choice.lastShownBy_append]
  apply Bindings.put_of_unbound
  intro bound
  obtain ⟨c, member, named⟩ := Choice.exists_of_names_lastShownBy bound
  rw [(mem_choices.mp picked).1] at named
  exact fresh (named ▸ (mem_of_combination taken member).1)

/-- If each property that is projected again has one visible element, it is as if it were projected once. -/
theorem combinations_eraseDups
    (single : ∀ name ∈ names, 1 < names.count name → (e.visible name).length = 1) :
    (combinations (names.map e.choices)).map Choice.lastShownBy =
      (combinations (names.eraseDups.map e.choices)).map Choice.shownBy := by
  -- From the end, because a row shows what is taken last for a name.
  induction names using List.reverseRecOn with
  | nil => rfl
  | append_singleton names last ih =>
      have earlier : ∀ name ∈ names, 1 < names.count name → (e.visible name).length = 1 := by
        intro name member twice
        apply single name (List.mem_append_left _ member)
        rw [List.count_append]
        exact Nat.lt_add_right _ twice
      rw [eraseDups_append_singleton]
      by_cases repeated : last ∈ names
      · have twice : 1 < (names ++ [last]).count last := by simpa using List.count_pos_iff.mpr repeated
        have one := single last (List.mem_append_right _ List.mem_cons_self) twice
        rw [if_pos repeated, combinations_append_repeated repeated one, ih earlier]
      · rw [if_neg repeated, combinations_append_fresh repeated, ih earlier, List.map_append, List.map_singleton,
          combinations_append, List.map_flatMap, List.flatMap_map]
        simp only [List.map_map, Function.comp_def, Choice.shownBy_append]

theorem projectedRows_eq (e : Entity) (names : List String) :
    e.projectedRows names = ((combinations ((projectedProperties names).map e.choices)).map Choice.lastShownBy).map
      fun shown => .entity ⟨.projected, e.key, shown⟩ := by
  rw [projectedRows, project, List.map_map, List.map_map]
  rfl

theorem projectedRows_eq_nil (absent : ∃ name ∈ projectedProperties names, e.visible name = []) :
    e.projectedRows names = [] := by
  rw [projectedRows_eq, (Ways.of_choices e _).eq_nil_iff.mpr absent]
  rfl

/-- The rows of an entity are one for each way to take a visible element of each projected property exactly if there
is no way or no property with several visible elements is projected twice. -/
theorem hasRowPerWay_iff (e : Entity) (names : List String) :
    e.HasRowPerWay (projectedProperties names).eraseDups (e.projectedRows names) ↔
      (∃ name ∈ projectedProperties names, e.visible name = []) ∨
        ∀ name ∈ projectedProperties names, 1 < (projectedProperties names).count name →
          (e.visible name).length = 1 := by
  by_cases absent : ∃ name ∈ projectedProperties names, e.visible name = []
  · refine iff_of_true ⟨[], ?_, projectedRows_eq_nil absent⟩ (Or.inl absent)
    have none := (Ways.of_choices e (projectedProperties names).eraseDups).eq_nil_iff.mpr
      (by simpa only [List.mem_eraseDups] using absent)
    exact none ▸ Ways.of_choices e _
  · rw [or_iff_right absent, projectedRows_eq]
    constructor
    · rintro ⟨ways, taken, same⟩ name - twice
      have positive : ∀ name ∈ projectedProperties names, (e.visible name).length ≠ 0 :=
        fun name member none => absent ⟨name, member, List.length_eq_zero_iff.mp none⟩
      apply eq_one_of_prod_eq positive _ twice
      have lengths := congrArg List.length same
      simp only [List.length_map] at lengths
      rw [← taken.length, ← (Ways.of_choices e _).length, lengths]
    · intro single
      refine ⟨_, Ways.of_choices e _, ?_⟩
      rw [combinations_eraseDups single, List.map_map]
      rfl

end Entity

namespace Store

/-- A projection query that does not group answers a row for each way to take a visible element of each projected name;
if a name is projected again, the row shows what is taken last for it. -/
theorem rows_of_ways {s : Store} {query : Query} {q : StructuredQuery} (structured : query.toStructured = .ok q)
    (projects : q.resultType = .projection) (plain : q.groupBy = []) {handle? : Option Handle}
    {stored : Bindings Key Entity} (seen : s.seen? handle? = some stored) {cursor : Cursor} {next : Store}
    (accepted : s.execute query handle? = .ok (cursor, next)) :
    cursor = ⟨.projection, q.window ((q.select (stored.map Prod.snd)).flatMap (·.projectedRows q.projected))⟩ ∧
      ∀ e ∈ q.select (stored.map Prod.snd),
        (∃ ways, e.Ways (projectedProperties q.projected) ways ∧ e.projectedRows q.projected =
          ways.map fun way => .entity ⟨.projected, e.key, Bindings.ofPairs (Choice.shownBy way)⟩) ∧
        ((∃ name ∈ projectedProperties q.projected, e.visible name = []) → e.projectedRows q.projected = []) ∧
        (e.HasRowPerWay (projectedProperties q.projected).eraseDups (e.projectedRows q.projected) ↔
          (∃ name ∈ projectedProperties q.projected, e.visible name = []) ∨
            ∀ name ∈ projectedProperties q.projected, 1 < (projectedProperties q.projected).count name →
              (e.visible name).length = 1) := by
  obtain ⟨-, rfl⟩ := (execute_eq_ok_iff structured seen cursor).mp ⟨next, accepted⟩
  constructor
  · unfold StructuredQuery.rows
    rw [projects, plain]
    simp only [List.isEmpty_nil, ↓reduceIte, ProjectedRow.ofEntities, List.map_flatMap]
    rfl
  · intro e _
    refine ⟨⟨_, Entity.Ways.of_choices e _, ?_⟩, Entity.projectedRows_eq_nil, e.hasRowPerWay_iff q.projected⟩
    rw [Entity.projectedRows_eq, List.map_map]
    rfl

/-- Two tags and two moments, one of which is not indexed; the moments are projected twice. -/
theorem rows_of_ways_of_tags :
    let key : Key := ⟨⟨⟨"app", by decide⟩, none, [], ⟨"Task", by decide⟩⟩, .id ⟨1, by decide⟩⟩
    let text (s : String) : Element := ⟨.string s, ⟨none, none⟩⟩
    let moment (indexed : Option Bool) : Element :=
      ⟨.dateTime ⟨⟨1970, 1, 1, 0, 0, 1, 0⟩, by decide⟩, ⟨indexed, none⟩⟩
    let entity : Entity := ⟨.stored, key, [("tag", .list [text "a", text "b"] ⟨none, none⟩),
      ("due", .list [moment (some false), moment none] ⟨none, none⟩)]⟩
    let q : StructuredQuery :=
      ⟨.projection, none, none, none, [], [⟨"due", false⟩, ⟨"tag", false⟩, ⟨"due", false⟩], [], none, 0⟩
    let s := reached .standard [.commit [⟨.put, .entity (.keyed entity)⟩] none]
    let row (tag : Element) : Row := .entity ⟨.projected, key,
      [("due", .single ⟨.long ⟨1000000, by decide⟩, none, some momentMeaning⟩), ("tag", .single tag)]⟩
    s.execute (.structured q) none = .ok (⟨.projection, [row (text "a"), row (text "b")]⟩, s) ∧
      entity.HasRowPerWay ["due", "tag"] [row (text "a"), row (text "b")] := by
  intro key text moment entity q s row
  have accepted : s.execute (.structured q) none = .ok (⟨.projection, [row (text "a"), row (text "b")]⟩, s) := by
    subst row s q entity moment text key
    cbv
  have selected : q.select [entity] = [entity] := by
    subst q entity moment text key
    cbv
  have seen : s.seen? none = some [(key, entity)] := rfl
  obtain ⟨rows, each⟩ := rows_of_ways (q := q) rfl rfl rfl seen accepted
  obtain ⟨-, -, once⟩ := each entity (by simp [selected])
  have shown : entity.projectedRows q.projected = [row (text "a"), row (text "b")] := by
    have answered := congrArg Cursor.rows rows
    simpa [q, StructuredQuery.window, selected] using answered.symm
  refine ⟨accepted, ?_⟩
  rw [shown] at once
  apply once.mpr
  apply Or.inr
  decide

/-- Of two tags that are projected twice, four rows are made. -/
theorem rows_of_repeated_tags :
    let key : Key := ⟨⟨⟨"app", by decide⟩, none, [], ⟨"Task", by decide⟩⟩, .id ⟨1, by decide⟩⟩
    let text (s : String) : Element := ⟨.string s, ⟨none, none⟩⟩
    let entity : Entity := ⟨.stored, key, [("tag", .list [text "a", text "b"] ⟨none, none⟩)]⟩
    let q : StructuredQuery := ⟨.projection, none, none, none, [], [⟨"tag", false⟩, ⟨"tag", false⟩], [], none, 0⟩
    let s := reached .standard [.commit [⟨.put, .entity (.keyed entity)⟩] none]
    let row (tag : Element) : Row := .entity ⟨.projected, key, [("tag", .single tag)]⟩
    let rows : List Row := [row (text "a"), row (text "b"), row (text "a"), row (text "b")]
    s.execute (.structured q) none = .ok (⟨.projection, rows⟩, s) ∧ ¬ entity.HasRowPerWay ["tag"] rows ∧
      entity.HasRowPerWay ["tag"] [row (text "a"), row (text "b")] := by
  intro key text entity q s row rows
  refine ⟨?_, ?_, ?_⟩
  · subst rows row s q entity text key
    cbv
  · rintro ⟨ways, taken, same⟩
    have four : 4 = ways.length := by simpa [rows] using congrArg List.length same
    rw [taken.length] at four
    exact absurd four (by decide)
  · exact ⟨_, Entity.Ways.of_choices entity ["tag"], rfl⟩

end Store

end EntityStore
