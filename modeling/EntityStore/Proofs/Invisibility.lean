import EntityStore.Proofs.Contents
import EntityStore.Proofs.SortNaturality

set_option autoImplicit false

namespace EntityStore

/-- Whether an element is invisible to queries: it is marked as not indexed, or it is a nested entity. -/
def Element.isHidden (e : Element) : Bool := e.marks.indexed = some false || e.scalar.variant = .entity

/-- What is left of a value once all that is invisible is erased from it. -/
def Value.erased? : Value → Option Value
  | single e => if e.isHidden then none else some (single e)
  | list items marks =>
    if marks.indexed = some false then none else some (list (items.filter (!·.isHidden)) marks)

/-- What is left of the value of a property once all that is invisible is erased from it. -/
def Entity.visible? (e : Entity) (name : String) : Option Value := (e.property? name).bind Value.erased?

/-- Entities that are identical once all that is invisible is erased from them. -/
structure Entity.VisiblyEqual (e f : Entity) : Prop where
  key : e.key = f.key
  properties : ∀ name, e.visible? name = f.visible? name

/-- The key of the entity that a row comes from. -/
def Row.origin : Row → Key
  | .entity e => e.key
  | .key k => k

theorem Element.entry?_of_hidden {e : Element} (hidden : e.isHidden = true) : e.entry? = none := by
  obtain ⟨scalar, marks⟩ := e
  simp only [isHidden, Bool.or_eq_true, decide_eq_true_eq] at hidden
  unfold entry?
  split
  · rfl
  · next indexed =>
      cases scalar <;> simp_all [Scalar.variant, Scalar.entry?]

theorem Element.projected?_of_hidden {e : Element} (hidden : e.isHidden = true) : e.projected? = none := by
  obtain ⟨scalar, marks⟩ := e
  simp only [isHidden, Bool.or_eq_true, decide_eq_true_eq] at hidden
  unfold projected?
  split
  · rfl
  · next indexed =>
      cases scalar <;> simp_all [Scalar.variant]

theorem Value.elements_erased (v : Value) :
    ((v.erased?.map elements).getD []) = v.elements.filter (!·.isHidden) := by
  cases v with
  | single e => cases hidden : e.isHidden <;> simp [erased?, elements, hidden]
  | list items marks =>
      by_cases unindexed : marks.indexed = some false
      · simp [erased?, elements, unindexed]
      · simp [erased?, elements, unindexed]

/-- What is blind to hidden elements finds the same in a property and in what is left of it. -/
theorem Entity.filterMap_visible {α : Type} {find : Element → Option α}
    (blind : ∀ e : Element, e.isHidden = true → find e = none) (e : Entity) (name : String) :
    (((e.property? name).map fun v => v.elements.filterMap find).getD []) =
      (((e.visible? name).map Value.elements).getD []).filterMap find := by
  cases found : e.property? name with
  | none => simp [visible?, found]
  | some v =>
      have visible (x : Element) : (if (!x.isHidden) = true then find x else none) = find x := by
        cases hidden : x.isHidden with
        | false => rfl
        | true => exact (blind x hidden).symm
      rw [visible?, found, Option.bind_some, Value.elements_erased, List.filterMap_filter]
      simp only [visible]
      rfl

theorem Entity.entries_visible (e : Entity) (name : String) :
    (((e.property? name).map Value.entries).getD []) =
      (((e.visible? name).map Value.elements).getD []).filterMap Element.entry? := by
  rw [funext Value.entries_eq]
  exact e.filterMap_visible (fun _ hidden => Element.entry?_of_hidden hidden) name

theorem Entity.projected_visible (e : Entity) (name : String) :
    (((e.property? name).map Value.projected).getD []) =
      (((e.visible? name).map Value.elements).getD []).filterMap Element.projected? := by
  rw [funext Value.projected_eq]
  exact e.filterMap_visible (fun _ hidden => Element.projected?_of_hidden hidden) name

namespace Entity.VisiblyEqual

variable {e f : Entity}

theorem entries (equal : e.VisiblyEqual f) (name : String) : e.entries name = f.entries name := by
  unfold Entity.entries
  split
  · rw [equal.key]
  · rw [e.entries_visible, f.entries_visible, equal.properties]

theorem project (equal : e.VisiblyEqual f) (names : List String) : e.project names = f.project names := by
  have choices : e.choices = f.choices := by
    funext name
    rw [Entity.choices, Entity.choices, e.projected_visible, f.projected_visible, equal.properties]
  rw [Entity.project, Entity.project, choices, equal.key]

theorem keyedBy (equal : e.VisiblyEqual f) (o : Order) :
    Option.Rel (fun p r => p.1 = r.1 ∧ p.2.VisiblyEqual r.2) (e.keyedBy o) (f.keyedBy o) := by
  unfold Entity.keyedBy
  rw [equal.entries]
  split
  · exact Option.Rel.none
  · exact Option.Rel.some ⟨rfl, equal⟩

theorem holds (equal : e.VisiblyEqual f) (c : Condition) : c.holds e = c.holds f := by
  cases c with
  | hasAncestor k => rw [Condition.holds, Condition.holds, equal.key]
  | compare property relation value => simp only [Condition.holds, equal.entries]

theorem selects (equal : e.VisiblyEqual f) (q : StructuredQuery) : q.selects e = q.selects f := by
  simp only [StructuredQuery.selects, StructuredQuery.inScope, equal.key, equal.holds, equal.entries]

end Entity.VisiblyEqual

/-- Lists of entities that are identical, one by one, once all that is invisible is erased from them. -/
abbrev EntitiesVisiblyEqual (first second : List Entity) : Prop := List.Forall₂ Entity.VisiblyEqual first second

namespace EntitiesVisiblyEqual

variable {first second : List Entity}

theorem sort (equal : EntitiesVisiblyEqual first second) (o : Order) :
    EntitiesVisiblyEqual (o.sort first) (o.sort second) := by
  have keyed : List.Forall₂ (fun p r => p.1 = r.1 ∧ p.2.VisiblyEqual r.2) (o.keyed first) (o.keyed second) :=
    List.rel_filterMap (fun _ _ each => each.keyedBy o) equal
  unfold Order.sort
  cases o.direction with
  | ascending => exact Sort.forall₂_of_natural (Sort.ascending_map _ _) keyed
  | descending => exact Sort.forall₂_of_natural (Sort.descending_map _ _) keyed

theorem select (equal : EntitiesVisiblyEqual first second) (q : StructuredQuery) :
    EntitiesVisiblyEqual (q.select first) (q.select second) := by
  have byKey : EntitiesVisiblyEqual (first.mergeSort StructuredQuery.keyOrdered)
      (second.mergeSort StructuredQuery.keyOrdered) := by
    refine Sort.forall₂_mergeSort ?_ equal
    intro a b c d left right
    rw [StructuredQuery.keyOrdered, StructuredQuery.keyOrdered, left.key, right.key]
  have selected : EntitiesVisiblyEqual ((first.mergeSort StructuredQuery.keyOrdered).filter q.selects)
      ((second.mergeSort StructuredQuery.keyOrdered).filter q.selects) := by
    refine List.rel_filter ?_ byKey
    intro e f each
    exact iff_of_eq (congrArg (· = true) (each.selects q))
  rw [q.select_eq, q.select_eq]
  induction q.orders with
  | nil => exact selected
  | cons o rest ih => exact ih.sort o

theorem map_congr {α : Type} (equal : EntitiesVisiblyEqual first second) {shown : Entity → α}
    (agree : ∀ e f, e.VisiblyEqual f → shown e = shown f) : first.map shown = second.map shown := by
  rw [← List.forall₂_eq_eq_eq]
  exact List.rel_map (fun e f each => agree e f each) equal

theorem keys (equal : EntitiesVisiblyEqual first second) : first.map Entity.key = second.map Entity.key :=
  equal.map_congr fun _ _ each => each.key

theorem rows (equal : EntitiesVisiblyEqual first second) {q : StructuredQuery}
    (shown : q.resultType = .keyOnly ∨ q.resultType = .projection) : q.rows first = q.rows second := by
  rcases shown with keyOnly | projection
  · simp only [StructuredQuery.rows, keyOnly]
    exact equal.map_congr fun _ _ each => congrArg Row.key each.key
  · simp only [StructuredQuery.rows, projection, ProjectedRow.ofEntities, List.flatMap_def]
    rw [equal.map_congr fun _ _ each => each.project q.projected]

theorem origins (equal : EntitiesVisiblyEqual first second) (q : StructuredQuery) :
    (q.rows first).map Row.origin = (q.rows second).map Row.origin := by
  by_cases shown : q.resultType = .keyOnly ∨ q.resultType = .projection
  · rw [equal.rows shown]
  · rw [not_or] at shown
    have whole (entities : List Entity) : q.rows entities = entities.map .entity := by
      unfold StructuredQuery.rows
      split
      · next keyOnly => exact absurd keyOnly shown.1
      · next projection => exact absurd projection shown.2
      · rfl
    rw [whole, whole, List.map_map, List.map_map]
    exact equal.keys

end EntitiesVisiblyEqual

namespace Store

/-- Stored entities that are identical under each key once all that is invisible is erased. -/
def ContentsVisiblyEqual (stored others : Bindings Key Entity) : Prop :=
  ∀ k, Option.Rel Entity.VisiblyEqual (stored.at? k) (others.at? k)

theorem select_visiblyEqual {stored others : Bindings Key Entity} (filed : Filed stored) (refiled : Filed others)
    (equal : ContentsVisiblyEqual stored others) (q : StructuredQuery) :
    EntitiesVisiblyEqual (q.select (stored.map Prod.snd)) (q.select (others.map Prod.snd)) := by
  have paired : ∀ e ∈ stored.map Prod.snd,
      others.at? e.key = some (e.counterpart others) ∧ e.VisiblyEqual (e.counterpart others) := fun e member =>
    Entity.counterpart_of_rel equal ((filed.mem_iff e).mp member)
  have keys : ((stored.map Prod.snd).map (Entity.counterpart others)).map Entity.key =
      (stored.map Prod.snd).map Entity.key := by
    rw [List.map_map]
    exact List.map_congr_left fun e member => (paired e member).2.key.symm
  -- In place of the other entities in their order, take each one in the place of its counterpart.
  have perm : (others.map Prod.snd).Perm ((stored.map Prod.snd).map (Entity.counterpart others)) := by
    refine (List.perm_ext_iff_of_nodup (List.Nodup.of_map _ refiled.keys_nodup)
      (List.Nodup.of_map Entity.key (keys ▸ filed.keys_nodup))).mpr fun f => ?_
    rw [refiled.mem_iff, List.mem_map]
    constructor
    · intro found
      obtain ⟨e, here, same⟩ := Entity.exists_counterpart equal (fun _ _ each => each.key) found
      exact ⟨e, (filed.mem_iff e).mpr here, same⟩
    · rintro ⟨e, member, rfl⟩
      rw [← (paired e member).2.key]
      exact (paired e member).1
  rw [q.select_congr refiled.keys_nodup (perm.filter _)]
  refine EntitiesVisiblyEqual.select ?_ q
  rw [EntitiesVisiblyEqual, List.forall₂_map_right_iff, List.forall₂_same]
  exact fun e member => (paired e member).2

/-- No query tells two stores apart that hold the same keys and entities which differ only where the indexes do not
look, except by the whole entities that it answers. -/
theorem unaffected_by_hidden (limits otherLimits : StoreLimits) (requests others : List Request) (query : Query)
    {handle? otherHandle? : Option Handle} {stored otherStored : Bindings Key Entity}
    (seen : (reached limits requests).seen? handle? = some stored)
    (otherSeen : (reached otherLimits others).seen? otherHandle? = some otherStored)
    (equal : ContentsVisiblyEqual stored otherStored) :
    let s := reached limits requests
    let t := reached otherLimits others
    (∃ e, s.execute query handle? = .error e ∧ t.execute query otherHandle? = .error e) ∨
      ∃ cursor other keys scopes,
        s.execute query handle? = .ok (cursor, s.recording handle? keys scopes) ∧
        t.execute query otherHandle? = .ok (other, t.recording otherHandle? keys scopes) ∧
        other.resultType = cursor.resultType ∧ other.rows.map Row.origin = cursor.rows.map Row.origin ∧
        (cursor.resultType = .keyOnly ∨ cursor.resultType = .projection → other.rows = cursor.rows) := by
  intro s t
  rw [execute_of_seen seen, execute_of_seen otherSeen]
  cases structured : query.toStructured with
  | error e => exact Or.inl ⟨e, rfl, rfl⟩
  | ok q =>
      have filed := seesFiled_reached limits requests handle? stored seen
      have refiled := seesFiled_reached otherLimits others otherHandle? otherStored otherSeen
      have selected := select_visiblyEqual filed refiled equal q
      cases checked : q.check with
      | error e => exact Or.inl ⟨e, by simp [answer, checked, bind, Except.bind]⟩
      | ok _ =>
          refine Or.inr ⟨⟨q.resultType, q.window (q.rows (q.select (stored.map Prod.snd)))⟩,
            ⟨q.resultType, q.window (q.rows (q.select (otherStored.map Prod.snd)))⟩,
            (q.select (stored.map Prod.snd)).map Entity.key, q.scopes, ?_, ?_, rfl, ?_, ?_⟩
          · simp [answer, checked, bind, Except.bind, pure, Except.pure, s]
          · simp [answer, checked, bind, Except.bind, pure, Except.pure, t, selected.keys]
          · have origins := selected.origins q
            have lengths := congrArg List.length origins
            simp only [List.length_map] at lengths
            simp only [StructuredQuery.window_eq, List.map_take, List.map_drop, origins, lengths]
          · intro shown
            exact congrArg q.window (selected.rows shown).symm

theorem unaffected_by_hidden_of_list :
    let k : Key := ⟨⟨⟨"app", by decide⟩, none, [], ⟨"Task", by decide⟩⟩, .id ⟨1, by decide⟩⟩
    let number (n : Long) (indexed : Option Bool) : Element := ⟨.long n, ⟨indexed, none⟩⟩
    let marked : Entity := ⟨.stored, k, [("secret", .single ⟨.string "x", ⟨some false, none⟩⟩),
      ("n", .list [number ⟨7, by decide⟩ (some false), number ⟨2, by decide⟩ none] ⟨none, none⟩)]⟩
    let nested : Entity := ⟨.stored, k,
      [("n", .list [number ⟨2, by decide⟩ none, ⟨.entity (.keyed marked), ⟨some true, none⟩⟩] ⟨none, none⟩)]⟩
    let opening (e : Entity) : List Request := [.commit [⟨.put, .entity (.keyed e)⟩] none, .beginTransaction]
    let q : StructuredQuery :=
      ⟨.projection, none, some "Task", none, [⟨"n", .descending⟩], [⟨"n", false⟩], [], none, 0⟩
    let s := reached .standard (opening marked)
    let t := reached .standard (opening nested)
    s.seen? (some (handle 1)) = some [(k, marked)] ∧ t.seen? (some (handle 1)) = some [(k, nested)] ∧
      ContentsVisiblyEqual [(k, marked)] [(k, nested)] ∧
      ∃ cursor keys scopes,
        s.execute (.structured q) (some (handle 1)) = .ok (cursor, s.recording (some (handle 1)) keys scopes) ∧
        t.execute (.structured q) (some (handle 1)) = .ok (cursor, t.recording (some (handle 1)) keys scopes) := by
  intro k number marked nested opening q s t
  have seen : s.seen? (some (handle 1)) = some [(k, marked)] := by
    subst s t q opening nested marked number k
    cbv
  have otherSeen : t.seen? (some (handle 1)) = some [(k, nested)] := by
    subst s t q opening nested marked number k
    cbv
  have equal : ContentsVisiblyEqual [(k, marked)] [(k, nested)] := by
    intro other
    rw [Bindings.at?_cons, Bindings.at?_cons]
    split
    · refine Option.Rel.some ⟨rfl, fun name => ?_⟩
      simp only [Entity.visible?, Entity.property?, marked, nested, Bindings.at?_cons, Bindings.at?_nil]
      by_cases secret : "secret" = name
      · subst secret
        rfl
      · by_cases named : "n" = name
        · subst named
          rfl
        · simp only [secret, named, ↓reduceIte]
    · exact Option.Rel.none
  have structured : (Query.structured q).toStructured = .ok q := rfl
  refine ⟨seen, otherSeen, equal, ?_⟩
  rcases unaffected_by_hidden .standard .standard (opening marked) (opening nested) (.structured q) seen otherSeen
    equal with ⟨e, refused, -⟩ | ⟨cursor, other, keys, scopes, here, there, type, -, rows⟩
  · obtain ⟨next, accepted⟩ := (execute_eq_ok_iff structured seen _).mpr ⟨rfl, rfl⟩
    rw [refused] at accepted
    cases accepted
  · obtain ⟨-, shown⟩ := (execute_eq_ok_iff structured seen cursor).mp ⟨_, here⟩
    have projected : cursor.resultType = .projection := congrArg Cursor.resultType shown
    obtain ⟨otherType, otherRows⟩ := other
    obtain rfl : otherType = cursor.resultType := type
    obtain rfl : otherRows = cursor.rows := rows (Or.inr projected)
    exact ⟨cursor, keys, scopes, here, there⟩

end Store

end EntityStore
