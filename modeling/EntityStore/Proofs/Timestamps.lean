import EntityStore.Proofs.Grouping
import EntityStore.Proofs.Moments
import EntityStore.Value.Draft

set_option autoImplicit false

namespace EntityStore

/-- Every choice that an entity leaves for a property stands in a row of a projection, if there is one for each
of the others. -/
theorem Entity.exists_row {e : Entity} {names : List String} {name : String} {c : Choice} (chosen : c ∈ e.choices name)
    (asked : name ∈ names) (property : name ≠ keyProperty)
    (others : ∀ other ∈ names, other ≠ keyProperty → e.choices other ≠ []) :
    ∃ row ∈ e.project names, row.shown? name = some c := by
  have filled : ∀ other ∈ names.filter (· ≠ keyProperty), ∃ d, d ∈ e.choices other ∧ (other = name → d = c) := by
    intro other present
    by_cases same : other = name
    · exact ⟨c, same ▸ chosen, fun _ => rfl⟩
    · obtain ⟨inNames, isProperty⟩ := List.mem_filter.mp present
      obtain ⟨d, here⟩ := List.exists_mem_of_ne_nil _ (others other inNames (by simpa using isProperty))
      exact ⟨d, here, fun equal => absurd equal same⟩
  obtain ⟨choices, found⟩ := exists_forall₂ filled
  have projected : (⟨e.key, choices⟩ : ProjectedRow) ∈ e.project names := by
    apply List.mem_map_of_mem
    apply mem_combinations.mpr
    exact List.forall₂_map_right_iff.mpr (found.imp fun _ _ both => both.1)
  refine ⟨_, projected, ?_⟩
  -- The row shows one of its choices for the name, and all of these are the given one.
  obtain ⟨d, shown⟩ := ProjectedRow.exists_shown projected asked property
  obtain ⟨present, own⟩ := List.mem_filter.mp (List.mem_of_getLast? shown)
  obtain ⟨other, -, here, same⟩ := exists_mem_of_forall₂ found present
  have called : other = name := by
    rw [← (Entity.mem_choices.mp here).1]
    simpa using own
  rw [shown, same called]

/-- A value that the indexes look at can be chosen for a row. -/
theorem Entity.exists_choice {e : Entity} {name : String} {v : Value} {x shown : Element}
    (stored : e.property? name = some v) (item : x ∈ v.elements) (projected : x.projected? = some shown) :
    ∃ position, (⟨name, position, shown⟩ : Choice) ∈ e.choices name := by
  have member : shown ∈ v.projected := by
    rw [v.projected_eq]
    exact List.mem_filterMap.mpr ⟨x, item, projected⟩
  obtain ⟨position, looked⟩ := List.mem_iff_getElem?.mp member
  refine ⟨position, Entity.mem_choices.mpr ⟨rfl, ?_⟩⟩
  rwa [stored, Option.map_some, Option.getD_some]

namespace CivilTime

/-- What an index row shows of a moment. -/
def shown (t : CivilTime) : Element := ⟨.long t.toLong, none, some momentMeaning⟩

theorem projected?_eq_shown (t : CivilTime) {indexed meaning} (visible : indexed ≠ some false) :
    (⟨.dateTime t, indexed, meaning⟩ : Element).projected? = some t.shown := if_neg visible

theorem ofInt?_toMicros (t : CivilTime) : Long.ofInt? t.toMicros = some t.toLong := dif_pos t.toMicros_inRange

/-- The number of a moment is one that an integer value accepts, and with the mark for moments this is what a
row shows. -/
theorem build_shown (t : CivilTime) :
    (((ValueDraft.empty .long).withPayload (.int t.toMicros)).bind (·.withMeaning (.int momentMeaning))).bind
      ValueDraft.build = .ok (.single t.shown) := by
  have payload : Payload.create .long (.int t.toMicros) = .ok (.scalar (.long t.toLong)) := by
    simp only [Payload.create, ofInt?_toMicros]
  rw [ValueDraft.withPayload_eq, show (ValueDraft.empty .long).variant = .long from rfl, payload]
  show (ValueDraft.withMeaning _ _).bind ValueDraft.build = _
  rw [ValueDraft.withMeaning_eq]
  show Value.create .long (.int t.toMicros) (some .none) (.int momentMeaning) = _
  rw [Value.create, payload]
  rfl

end CivilTime

/-- The readers of a row give back a moment that it shows. -/
theorem ProjectedRow.readers_of_shown {row : ProjectedRow} {name : String} {c : Choice} {t : CivilTime}
    (shown : row.shown? name = some c) (moment : c.element = t.shown) :
    (AnyEntity.keyed row.entity).dateTime name = .ok t ∧ (AnyEntity.keyed row.entity).long name = .ok t.toMicros := by
  have value : (AnyEntity.keyed row.entity).value name = .ok (.single t.shown) := by
    have bound := row.property?_entity name
    rw [shown, Option.map_some, moment] at bound
    unfold AnyEntity.value
    rw [show (AnyEntity.keyed row.entity).properties.at? name = some (.single t.shown) from bound]
  have projected : (AnyEntity.keyed row.entity).isProjected = true := rfl
  have found : CivilTime.ofMicros? t.toLong.value = some t := CivilTime.ofMicros?_eq_some_iff.mpr rfl
  refine ⟨?_, ?_⟩
  · unfold AnyEntity.dateTime
    rw [if_pos projected, value]
    simp only [CivilTime.shown, ↓reduceIte, AnyEntity.moment, found]
  · unfold AnyEntity.long
    rw [if_pos projected, value]
    simp only [CivilTime.shown, AnyEntity.plainLong, AnyEntity.readScalar, value]
    rfl

/-- Moments and the microseconds that they are counted by correspond one to one, in order, over the whole calendar, and
the readers of a row give back the moment that was indexed. -/
theorem CivilTime.survives_index :
    (epoch.toMicros = 0 ∧ ∀ (n : Nat) (t u : CivilTime), t.later? n = some u ↔ u.toMicros = t.toMicros + n) ∧
    (∀ (micros : Int) (t : CivilTime), ofMicros? micros = some t ↔ t.toMicros = micros) ∧
    (∀ micros : Int, (∃ t : CivilTime, t.toMicros = micros) ↔
      -62135596800000000 ≤ micros ∧ micros ≤ 253402300799999999) ∧
    (∀ s t : CivilTime, s.toMicros < t.toMicros ↔ s.fields.toList < t.fields.toList) ∧
    (∀ t u : OffsetTime, t.SameInstant u ↔ ∃ micros, t.toMicros? = some micros ∧ u.toMicros? = some micros) ∧
    (∀ t : CivilTime, ∃ n, Long.ofInt? t.toMicros = some n) ∧
    ∀ (e : Entity) (name : String) (v : Value) (t : CivilTime) (m : Marks), e.property? name = some v →
      ⟨.dateTime t, m⟩ ∈ v.elements → m.indexed ≠ some false →
      ∃ shown, (⟨.dateTime t, m⟩ : Element).projected? = some shown ∧
        (((ValueDraft.empty .long).withPayload (.int t.toMicros)).bind
          (·.withMeaning (.int momentMeaning))).bind ValueDraft.build = .ok (.single shown) ∧
        (name ≠ keyProperty → ∀ names, name ∈ names →
          (∀ other ∈ names, other ≠ keyProperty → e.choices other ≠ []) →
          ∃ row ∈ e.project names, ∃ c, row.shown? name = some c ∧ c.element = shown) ∧
        ∀ names, ∀ row ∈ e.project names, ∀ c, row.shown? name = some c → c.element = shown →
          (AnyEntity.keyed row.entity).dateTime name = .ok t ∧
          (AnyEntity.keyed row.entity).long name = .ok t.toMicros := by
  refine ⟨⟨toMicros_epoch, fun n t u => later?_eq_some_iff n⟩, fun _ _ => ofMicros?_eq_some_iff, ?_,
    fun _ _ => toMicros_lt_iff, OffsetTime.sameInstant_iff, fun t => ⟨t.toLong, t.ofInt?_toMicros⟩, ?_⟩
  · intro micros
    refine ⟨?_, exists_toMicros_eq⟩
    rintro ⟨t, rfl⟩
    exact t.toMicros_bounds
  · intro e name v t m stored item visible
    have projected : (⟨.dateTime t, m⟩ : Element).projected? = some t.shown := t.projected?_eq_shown visible
    refine ⟨t.shown, projected, t.build_shown, fun property names asked others => ?_,
      fun _ row _ c => row.readers_of_shown⟩
    obtain ⟨position, chosen⟩ := Entity.exists_choice stored item projected
    obtain ⟨row, member, shows⟩ := Entity.exists_row chosen asked property others
    exact ⟨row, member, _, shows, rfl⟩

/-- A moment before 1970 in a list, behind a moment that is not indexed and next to one after 1970, in rows with
the value of a second property. -/
theorem CivilTime.survives_index_before_epoch :
    let old : CivilTime := ⟨⟨1904, 2, 29, 23, 59, 59, 999999⟩, by decide⟩
    let recent : CivilTime := ⟨⟨2024, 2, 29, 0, 0, 0, 0⟩, by decide⟩
    let at? (t : CivilTime) (indexed : Option Bool) : Element := ⟨.dateTime t, indexed, none⟩
    let e : Entity := ⟨.stored, ⟨⟨⟨"app", by decide⟩, none, [], ⟨"Task", by decide⟩⟩, .id ⟨1, by decide⟩⟩,
      [("due", .list [at? recent (some false), at? old none, at? recent none] ⟨none, none⟩),
        ("done", .single ⟨.boolean true, none, none⟩)]⟩
    old.toMicros = -2077660800000001 ∧
    ∃ row ∈ e.project ["due", "done"], (AnyEntity.keyed row.entity).dateTime "due" = .ok old ∧
      (AnyEntity.keyed row.entity).long "due" = .ok (-2077660800000001) := by
  intro old recent at? e
  have micros : old.toMicros = -2077660800000001 := by
    subst old
    decide
  obtain ⟨-, -, -, -, -, -, rows⟩ := survives_index
  obtain ⟨shown, -, -, makes, read⟩ := rows e "due" _ old ⟨none, none⟩ rfl
    (show at? old none ∈ [at? recent (some false), at? old none, at? recent none] by simp) (by decide)
  obtain ⟨row, member, c, shows, element⟩ := makes (by decide) ["due", "done"] (by simp) (by
    intro other asked _
    simp only [List.mem_cons, List.not_mem_nil, or_false] at asked
    obtain rfl | rfl := asked
    · exact List.cons_ne_nil _ _
    · exact List.cons_ne_nil _ _)
  have given := read ["due", "done"] row member c shows element
  rw [micros] at given
  exact ⟨micros, row, member, given⟩

end EntityStore
