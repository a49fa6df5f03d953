import EntityStore.Proofs.DraftRuns
import EntityStore.Proofs.Equivalence
import EntityStore.Value.Draft

set_option autoImplicit false

namespace EntityStore

open Drafting

@[simp] theorem Value.variant_payload (v : Value) : v.payload.variant = v.variant := by cases v <;> rfl

@[simp] theorem Value.withMarks_payload (v : Value) (m : Marks) : v.payload.withMarks m = v.withMarks m := by
  cases v <;> rfl

@[simp] theorem Value.withMarks_marks (v : Value) : v.withMarks v.marks = v := by
  rcases v with ⟨_, _⟩ | _ <;> rfl

/-- A payload is of the sort that it was made for. -/
theorem Payload.variant_of_create {sort : Variant} {x : Datum} {p : Payload} (made : Payload.create sort x = .ok p) :
    p.variant = sort := by
  unfold Payload.create at made
  split at made
  -- integers as doubles, and moments
  case h_4 | h_11 =>
    obtain ⟨_, -, rfl⟩ := map_eq_ok_iff.mp made
    rfl
  -- integers
  case h_3 =>
    split at made
    · cases made
      rfl
    · cases made
  -- lists
  case h_14 =>
    split at made
    · obtain ⟨_, -, rfl⟩ := map_eq_ok_iff.mp made
      rfl
    · cases made
  -- data that the sort does not accept
  case h_15 => cases made
  all_goals
    cases made
    rfl

/-- A value is made of its payload and its marks as they are handed out. -/
theorem Value.create_datum (p : Payload) (m : Marks) :
    Value.create p.variant p.datum (some m.indexedDatum) m.meaningDatum = .ok (p.withMarks m) := by
  obtain ⟨indexed, meaning⟩ := m
  have kept : Payload.create p.variant p.datum = .ok p := p.create_datum
  cases indexed <;> cases meaning <;> rw [Value.create, kept] <;> rfl

/-! ### Values and their own parts -/

/-- Whether a value is itself a not-a-number; a list or an entity that holds some is none. -/
def Value.isNaN : Value → Bool
  | single x => x.isNaN
  | list _ _ => false

section Sharing

variable {identical : Value → Value → Bool} (self : ∀ part, identical part part = true)

include self

theorem sameItems_self (items : List Element) : sameItems items items identical = true := by
  induction items with
  | nil => rfl
  | cons first rest ih => simp [sameItems, self, ih]

theorem AnyEntity.same_self (e : AnyEntity) : e.same e identical = true := by
  have within : propertiesWithin e.properties [] e.properties identical = true :=
    propertiesWithin_of_at? fun name _ v found => ⟨v, found, by simp [self]⟩
  have bound : (e.properties.all fun p => Bindings.binds e.properties p.1) = true := by
    rw [List.all_eq_true]
    intro p member
    cases found : e.properties.at? p.1 with
    | some v => rw [Bindings.binds, found, Option.isSome_some]
    | none => exact absurd (List.mem_map_of_mem member) ((Bindings.at?_eq_none_iff _ _).mp found)
  simp [same_eq e e identical, within, bound]

/-- A value equals itself if its parts may be found to be the same objects, unless it is itself a not-a-number. -/
theorem Value.same_self (v : Value) : v.same v identical = !v.isNaN := by
  cases v with
  | list items m => simp [same, isNaN, sameItems_self self]
  | single x =>
      obtain ⟨s, m⟩ := x
      cases s with
      | double x => simp [same, Element.same, Scalar.same, isNaN, Element.isNaN, Double.same]
      | entity e => simp [same, Element.same, Scalar.same, isNaN, Element.isNaN, AnyEntity.same_self self]
      | _ => simp [same, Element.same, Scalar.same, isNaN, Element.isNaN]

end Sharing

namespace ValueDraft

/-- The draft with a payload and nothing else changed. -/
def holding (d : ValueDraft) (p : Payload) : ValueDraft := { d with payload? := some p }

theorem holding_of_payload? {d : ValueDraft} {p : Payload} (set : d.payload? = some p) : d.holding p = d := by
  unfold holding
  rw [← set]

/-- A draft with a payload of its sort is built with this payload and its marks. -/
theorem build_holding {d : ValueDraft} {p : Payload} (sort : p.variant = d.variant) :
    (d.holding p).build = .ok (p.withMarks d.marks) := by
  have checked : (d.holding p).build =
      Value.create d.variant p.datum (some d.marks.indexedDatum) d.marks.meaningDatum := rfl
  rw [checked, ← sort, Value.create_datum]

/-! ### Calls -/

/-- What comes of a check: its result is put into the draft, or the draft stays as it was. -/
def settled {α : Type} (d : ValueDraft) (put : α → ValueDraft) :
    Except Error α → Except Error (Option Value) × ValueDraft
  | .ok a => (.ok none, put a)
  | .error e => (.error e, d)

theorem settled_of_error {α : Type} {d : ValueDraft} {put : α → ValueDraft} {check : Except Error α} {e : Error}
    (failed : (d.settled put check).1 = .error e) : (d.settled put check).2 = d := by
  cases check with
  | ok a => cases failed
  | error e => rfl

section Calls

variable (d : ValueDraft)

theorem perform_quiet_checked {α : Type} (check : Except Error α) (put : α → ValueDraft → ValueDraft) :
    (quiet (checked check >>= fun a => change (put a)) : Drafting ValueDraft (Option Value)).perform d =
      d.settled (put · d) check := by
  rw [perform_quiet, perform_checked_change]
  cases check <;> rfl

theorem perform_set (x : Datum) :
    (call (.set x)).perform d = d.settled d.holding (Payload.create d.variant x) := by
  show _ = d.settled (fun p => (fun d => d.holding p) d) _
  rw [← perform_quiet_checked d _ fun p d => d.holding p]
  simp only [call, setPayload, perform_quiet, perform_current_bind, holding]

theorem perform_indexed (x : Datum) : (call (.indexed x)).perform d =
    d.settled (fun b => { d with marks.indexed := some b }) (createIndexed x) :=
  perform_quiet_checked d _ _

theorem perform_meaning (x : Datum) : (call (.meaning x)).perform d =
    d.settled (fun n => { d with marks.meaning := some n }) (createMeaning x) :=
  perform_quiet_checked d _ _

/-- A value that is taken over gives all its parts at once. -/
theorem perform_mergeFrom (x : Datum) : (call (.mergeFrom x)).perform d =
    d.settled (fun v => ⟨d.variant, some v.payload, v.marks⟩) (d.ownValue x) := by
  simp only [call, mergeFrom, perform_quiet, perform_current_bind]
  cases d.ownValue x with
  | error e =>
      rw [perform_checked_bind_of_error d rfl]
      rfl
  | ok v =>
      rw [perform_checked_bind_of_ok d rfl]
      rfl

theorem perform_addValues {d : ValueDraft} (list : d.variant = .list) (values : List Datum) :
    (call (.addValues values)).perform d = d.settled d.holding
      (Payload.create .list (.tuple ((d.items.map fun x => .value (.single x)) ++ values))) := by
  show _ = d.settled (fun p => (fun d => d.holding p) d) _
  rw [← perform_quiet_checked d _ fun p d => d.holding p]
  simp only [call, addValues, perform_quiet, perform_current_bind, if_pos list, holding]

theorem perform_addValues_of_ne {d : ValueDraft} (other : d.variant ≠ .list) (values : List Datum) :
    (call (.addValues values)).perform d = (.error (.failure .unsupported), d) := by
  simp only [call, addValues, perform_quiet, perform_current_bind, if_neg other]
  rfl

theorem perform_build {p : Payload} (final : d.finalPayload = .ok p) :
    (call .build).perform d = (some <$> (d.holding p).build, d.holding p) := by
  have settles : settle.perform d = (.ok (), d.holding p) := by
    rw [settle, perform_current_bind, final, perform_checked_change]
    rfl
  rw [call, perform_bind_of_ok d settles, perform_making]

theorem perform_build_of_error {e : Error} (unset : d.finalPayload = .error e) :
    (call .build).perform d = (.error e, d) := by
  have stops : settle.perform d = (.error e, d) := by
    rw [settle, perform_current_bind, unset, perform_checked_change]
  rw [call, perform_bind_of_error d stops]

/-- A call that fails leaves the draft as it was. -/
theorem next_of_error {c : ValueCall} {e : Error} (failed : answer call d c = .error e) : next call d c = d := by
  unfold answer at failed
  unfold next
  cases c with
  | set x =>
      rw [perform_set] at failed ⊢
      exact settled_of_error failed
  | indexed x =>
      rw [perform_indexed] at failed ⊢
      exact settled_of_error failed
  | meaning x =>
      rw [perform_meaning] at failed ⊢
      exact settled_of_error failed
  | mergeFrom x =>
      rw [perform_mergeFrom] at failed ⊢
      exact settled_of_error failed
  | addValues values =>
      by_cases list : d.variant = .list
      · rw [perform_addValues list] at failed ⊢
        exact settled_of_error failed
      · rw [perform_addValues_of_ne list]
  | build =>
      cases final : d.finalPayload with
      | error e => rw [perform_build_of_error d final]
      | ok p =>
          rw [perform_build d final] at failed ⊢
          unfold finalPayload at final
          split at final
          · next set =>
              cases final
              exact holding_of_payload? set
          -- Only the empty value is built without a payload, and this does not fail.
          · split at final
            · next null =>
                cases final
                have sort : (Payload.scalar .null).variant = d.variant := null.symm
                rw [build_holding sort] at failed
                cases failed
            · cases final

end Calls

/-! ### Values again -/

section Rebuilding

variable {d : ValueDraft} {p : Payload}

theorem next_mergeFrom (v : Value) : next call (empty v.variant) (.mergeFrom (.value v)) = ofValue v := by
  have own : (empty v.variant).ownValue (.value v) = .ok v := if_pos rfl
  rw [next, perform_mergeFrom, own]
  rfl

theorem next_set {x : Datum} (fits : Payload.create d.variant x = .ok p) : next call d (.set x) = d.holding p := by
  rw [next, perform_set, fits]
  rfl

theorem answer_build (sort : p.variant = d.variant) :
    answer call (d.holding p) .build = .ok (some (p.withMarks d.marks)) := by
  have final : (d.holding p).finalPayload = .ok p := rfl
  rw [answer, perform_build _ final]
  exact congrArg (some <$> ·) (build_holding sort)

end Rebuilding

/-! ### Lists piece by piece -/

section Lists

variable {d : ValueDraft} (list : d.variant = .list)

include list

theorem next_set_items {items : List Element} {sequence : Datum}
    (given : sequence.items? = some (items.map fun x => .value (.single x))) :
    next call d (.set sequence) = d.holding (.list items) := by
  refine next_set ?_
  rw [list]
  simp only [Payload.create, given, elements_values]
  rfl

theorem next_addValues (before items : List Element) :
    next call (d.holding (.list before)) (.addValues (items.map fun x => .value (.single x))) =
      d.holding (.list (before ++ items)) := by
  have there : (d.holding (.list before)).items = before := rfl
  rw [next, perform_addValues (d := d.holding (.list before)) list, there, ← List.map_append]
  simp only [Payload.create, Datum.items?, elements_values]
  rfl

/-- Values that are added piece by piece stand in the order in which they were added. -/
theorem left_addValues (before : List Element) (chunks : List (List Element)) :
    left call (d.holding (.list before)) (chunks.map fun items => .addValues (items.map fun x => .value (.single x))) =
      d.holding (.list (before ++ chunks.flatten)) := by
  induction chunks generalizing before with
  | nil =>
      rw [List.flatten_nil, List.append_nil]
      rfl
  | cons items chunks ih =>
      rw [List.map_cons, left, List.foldl_cons, next_addValues list]
      refine (ih (before ++ items)).trans ?_
      rw [List.flatten_cons, List.append_assoc]

end Lists

/-- A value is built again from a draft of it and from its parts, and equals what is built unless it is a not-a-number.
Replacing one part keeps the others, and a call that fails leaves a draft as it was. -/
theorem round_trips (v : Value) :
    let d := left call (empty v.variant) [.mergeFrom (.value v)]
    answer call d .build = .ok (some v) ∧
      Payload.create v.variant v.payload.datum = .ok v.payload ∧
      Value.create v.variant v.payload.datum (some v.marks.indexedDatum) v.marks.meaningDatum = .ok v ∧
      (∀ identical : Value → Value → Bool, (∀ part, identical part part = true) → v.same v identical = !v.isNaN) ∧
      (∀ x p, Payload.create v.variant x = .ok p →
        answer call (next call d (.set x)) .build = .ok (some (p.withMarks v.marks))) ∧
      (∀ b, answer call (next call d (.indexed (.bool b))) .build =
        .ok (some (v.withMarks { v.marks with indexed := some b }))) ∧
      (∀ n, answer call (next call d (.meaning (.int n))) .build =
        .ok (some (v.withMarks { v.marks with meaning := some n }))) ∧
      (∀ d : ValueDraft, d.variant = .list → ∀ (sequence : Datum) (first : List Element) (chunks : List (List Element)),
        sequence.items? = some (first.map fun x => .value (.single x)) →
        answer call (left call d (.set sequence ::
            chunks.map fun items => .addValues (items.map fun x => .value (.single x)))) .build =
          .ok (some (.list (first ++ chunks.flatten) d.marks))) ∧
      ∀ (d : ValueDraft) (c : ValueCall) (e : Error), answer call d c = .error e → next call d c = d := by
  intro d
  have taken : d = ofValue v := next_mergeFrom v
  have again : Payload.create v.variant v.payload.datum = .ok v.payload := by
    rw [← v.variant_payload]
    exact v.payload.create_datum
  have built (m : Marks) : answer call ⟨v.variant, some v.payload, m⟩ .build = .ok (some (v.withMarks m)) := by
    rw [← v.withMarks_payload]
    exact answer_build (d := ⟨v.variant, none, m⟩) v.variant_payload
  rw [taken]
  refine ⟨?_, again, ?_, fun _ self => v.same_self self, fun x p fits => ?_, fun b => ?_, fun n => ?_,
    fun d list sequence first chunks given => ?_, fun d c e => next_of_error d⟩
  · exact (built v.marks).trans (by rw [v.withMarks_marks])
  · rw [← v.variant_payload, Value.create_datum, v.withMarks_payload, v.withMarks_marks]
  · rw [next_set fits]
    exact answer_build (Payload.variant_of_create fits)
  · exact built _
  · exact built _
  · rw [left, List.foldl_cons, next_set_items list given]
    refine (congrArg (answer call · .build) (left_addValues list first chunks)).trans ?_
    exact answer_build list.symm

/-- A not-a-number in a list in a nested entity does no harm; a list of three numbers is set and added to in two calls;
a mark for indexing that is no truth value is refused. -/
theorem round_trips_of_nested :
    let task : AnyKey := .incomplete ⟨⟨"app", by decide⟩, none, [], ⟨"Task", by decide⟩⟩
    let nested : AnyEntity := .draft task [("ratios", .list [⟨.double .nan, none, none⟩] ⟨none, none⟩)]
    let v : Value := .single ⟨.entity nested, none, some 3⟩
    let number (n : Nat) (small : n < 10) : Element := ⟨.long ⟨n, by omega⟩, none, none⟩
    let item (x : Element) : Datum := .value (.single x)
    let one := number 1 (by decide)
    let two := number 2 (by decide)
    let three := number 3 (by decide)
    let d := left call (empty .entity) [.mergeFrom (.value v)]
    answer call d .build = .ok (some v) ∧ v.same v (fun _ _ => true) = true ∧
      answer call (next call d (.meaning (.int 7))) .build = .ok (some (.single ⟨.entity nested, none, some 7⟩)) ∧
      answer call (next call d (.set (.entity (.draft task [])))) .build =
        .ok (some (.single ⟨.entity (.draft task []), none, some 3⟩)) ∧
      answer call (left call (empty .list) [.set (.list [item one]), .addValues [], .addValues [item two, item three]])
        .build = .ok (some (.list [one, two, three] ⟨none, none⟩)) ∧
      answer call d (.indexed (.int 1)) = .error ValueFault.indexed.error ∧ next call d (.indexed (.int 1)) = d := by
  intro task nested v number item one two three d
  obtain ⟨again, -, -, equal, set, -, meaning, pieces, failing⟩ := round_trips v
  have failed : answer call d (.indexed (.int 1)) = .error ValueFault.indexed.error := rfl
  refine ⟨again, equal (fun _ _ => true) fun _ => rfl, meaning 7,
    set (.entity (.draft task [])) (.scalar (.entity (.draft task []))) rfl, ?_, failed, failing d _ _ failed⟩
  exact pieces (empty .list) rfl (.list [item one]) [one] [[], [two, three]] rfl

/-- A not-a-number is built again as it was, and yet differs from what it was built of. -/
theorem rebuilt_nan_differs :
    let v : Value := .ofScalar (.double .nan)
    answer call (left call (empty .double) [.mergeFrom (.value v)]) .build = .ok (some v) ∧
      v.same v (fun _ _ => true) = false := by
  intro v
  exact ⟨rfl, by decide⟩

end ValueDraft

end EntityStore
