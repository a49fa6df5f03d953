import EntityStore.Query.Draft
import EntityStore.Proofs.DraftRuns

set_option autoImplicit false

namespace EntityStore

open Drafting

namespace QueryCall

/-- The orders that a call adds. -/
def addedOrders : QueryCall → List Order
  | .orders added => added
  | _ => []

/-- The projections that a call adds. -/
def addedProjections : QueryCall → List Projection
  | .projections added => added
  | _ => []

/-- The properties by which a call groups in addition. -/
def addedGroupBy : QueryCall → List String
  | .groupBy added => added
  | _ => []

end QueryCall

namespace QueryDraft

/-- Whether a draft refuses a call, and with what fault: another projection for keys, a negative number of rows, or
building a query for projected rows without a projection. -/
inductive Refuses (d : QueryDraft) : QueryCall → QueryFault → Prop where
  | projections (projections : List Projection) (keys : d.fields.resultType = .keyOnly)
      (projecting : d.fields.projections ≠ []) : Refuses d (.projections projections) .keyOnlyProjection
  | limit {n : Int} (negative : n < 0) : Refuses d (.limit (some n)) .negativeLimit
  | offset {n : Int} (negative : n < 0) : Refuses d (.offset n) .negativeOffset
  | build (projected : d.fields.resultType = .projection) (bare : d.fields.projections = []) :
      Refuses d .build .noProjection

/-- What a call can come to: the answer, and the draft that it leaves. -/
inductive Turns (d : QueryDraft) : QueryCall → Except Error (Option StructuredQuery) → QueryDraft → Prop where
  | inNamespace (namespaceName : Option String) :
      Turns d (.inNamespace namespaceName) (.ok none) ⟨{ d.fields with namespaceName }⟩
  | kind (kind : Option String) : Turns d (.kind kind) (.ok none) ⟨{ d.fields with kind }⟩
  | filter (filter : Filter) : Turns d (.filter filter) (.ok none) ⟨{ d.fields with filter := some filter }⟩
  | orders (orders : List Order) :
      Turns d (.orders orders) (.ok none) ⟨{ d.fields with orders := d.fields.orders ++ orders }⟩
  | projections (projections : List Projection) (free : d.fields.resultType = .keyOnly → d.fields.projections = []) :
      Turns d (.projections projections) (.ok none)
        ⟨{ d.fields with projections := d.fields.projections ++ projections }⟩
  | groupBy (properties : List String) :
      Turns d (.groupBy properties) (.ok none) ⟨{ d.fields with groupBy := d.fields.groupBy ++ properties }⟩
  | limit (limit : Option Nat) : Turns d (.limit (limit.map Int.ofNat)) (.ok none) ⟨{ d.fields with limit }⟩
  | offset (offset : Nat) : Turns d (.offset offset) (.ok none) ⟨{ d.fields with offset }⟩
  | built (complete : d.fields.resultType = .projection → d.fields.projections ≠ []) :
      Turns d .build (.ok (some d.fields)) d
  | refused {c : QueryCall} {fault : QueryFault} (refuses : d.Refuses c fault) : Turns d c (.error fault.error) d

/-- A number of rows is refused if it is negative, and else it passes as it is. -/
theorem rowCount_cases (fault : QueryFault) (n : Int) :
    n < 0 ∧ rowCount fault n = .error fault.error ∨ ∃ m : Nat, n = m ∧ rowCount fault n = .ok m := by
  by_cases negative : n < 0
  · exact .inl ⟨negative, if_pos negative⟩
  · exact .inr ⟨n.toNat, (Int.toNat_of_nonneg (Int.not_lt.mp negative)).symm, if_neg negative⟩

theorem build_eq_ok_iff {d : QueryDraft} {q : StructuredQuery} :
    d.build = .ok q ↔ q = d.fields ∧ (d.fields.resultType = .projection → d.fields.projections ≠ []) := by
  rw [build]
  by_cases bare : d.fields.resultType = .projection ∧ d.fields.projections = []
  · rw [if_pos bare]
    exact iff_of_false nofun fun made => made.2 bare.1 bare.2
  · rw [if_neg bare, Except.ok.injEq, eq_comm]
    exact (and_iff_left (not_and.mp bare)).symm

theorem turns (d : QueryDraft) (c : QueryCall) : Turns d c (answer call d c) (next call d c) := by
  unfold answer next
  cases c with
  | inNamespace namespaceName => exact .inNamespace namespaceName
  | kind kind => exact .kind kind
  | filter filter => exact .filter filter
  | orders orders => exact .orders orders
  | groupBy properties => exact .groupBy properties
  | projections projections =>
      rw [call, perform_quiet, addProjections, perform_current_bind, checkProjecting]
      by_cases held : d.fields.resultType = .keyOnly ∧ d.fields.projections ≠ []
      · rw [if_pos held]
        exact .refused (.projections projections held.1 held.2)
      · rw [if_neg held]
        exact .projections projections fun keys => not_not.mp (not_and.mp held keys)
  | limit limit =>
      rw [call, perform_quiet, setLimit, perform_checked_change]
      cases limit with
      | none => exact .limit none
      | some n =>
          rcases rowCount_cases .negativeLimit n with ⟨negative, fails⟩ | ⟨m, rfl, passes⟩
          · rw [Option.mapM_some, fails]
            exact .refused (.limit negative)
          · rw [Option.mapM_some, passes]
            exact .limit (some m)
  | offset n =>
      rw [call, perform_quiet, setOffset, perform_checked_change]
      rcases rowCount_cases .negativeOffset n with ⟨negative, fails⟩ | ⟨m, rfl, passes⟩
      · rw [fails]
        exact .refused (.offset negative)
      · rw [passes]
        exact .offset m
  | build =>
      rw [call, perform_making, build]
      by_cases bare : d.fields.resultType = .projection ∧ d.fields.projections = []
      · rw [if_pos bare]
        exact .refused (.build bare.1 bare.2)
      · rw [if_neg bare]
        exact .built (not_and.mp bare)

section Turn

variable {d after : QueryDraft} {c : QueryCall} {result : Except Error (Option StructuredQuery)}

/-- A call that fails leaves the draft as it was. -/
theorem Turns.of_error {e : Error} (turn : Turns d c result after) (failed : result = .error e) : after = d := by
  cases turn with
  | built | refused => rfl
  | _ => cases failed

theorem Refuses.unique {fault other : QueryFault} (refuses : d.Refuses c fault) (too : d.Refuses c other) :
    fault = other := by
  cases refuses <;> cases too <;> rfl

theorem Refuses.negative_of_limit {limit : Option Int} {fault : QueryFault} (refuses : d.Refuses (.limit limit) fault) :
    ∃ n < 0, limit = some n := by
  cases refuses with
  | limit negative => exact ⟨_, negative, rfl⟩

/-- A call that succeeds is none that the draft refuses. -/
theorem Turns.not_refuses {a : Option StructuredQuery} (turn : Turns d c result after) (success : result = .ok a)
    (fault : QueryFault) : ¬ d.Refuses c fault := by
  intro refuses
  cases turn with
  | projections _ free => cases refuses with
    | projections _ keys projecting => exact projecting (free keys)
  | limit limit =>
      obtain ⟨n, negative, given⟩ := refuses.negative_of_limit
      obtain ⟨m, -, rfl⟩ := Option.map_eq_some_iff.mp given
      exact absurd negative (Int.not_lt.mpr (Int.natCast_nonneg m))
  | offset m => cases refuses with
    | offset negative => exact absurd negative (Int.not_lt.mpr (Int.natCast_nonneg m))
  | built complete => cases refuses with
    | build projected bare => exact complete projected bare
  | refused => cases success
  | inNamespace | kind | filter | orders | groupBy => cases refuses

theorem Turns.error_iff {e : Error} (turn : Turns d c result after) :
    result = .error e ↔ ∃ fault, d.Refuses c fault ∧ e = fault.error := by
  constructor
  · intro failed
    cases turn with
    | @refused _ fault refuses => exact ⟨fault, refuses, (Except.error.inj failed).symm⟩
    | _ => cases failed
  · rintro ⟨fault, refuses, rfl⟩
    cases result with
    | ok a => exact absurd refuses (turn.not_refuses rfl fault)
    | error e =>
        cases turn with
        | refused too => rw [refuses.unique too]

theorem Turns.resultType_eq (turn : Turns d c result after) : after.fields.resultType = d.fields.resultType := by
  cases turn <;> rfl

theorem Turns.orders_added {a : Option StructuredQuery} (turn : Turns d c (.ok a) after) :
    after.fields.orders = d.fields.orders ++ c.addedOrders := by
  cases turn with
  | orders => rfl
  | _ => exact (List.append_nil _).symm

theorem Turns.projections_added {a : Option StructuredQuery} (turn : Turns d c (.ok a) after) :
    after.fields.projections = d.fields.projections ++ c.addedProjections := by
  cases turn with
  | projections => rfl
  | _ => exact (List.append_nil _).symm

theorem Turns.groupBy_added {a : Option StructuredQuery} (turn : Turns d c (.ok a) after) :
    after.fields.groupBy = d.fields.groupBy ++ c.addedGroupBy := by
  cases turn with
  | groupBy => rfl
  | _ => exact (List.append_nil _).symm

/-- A draft for keys keeps its one projection. -/
theorem Turns.keys_kept (turn : Turns d c result after)
    (keys : d.fields.resultType = .keyOnly → d.fields.projections = [⟨keyProperty, false⟩]) :
    after.fields.resultType = .keyOnly → after.fields.projections = [⟨keyProperty, false⟩] := by
  cases turn with
  | projections added free =>
      intro asked
      exact absurd ((keys asked).symm.trans (free asked)) (List.cons_ne_nil _ _)
  | _ => exact keys

end Turn

section Run

variable (seed : QueryDraft) (calls : List QueryCall)

theorem next_of_error (d : QueryDraft) (c : QueryCall) (e : Error) : answer call d c = .error e → next call d c = d :=
  (turns d c).of_error

theorem turns_of_ok {d : QueryDraft} {c : QueryCall} {a : Option StructuredQuery} (success : answer call d c = .ok a) :
    Turns d c (.ok a) (next call d c) := success ▸ turns d c

/-- Whether a query has the parts of another one and what calls gave: orders, projections and groups one behind the
other, and of every other part what came last. -/
structure Assembled (start : StructuredQuery) (calls : List QueryCall) (q : StructuredQuery) : Prop where
  resultType : q.resultType = start.resultType
  namespaceName : ∃ later,
    LastGiven (fun c x => c = QueryCall.inNamespace x) start.namespaceName calls q.namespaceName later
  kind : ∃ later, LastGiven (fun c x => c = QueryCall.kind x) start.kind calls q.kind later
  filter : ∃ later, LastGiven (fun c x => ∃ f, c = QueryCall.filter f ∧ x = some f) start.filter calls q.filter later
  orders : q.orders = start.orders ++ calls.flatMap QueryCall.addedOrders
  projections : q.projections = start.projections ++ calls.flatMap QueryCall.addedProjections
  groupBy : q.groupBy = start.groupBy ++ calls.flatMap QueryCall.addedGroupBy
  limit : ∃ later,
    LastGiven (fun c x => c = QueryCall.limit x) (start.limit.map Int.ofNat) calls (q.limit.map Int.ofNat) later
  offset : ∃ later, LastGiven (fun c x => c = QueryCall.offset x) (start.offset : Int) calls (q.offset : Int) later

section Parts

variable {β : Type} {Gives : QueryCall → β → Prop}

theorem lastGiven_part (part : StructuredQuery → β)
    (replaced : ∀ {d after c a x}, Turns d c (.ok a) after → Gives c x → part after.fields = x)
    (kept : ∀ {d after c result}, Turns d c result after → (∀ x, ¬ Gives c x) → part after.fields = part d.fields) :
    ∃ later,
      LastGiven Gives (part seed.fields) (succeeded call seed calls) (part (left call seed calls).fields) later :=
  lastGiven_succeeded (fun d : QueryDraft => part d.fields) next_of_error
    (fun _ _ _ _ success gives => replaced (turns_of_ok success) gives) (fun d c => kept (turns d c)) seed calls

theorem added_part (part : StructuredQuery → List β) (adds : QueryCall → List β)
    (added : ∀ {d after c a}, Turns d c (.ok a) after → part after.fields = part d.fields ++ adds c) :
    part (left call seed calls).fields = part seed.fields ++ (succeeded call seed calls).flatMap adds :=
  left_added calls next_of_error (fun d => part d.fields) adds fun _ _ _ success => added (turns_of_ok success)

end Parts

theorem assembled_left : Assembled seed.fields (succeeded call seed calls) (left call seed calls).fields where
  resultType := left_induction (P := fun d => d.fields.resultType = seed.fields.resultType) call rfl
    (fun d c => (turns d c).resultType_eq.trans) calls
  namespaceName := by
    refine lastGiven_part seed calls StructuredQuery.namespaceName ?_ ?_
    · rintro d after _ a x turn rfl
      cases turn
      rfl
    · intro d after c result turn silent
      cases turn with
      | inNamespace x => exact absurd rfl (silent x)
      | _ => rfl
  kind := by
    refine lastGiven_part seed calls StructuredQuery.kind ?_ ?_
    · rintro d after _ a x turn rfl
      cases turn
      rfl
    · intro d after c result turn silent
      cases turn with
      | kind x => exact absurd rfl (silent x)
      | _ => rfl
  filter := by
    refine lastGiven_part seed calls StructuredQuery.filter ?_ ?_
    · rintro d after _ a _ turn ⟨f, rfl, rfl⟩
      cases turn
      rfl
    · intro d after c result turn silent
      cases turn with
      | filter f => exact absurd ⟨f, rfl, rfl⟩ (silent (some f))
      | _ => rfl
  orders := added_part seed calls StructuredQuery.orders QueryCall.addedOrders Turns.orders_added
  projections := added_part seed calls StructuredQuery.projections QueryCall.addedProjections Turns.projections_added
  groupBy := added_part seed calls StructuredQuery.groupBy QueryCall.addedGroupBy Turns.groupBy_added
  limit := by
    refine lastGiven_part seed calls (·.limit.map Int.ofNat) ?_ ?_
    · rintro d after _ a x turn rfl
      cases turn
      rfl
    · intro d after c result turn silent
      cases turn with
      | limit n => exact absurd rfl (silent _)
      | _ => rfl
  offset := by
    refine lastGiven_part seed calls (fun q => (q.offset : Int)) ?_ ?_
    · rintro d after _ a x turn rfl
      cases turn
      rfl
    · intro d after c result turn silent
      cases turn with
      | offset n => exact absurd rfl (silent _)
      | _ => rfl

end Run

/-- Whether a draft for rows of a type was opened after some calls: at the start, or again from a query that they
built. -/
inductive Opened (resultType : ResultType) : List QueryCall → QueryDraft → Prop where
  | start : Opened resultType [] (start resultType)
  | again {before calls : List QueryCall} {seed : QueryDraft} {q : StructuredQuery}
      (opened : Opened resultType before seed) (built : (left call seed calls).build = .ok q) :
      Opened resultType (before ++ calls) (ofQuery q)

section Opening

variable {resultType : ResultType} {before : List QueryCall} {seed : QueryDraft}

/-- A query that is opened again is the draft that it was built from. -/
theorem ofQuery_of_build {d : QueryDraft} {q : StructuredQuery} (built : d.build = .ok q) : ofQuery q = d :=
  congrArg ofQuery (build_eq_ok_iff.mp built).1

/-- What was opened last is what all calls before leave of the first draft. -/
theorem Opened.eq_left (opened : Opened resultType before seed) :
    seed = left call (QueryDraft.start resultType) before := by
  induction opened with
  | start => rfl
  | again _ built ih => rw [ofQuery_of_build built, left_append, ← ih]

theorem resultType_start (resultType : ResultType) : (start resultType).fields.resultType = resultType := by
  cases resultType <;> rfl

theorem keys_start (resultType : ResultType) (keys : (start resultType).fields.resultType = .keyOnly) :
    (start resultType).fields.projections = [⟨keyProperty, false⟩] := by
  rw [resultType_start] at keys
  subst keys
  rfl

theorem resultType_left (calls : List QueryCall) :
    (left call (start resultType) calls).fields.resultType = resultType :=
  (assembled_left (start resultType) calls).resultType.trans (resultType_start resultType)

/-- A draft for keys projects the key and nothing else, whatever is called. -/
theorem keys_left (keys : resultType = .keyOnly) (calls : List QueryCall) :
    (left call (start resultType) calls).fields.projections = [⟨keyProperty, false⟩] :=
  left_induction (P := fun d => d.fields.resultType = .keyOnly → d.fields.projections = [⟨keyProperty, false⟩]) call
    (keys_start resultType) (fun d c => (turns d c).keys_kept) calls ((resultType_left calls).trans keys)

/-- Whether calls are such that can succeed on a draft for rows of a type: no number of rows is negative, and nothing
is projected for keys. -/
structure Permitted (resultType : ResultType) (calls : List QueryCall) : Prop where
  limit : ∀ n, QueryCall.limit (some n) ∈ calls → 0 ≤ n
  offset : ∀ n, QueryCall.offset n ∈ calls → 0 ≤ n
  projections : resultType = .keyOnly → ∀ projections, QueryCall.projections projections ∉ calls

theorem permitted_succeeded (resultType : ResultType) (calls : List QueryCall) :
    Permitted resultType (succeeded call (start resultType) calls) := by
  have free {c : QueryCall} (member : c ∈ succeeded call (start resultType) calls) :
      ∃ before, ∀ fault, ¬ (left call (start resultType) before).Refuses c fault := by
    obtain ⟨before, _, a, -, success⟩ := exists_of_mem_succeeded call (start resultType) calls member
    exact ⟨before, (turns _ c).not_refuses success⟩
  refine ⟨fun n member => ?_, fun n member => ?_, fun keys projections member => ?_⟩
  · obtain ⟨before, free⟩ := free member
    exact Int.not_lt.mp fun negative => free _ (.limit negative)
  · obtain ⟨before, free⟩ := free member
    exact Int.not_lt.mp fun negative => free _ (.offset negative)
  · -- The projection that a draft for keys starts with is what makes it refuse any other.
    obtain ⟨before, free⟩ := free member
    refine free _ (.projections projections ((resultType_left before).trans keys) ?_)
    rw [keys_left keys before]
    exact List.cons_ne_nil _ _

end Opening

/-- A draft of a query, opened once or again from what was built before, holds what the calls that succeeded gave:
lists one behind the other, and of all else what came last.  A call that fails changes nothing. -/
theorem assembled_call_by_call {resultType : ResultType} {before : List QueryCall} {seed : QueryDraft}
    (opened : Opened resultType before seed) (calls : List QueryCall) :
    let d := left call seed calls
    let done := succeeded call (start resultType) (before ++ calls)
    Assembled seed.fields (succeeded call seed calls) d.fields ∧
      Assembled (start resultType).fields done d.fields ∧
      Permitted resultType done ∧
      (∀ c e, answer call d c = .error e ↔ ∃ fault, d.Refuses c fault ∧ e = fault.error) ∧
      (∀ c e, answer call d c = .error e → next call d c = d) ∧
      (∀ q, d.build = .ok q ↔ q = d.fields ∧ (resultType = .projection → q.projections ≠ [])) ∧
      (∀ q, d.build = .ok q → q.resultType = resultType ∧
        (resultType = .keyOnly → q.projections = [⟨keyProperty, false⟩]) ∧
        ofQuery q = d ∧ answer call (ofQuery q) .build = .ok (some q)) ∧
      next call d .build = d ∧
      ∀ more, (answers call seed (calls ++ .build :: more))[calls.length]? = some (some <$> d.build) := by
  intro d done
  -- A query that is opened again is the draft that it was built from, so all calls count as calls on the first draft.
  have continued : d = left call (start resultType) (before ++ calls) := by
    rw [left_append, ← opened.eq_left]
  have typed : d.fields.resultType = resultType := continued ▸ resultType_left (before ++ calls)
  have built : (call .build).perform d = (some <$> d.build, d) := perform_making d build
  refine ⟨assembled_left seed calls, ?_, permitted_succeeded resultType (before ++ calls),
    fun c e => (turns d c).error_iff, next_of_error d, fun q => ?_, fun q made => ?_, congrArg Prod.snd built,
    fun more => ?_⟩
  · rw [continued]
    exact assembled_left (start resultType) (before ++ calls)
  · rw [build_eq_ok_iff, typed]
    refine and_congr_right fun same => ?_
    rw [same]
  · have again : ofQuery q = d := ofQuery_of_build made
    obtain ⟨rfl, -⟩ := build_eq_ok_iff.mp made
    refine ⟨typed, fun keys => ?_, again, ?_⟩
    · rw [continued]
      exact keys_left keys (before ++ calls)
    · rw [again, answer, built, made]
      rfl
  · exact (answers_at call _ calls _ more).trans (congrArg (some ·.1) built)

/-- A query for keys of tasks is opened again.  A projection is refused before and a negative limit after; the orders
stand one behind the other, and the limit is the one set before. -/
theorem assembled_call_by_call_of_reopened :
    let title : Projection := ⟨"title", false⟩
    let age : Order := ⟨"age", .descending⟩
    let name : Order := ⟨"name", .ascending⟩
    let before : List QueryCall :=
      [.kind (some "Task"), .limit (some 3), .projections [title], .orders [age], .offset 5]
    let q : StructuredQuery :=
      { resultType := .keyOnly, namespaceName := none, kind := some "Task", filter := none, orders := [age],
        projections := [⟨keyProperty, false⟩], groupBy := [], limit := some 3, offset := 5 }
    let calls : List QueryCall := [.limit (some (-1)), .offset 2, .orders [name]]
    let d := left call (ofQuery q) calls
    Opened .keyOnly before (ofQuery q) ∧
      answer call d (.projections [title]) = .error QueryFault.keyOnlyProjection.error ∧
      next call d (.projections [title]) = d ∧
      succeeded call (start .keyOnly) (before ++ calls) =
        [.kind (some "Task"), .limit (some 3), .orders [age], .offset 5, .offset 2, .orders [name]] ∧
      (∃ later, LastGiven (fun c x => c = QueryCall.limit x) none
        (succeeded call (start .keyOnly) (before ++ calls)) (some 3) later) ∧
      d.build = .ok { q with orders := [age, name], offset := 2 } ∧
      ofQuery { q with orders := [age, name], offset := 2 } = d := by
  intro title age name before q calls d
  have opened : Opened .keyOnly before (ofQuery q) := .again .start rfl
  obtain ⟨-, parts, -, -, kept, -, again, -⟩ := assembled_call_by_call opened calls
  have failed : answer call d (.projections [title]) = .error QueryFault.keyOnlyProjection.error := rfl
  have built : d.build = .ok { q with orders := [age, name], offset := 2 } := rfl
  exact ⟨opened, failed, kept _ _ failed, rfl, parts.limit, built, (again _ built).2.2.1⟩

end QueryDraft

end EntityStore
