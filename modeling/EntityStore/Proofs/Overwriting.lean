import EntityStore.Proofs.DraftRuns
import EntityStore.Proofs.KeyDrafts

set_option autoImplicit false

namespace EntityStore

open Drafting

namespace KeyCall

/-- Whether a call sets an id or name, which it does only with data that are one. -/
inductive Identifies : KeyCall → Identifier → Prop where
  | id (n : EntityId) : Identifies (.id (.int n.value)) (.id n)
  | name (l : Label) : Identifies (.name (.text l.text)) (.name l)
  | identifier (i : Identifier) : Identifies (.identifier i.datum) i

/-- Whether a call puts ancestors in the place of those there are. -/
inductive Replaces : KeyCall → List Datum → Prop where
  | ancestors (elements : List Datum) : Replaces (.space (.ancestors elements)) elements
  | clearAncestors : Replaces (.space .clearAncestors) []

/-- The ancestors that a call adds at the end. -/
def added : KeyCall → List Datum
  | .space (.addAncestors elements) => elements
  | _ => []

end KeyCall

namespace KeyDraft

/-- A draft without a source, or with the parts of a key. -/
def ofSource (source : Option AnyKey) : KeyDraft := source.elim empty ofKey

/-- Whether a draft is what calls have made of another one, part by part. -/
structure Revised (start : KeyDraft) (calls : List KeyCall) (d : KeyDraft) : Prop where
  dataset : ∃ later, LastGiven (fun c x => c = KeyCall.space (.dataset x)) start.dataset calls d.dataset later
  namespaceName :
    ∃ later, LastGiven (fun c x => c = KeyCall.space (.inNamespace x)) start.namespaceName calls d.namespaceName later
  kind : ∃ later, LastGiven (fun c x => c = KeyCall.space (.kind x)) start.kind calls d.kind later
  ancestors : ∃ base later, LastGiven KeyCall.Replaces start.ancestors calls base later ∧
    d.ancestors = base ++ later.flatMap KeyCall.added
  identifier : ∃ later,
    LastGiven (fun c x => ∃ i, c.Identifies i ∧ x = some i) start.identifier? calls d.identifier? later

/-- What a call can come to: the answer, and the draft that it leaves. -/
inductive Turns (d : KeyDraft) : KeyCall → Except Error (Option Key) → KeyDraft → Prop where
  | space (c : PartialKeyCall) : Turns d (.space c) (.ok none) (d.onSpace (·.after c))
  | identified {c : KeyCall} {i : Identifier} (sets : c.Identifies i) : Turns d c (.ok none) (d.identified i)
  | built : Turns d .build (some <$> d.build) d
  | refused {c : KeyCall} {e : Error} (space : ∀ s, c ≠ .space s) (build : c ≠ .build) (sets : ∀ i, ¬ c.Identifies i) :
      Turns d c (.error e) d

theorem perform_of_identifies {c : KeyCall} {i : Identifier} (sets : c.Identifies i) (d : KeyDraft) :
    (call c).perform d = (.ok none, d.identified i) := by
  cases sets with
  | id n =>
      rw [call, perform_quiet, perform_setId, EntityId.create_eq_ok_iff.mpr rfl]
      rfl
  | name l =>
      rw [call, perform_quiet, perform_setName, Label.createName_eq_ok_iff.mpr rfl]
      rfl
  | identifier i =>
      rw [call, perform_quiet, perform_setIdentifier, Identifier.create_eq_ok_iff.mpr rfl]
      rfl

/-- A call that sets what a datum identifies succeeds if the datum identifies something, and else does nothing. -/
theorem Turns.of_settled {d : KeyDraft} {c : KeyCall} {set : Drafting KeyDraft Unit} {check : Except Error Identifier}
    (called : call c = quiet set) (settles : set.perform d = d.settled check)
    (checks : ∀ i, check = .ok i ↔ c.Identifies i) (space : ∀ s, c ≠ .space s) (build : c ≠ .build) :
    Turns d c (answer call d c) (next call d c) := by
  unfold answer next
  rw [called, perform_quiet, settles]
  cases result : check with
  | ok i => exact .identified ((checks i).mp result)
  | error e =>
      refine .refused space build fun i sets => ?_
      rw [(checks i).mpr sets] at result
      cases result

theorem turns (d : KeyDraft) (c : KeyCall) : Turns d c (answer call d c) (next call d c) := by
  cases c with
  | space s => exact .space s
  | id x =>
      refine .of_settled rfl (perform_setId d x) (fun i => ?_) nofun nofun
      simp only [map_eq_ok_iff, EntityId.create_eq_ok_iff]
      constructor
      · rintro ⟨n, rfl, rfl⟩
        exact .id n
      · rintro ⟨⟩
        exact ⟨_, rfl, rfl⟩
  | name x =>
      refine .of_settled rfl (perform_setName d x) (fun i => ?_) nofun nofun
      simp only [map_eq_ok_iff, Label.createName_eq_ok_iff]
      constructor
      · rintro ⟨l, rfl, rfl⟩
        exact .name l
      · rintro ⟨⟩
        exact ⟨_, rfl, rfl⟩
  | identifier x =>
      refine .of_settled rfl (perform_setIdentifier d x) (fun i => ?_) nofun nofun
      rw [Identifier.create_eq_ok_iff]
      constructor
      · rintro rfl
        exact .identifier i
      · rintro ⟨⟩
        rfl
  | build =>
      unfold answer next
      rw [call, perform_making]
      exact .built

section Turn

variable {d after : KeyDraft} {c : KeyCall} {result : Except Error (Option Key)}

/-- A call that fails leaves the draft as it was. -/
theorem Turns.of_error {e : Error} (turn : Turns d c result after) (failed : result = .error e) : after = d := by
  cases turn with
  | space | identified => cases failed
  | built | refused => rfl

/-- The calls that succeed, but for building, are those that set a part of the space or an id or name. -/
theorem Turns.quiet_iff (turn : Turns d c result after) (build : c ≠ .build) :
    result = .ok none ↔ (∃ s, c = .space s) ∨ ∃ i, c.Identifies i := by
  cases turn with
  | space s => exact iff_of_true rfl (.inl ⟨s, rfl⟩)
  | identified sets => exact iff_of_true rfl (.inr ⟨_, sets⟩)
  | built => exact absurd rfl build
  | refused space _ sets => exact iff_of_false nofun (not_or.mpr ⟨not_exists.mpr space, not_exists.mpr sets⟩)

/-- The parts of a draft but its id or name change with the calls on the space alone. -/
theorem Turns.space_parts (turn : Turns d c result after) :
    (∃ s, c = .space s ∧ after.toPartialKeyDraft = d.after s) ∨
      (∀ s, c ≠ .space s) ∧ after.toPartialKeyDraft = d.toPartialKeyDraft := by
  cases turn with
  | space s => exact .inl ⟨s, rfl, rfl⟩
  | identified sets =>
      refine .inr ⟨?_, rfl⟩
      rintro s rfl
      cases sets
  | built => exact .inr ⟨nofun, rfl⟩
  | refused space => exact .inr ⟨space, rfl⟩

/-- The id or name changes with the calls that set one alone. -/
theorem Turns.identifier_kept (turn : Turns d c result after) (sets : ∀ i, ¬ c.Identifies i) :
    after.identifier? = d.identifier? := by
  cases turn with
  | identified sets' => exact absurd sets' (sets _)
  | space | built | refused => rfl

/-- An id and a name are never set both. -/
theorem Turns.either (turn : Turns d c result after) (either : d.id? = none ∨ d.name? = none) :
    after.id? = none ∨ after.name? = none := by
  cases turn with
  | @identified _ i _ => cases i with
      | id n => exact .inr rfl
      | name l => exact .inl rfl
  | space | built | refused => exact either

end Turn

section Run

variable (start : KeyDraft) (calls : List KeyCall)

/-- A part that calls of one sort set, and no others change, is what the last of them set. -/
theorem lastGiven_part (part : PartialKeyDraft → Datum) {set : Datum → PartialKeyCall}
    (replaced : ∀ (d : PartialKeyDraft) x, part (d.after (set x)) = x)
    (kept : ∀ (d : PartialKeyDraft) s, (∀ x, s ≠ set x) → part (d.after s) = part d) :
    ∃ later, LastGiven (fun c x => c = KeyCall.space (set x)) (part start.toPartialKeyDraft) calls
      (part (left call start calls).toPartialKeyDraft) later := by
  refine lastGiven_kept (fun d => part d.toPartialKeyDraft) ?_ ?_ start calls
  · rintro d _ x rfl
    exact replaced _ x
  · intro d c other
    rcases (turns d c).space_parts with ⟨s, rfl, after⟩ | ⟨-, after⟩
    · exact (congrArg part after).trans (kept _ s fun x same => other x (congrArg _ same))
    · exact congrArg part after

theorem lastGiven_ancestors :
    ∃ base later, LastGiven KeyCall.Replaces start.ancestors calls base later ∧
      (left call start calls).ancestors = base ++ later.flatMap KeyCall.added := by
  have replaced (d : KeyDraft) (c : KeyCall) (elements : List Datum) (puts : c.Replaces elements) :
      (next call d c).ancestors = elements := by
    cases puts <;> rfl
  have extended (d : KeyDraft) (c : KeyCall) (other : ∀ elements, ¬ c.Replaces elements) :
      (next call d c).ancestors = d.ancestors ++ c.added := by
    rcases (turns d c).space_parts with ⟨s, rfl, after⟩ | ⟨space, after⟩
    · rw [after]
      cases s with
      | ancestors elements => exact absurd (.ancestors elements) (other _)
      | clearAncestors => exact absurd .clearAncestors (other _)
      | addAncestors elements => rfl
      | dataset | inNamespace | kind => exact (List.append_nil _).symm
    · rw [after]
      cases c with
      | space s => exact absurd rfl (space s)
      | _ => exact (List.append_nil _).symm
  obtain ⟨base, later, given, parts⟩ := lastGiven_left (fun d : KeyDraft => d.ancestors)
    (fun elements c => elements ++ c.added) replaced extended start calls
  exact ⟨base, later, given, parts.trans List.foldl_append_eq_append⟩

theorem lastGiven_identifier :
    ∃ later, LastGiven (fun c x => ∃ i, KeyCall.Identifies c i ∧ x = some i) start.identifier? calls
      (left call start calls).identifier? later := by
  refine lastGiven_kept identifier? ?_ ?_ start calls
  · rintro d c _ ⟨i, sets, rfl⟩
    rw [next, perform_of_identifies sets]
    exact identifier?_identified d i
  · intro d c other
    exact (turns d c).identifier_kept fun i sets => other (some i) ⟨i, sets, rfl⟩

theorem revised_left : Revised start calls (left call start calls) where
  dataset := lastGiven_part start calls PartialKeyDraft.dataset (fun _ _ => rfl) fun d s other => by
    cases s with
    | dataset x => exact absurd rfl (other x)
    | _ => rfl
  namespaceName := lastGiven_part start calls PartialKeyDraft.namespaceName (fun _ _ => rfl)
    fun d s other => by
      cases s with
      | inNamespace x => exact absurd rfl (other x)
      | _ => rfl
  kind := lastGiven_part start calls PartialKeyDraft.kind (fun _ _ => rfl) fun d s other => by
    cases s with
    | kind x => exact absurd rfl (other x)
    | _ => rfl
  ancestors := lastGiven_ancestors start calls
  identifier := lastGiven_identifier start calls

/-- An id or name is set if there was one from the start or a call has set one. -/
theorem Revised.identified_iff {start d : KeyDraft} {calls : List KeyCall} (revised : Revised start calls d) :
    (∃ i, d.identifier? = some i) ↔ (∃ i, start.identifier? = some i) ∨ ∃ c ∈ calls, ∃ i, c.Identifies i := by
  obtain ⟨later, given⟩ := revised.identifier
  generalize d.identifier? = set at given
  cases given with
  | start none =>
      have silent : ¬ ∃ c ∈ calls, ∃ i, c.Identifies i :=
        fun ⟨c, member, i, sets⟩ => none c member (some i) ⟨i, sets, rfl⟩
      rw [or_iff_left silent]
  | @call _ before _ c split gives _ =>
      obtain ⟨i, sets, rfl⟩ := gives
      have member : c ∈ calls := split ▸ List.mem_append_right before List.mem_cons_self
      exact iff_of_true ⟨i, rfl⟩ (.inr ⟨c, member, i, sets⟩)

end Run

theorem identified_ofSource_iff (source : Option AnyKey) :
    (∃ i, (ofSource source).identifier? = some i) ↔ ∃ k, source = some (.complete k) := by
  rcases source with _ | _ | ⟨space, _ | _⟩ <;> simp [ofSource, ofKey, empty, identifier?, AnyKey.identifier?,
    Identifier.id?, Identifier.name?]

theorem either_left (source : Option AnyKey) (calls : List KeyCall) :
    (left call (ofSource source) calls).id? = none ∨ (left call (ofSource source) calls).name? = none := by
  refine left_induction (P := fun d => d.id? = none ∨ d.name? = none) call ?_ (fun d c => (turns d c).either) calls
  rcases source with _ | _ | ⟨space, _ | _⟩
  · exact .inl rfl
  · exact .inl rfl
  · exact .inr rfl
  · exact .inl rfl

/-- The id and the name of a draft that never has both are those of what identifies it. -/
theorem parts_of_identifier? {d : KeyDraft} {i : Identifier} (either : d.id? = none ∨ d.name? = none)
    (set : d.identifier? = some i) : d.id? = i.id? ∧ d.name? = i.name? := by
  obtain ⟨space, id?, name?⟩ := d
  rcases id? with _ | n
  · obtain ⟨l, rfl, rfl⟩ := Option.map_eq_some_iff.mp set
    exact ⟨rfl, rfl⟩
  · cases set
    exact ⟨rfl, either.resolve_left nofun⟩

/-- A draft of a key is a record in which the last write counts and a call that fails changes nothing.  It is built if
its parts are valid and it has an id or a name, whichever came last. -/
theorem last_write_counts (source : Option AnyKey) (calls : List KeyCall) :
    let d := left call (ofSource source) calls
    Revised (ofSource source) calls d ∧
      (∀ c e, answer call d c = .error e → next call d c = d) ∧
      (∀ c, c ≠ .build → (answer call d c = .ok none ↔ (∃ s, c = .space s) ∨ ∃ i, c.Identifies i)) ∧
      ((∃ k, d.build = .ok k) ↔
        d.Valid ∧ ((∃ k, source = some (.complete k)) ∨ ∃ c ∈ calls, ∃ i, c.Identifies i)) ∧
      (∀ k, d.build = .ok k → d.Describes k.toPartialKey ∧ d.identifier? = some k.identifier ∧
        d.id? = k.identifier.id? ∧ d.name? = k.identifier.name?) ∧
      next call d .build = d ∧
      ∀ more, (answers call (ofSource source) (calls ++ .build :: more))[calls.length]? = some (some <$> d.build) := by
  intro d
  have revised : Revised (ofSource source) calls d := revised_left (ofSource source) calls
  have built : (call .build).perform d = (some <$> d.build, d) := perform_making d build
  refine ⟨revised, fun c e => (turns d c).of_error, fun c => (turns d c).quiet_iff, ?_, ?_, congrArg Prod.snd built,
    fun more => ?_⟩
  · rw [← identified_ofSource_iff, ← revised.identified_iff, ← PartialKeyDraft.exists_describes_iff]
    simp only [build_eq_ok_iff]
    constructor
    · rintro ⟨k, describes, identified⟩
      exact ⟨⟨_, describes⟩, _, identified⟩
    · rintro ⟨⟨space, describes⟩, i, identified⟩
      exact ⟨space.withIdentifier i, describes, identified⟩
  · intro k made
    obtain ⟨describes, identified⟩ := build_eq_ok_iff.mp made
    exact ⟨describes, identified, parts_of_identifier? (either_left source calls) identified⟩
  · exact (answers_at call _ calls _ more).trans (congrArg (some ·.1) built)

/-- A task with an id is given a list above it and a name.  An id out of range does not bring the id back, and the key
that is built has the name. -/
theorem last_write_counts_of_task :
    let task : Key := ⟨⟨⟨"app", by decide⟩, some ⟨"test", by decide⟩, [], ⟨"Task", by decide⟩⟩, .id ⟨7, by decide⟩⟩
    let list : Ancestor := ⟨⟨"List", by decide⟩, .name ⟨"a", by decide⟩⟩
    let calls : List KeyCall :=
      [.space (.addAncestors [list.datum]), .name (.text "b"), .space (.inNamespace (.text ""))]
    let d := left call (ofSource (some (.complete task))) calls
    let named : Key := ⟨⟨⟨"app", by decide⟩, none, [list], ⟨"Task", by decide⟩⟩, .name ⟨"b", by decide⟩⟩
    answer call d (.id (.int 0)) = .error (KeyFault.idRange 0).error ∧ next call d (.id (.int 0)) = d ∧
      d.build = .ok named ∧ d.Valid ∧ d.id? = none ∧ d.name? = some ⟨"b", by decide⟩ := by
  intro task list calls d named
  obtain ⟨-, kept, -, buildable, parts, -⟩ := last_write_counts (some (.complete task)) calls
  have failed : answer call d (.id (.int 0)) = .error (KeyFault.idRange 0).error := by
    subst d calls list task
    rfl
  have built : d.build = .ok named := by
    subst d calls named list task
    rfl
  obtain ⟨-, -, id, name⟩ := parts named built
  exact ⟨failed, kept _ _ failed, built, (buildable.mp ⟨named, built⟩).1, id, name⟩

end KeyDraft

end EntityStore
