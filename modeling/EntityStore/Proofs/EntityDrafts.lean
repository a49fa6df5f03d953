import EntityStore.Entity.Draft
import EntityStore.Proofs.Bindings
import EntityStore.Proofs.DraftRuns
import EntityStore.Proofs.Wrapping

set_option autoImplicit false

namespace EntityStore

open Drafting

namespace EntityCall

/-- Whether a call binds a property: a name that is not empty, to what one datum becomes, to the list of what several
become, or to null. -/
inductive Binds : EntityCall → String → Value → Prop where
  | one {name : String} {first : Datum} {v : Value} (named : name ≠ "") (wraps : first.Wraps v) :
      Binds (.set (.text name) first []) name v
  | several {name : String} {first second : Datum} {more : List Datum} {v : Value} (named : name ≠ "")
      (wraps : (Datum.list (first :: second :: more)).Wraps v) :
      Binds (.set (.text name) first (second :: more)) name v
  | null {name : String} (named : name ≠ "") : Binds (.setNull (.text name)) name (.ofScalar .null)

/-- Whether a call drops the property of a name, if there is one. -/
inductive Drops : EntityCall → String → Prop where
  | remove (name : String) : Drops (.remove (.text name)) name
  | clear (name : String) : Drops .clear name

variable {c : EntityCall} {name other : String} {v w : Value}

theorem Binds.named (binds : c.Binds name v) : name ≠ "" := by
  cases binds <;> assumption

/-- A call that binds a property drops none. -/
theorem Binds.not_drops (binds : c.Binds name v) : ¬ c.Drops other := by
  intro drops
  cases drops <;> cases binds

theorem Binds.unique (binds : c.Binds name v) (too : c.Binds other w) : name = other ∧ v = w := by
  have same {d : Datum} (left : d.Wraps v) (right : d.Wraps w) : v = w :=
    Except.ok.inj (left.made.symm.trans right.made)
  cases binds with
  | one _ left => cases too with
    | one _ right => exact ⟨rfl, same left right⟩
  | several _ left => cases too with
    | several _ right => exact ⟨rfl, same left right⟩
  | null => cases too with
    | null => exact ⟨rfl, rfl⟩

end EntityCall

namespace EntityDraft

theorem propertyName_eq_ok_iff {x : Datum} {name : String} :
    propertyName x = .ok name ↔ x = .text name ∧ name ≠ "" := by
  cases x with
  | text s =>
      rw [propertyName, Datum.text.injEq]
      by_cases empty : s = ""
      · rw [if_pos empty]
        exact iff_of_false nofun fun ⟨same, named⟩ => named (same ▸ empty)
      · rw [if_neg empty, Except.ok.injEq]
        exact ⟨fun same => ⟨same, same ▸ empty⟩, And.left⟩
  | _ => exact iff_of_false nofun nofun

theorem binds_set_iff {x first : Datum} {more : List Datum} {name : String} {v : Value} :
    (EntityCall.set x first more).Binds name v ↔ propertyName x = .ok name ∧ propertyValue first more = .ok v := by
  rw [propertyName_eq_ok_iff, propertyValue]
  constructor
  · rintro (⟨named, wraps⟩ | ⟨named, wraps⟩)
    · exact ⟨⟨rfl, named⟩, wraps.made⟩
    · exact ⟨⟨rfl, named⟩, wraps.made⟩
  · rintro ⟨⟨rfl, named⟩, made⟩
    cases more with
    | nil => exact .one named (Value.ofDatum_eq_ok_iff.mp made)
    | cons second more => exact .several named (Value.ofDatum_eq_ok_iff.mp made)

theorem binds_setNull_iff {x : Datum} {name : String} {v : Value} :
    (EntityCall.setNull x).Binds name v ↔ (EntityCall.set x .none []).Binds name v := by
  constructor
  · intro binds
    cases binds with
    | null named => exact .one named .null
  · intro binds
    cases binds with
    | one named wraps =>
        cases wraps
        exact .null named

/-- The draft with a property bound. -/
def binding (d : EntityDraft) (name : String) (v : Value) : EntityDraft :=
  { d with properties := d.properties.put name v }

/-- A property is bound if the name and the value can be made, and else the draft stays as it was. -/
theorem perform_set (d : EntityDraft) (x first : Datum) (more : List Datum) :
    (∃ name v, (EntityCall.set x first more).Binds name v ∧ (set x first more).perform d = (.ok (), d.binding name v)) ∨
      (∀ name v, ¬ (EntityCall.set x first more).Binds name v) ∧ ∃ e, (set x first more).perform d = (.error e, d) := by
  simp only [binds_set_iff]
  cases name : propertyName x with
  | error e => exact .inr ⟨nofun, e, perform_checked_bind_of_error d name _⟩
  | ok s =>
      have named : (set x first more).perform d = _ := perform_checked_bind_of_ok d name _
      cases value : propertyValue first more with
      | error e => exact .inr ⟨nofun, e, named.trans (perform_checked_bind_of_error d value _)⟩
      | ok v => exact .inl ⟨s, v, ⟨rfl, rfl⟩, named.trans (perform_checked_bind_of_ok d value _)⟩

/-- What is not a text names no property: the call finds none or fails. -/
theorem perform_remove_of_unnamed {x : Datum} (unnamed : x.text? = none) (d : EntityDraft) :
    (remove x).perform d = (.ok (), d) ∨ ∃ e, (remove x).perform d = (.error e, d) := by
  have performs : (remove x).perform d = Drafting.perform
      (if d.properties.isEmpty || x.fingerprint?.isSome then pure () else throw (.failure .argumentType)) d := by
    rw [remove, unnamed]
    exact perform_bind_of_ok d rfl
  rw [performs]
  split
  · exact .inl rfl
  · exact .inr ⟨_, rfl⟩

/-- What a call can come to: the answer, and the draft that it leaves. -/
inductive Turns (d : EntityDraft) : EntityCall → Except Error (Option AnyEntity) → EntityDraft → Prop where
  | rekeyed (k : AnyKey) : Turns d (.key (.key k)) (.ok none) { d with key := k }
  | bound {c : EntityCall} {name : String} {v : Value} (binds : c.Binds name v) :
      Turns d c (.ok none) (d.binding name v)
  | removed (name : String) :
      Turns d (.remove (.text name)) (.ok none) { d with properties := d.properties.remove name }
  /-- What is not a text names no property. -/
  | missed {x : Datum} (unnamed : x.text? = none) : Turns d (.remove x) (.ok none) d
  | cleared : Turns d .clear (.ok none) { d with properties := [] }
  | built : Turns d .build (some <$> d.build) d
  | refused {c : EntityCall} {e : Error} (key : ∀ k, c ≠ .key (.key k)) (build : c ≠ .build)
      (binds : ∀ name v, ¬ c.Binds name v) (drops : ∀ name, ¬ c.Drops name) : Turns d c (.error e) d

theorem turns (d : EntityDraft) (c : EntityCall) : Turns d c (answer call d c) (next call d c) := by
  unfold answer next
  cases c with
  | key x =>
      cases x with
      | key k => exact .rekeyed k
      | _ => exact .refused nofun nofun nofun nofun
  | set x first more =>
      rw [call, perform_quiet]
      rcases perform_set d x first more with ⟨name, v, binds, performs⟩ | ⟨binds, e, performs⟩
      · rw [performs]
        exact .bound binds
      · rw [performs]
        exact .refused nofun nofun binds nofun
  | setNull x =>
      rw [call, perform_quiet, setNull]
      rcases perform_set d x .none [] with ⟨name, v, binds, performs⟩ | ⟨binds, e, performs⟩
      · rw [performs]
        exact .bound (binds_setNull_iff.mpr binds)
      · rw [performs]
        exact .refused nofun nofun (fun name v binds' => binds name v (binds_setNull_iff.mp binds')) nofun
  | remove x =>
      cases unnamed : x.text? with
      | some s => cases x with
        | text t => exact .removed t
        | _ => cases unnamed
      | none =>
          rw [call, perform_quiet]
          rcases perform_remove_of_unnamed unnamed d with performs | ⟨e, performs⟩
          · rw [performs]
            exact .missed unnamed
          · rw [performs]
            refine .refused nofun nofun nofun fun name drops => ?_
            cases drops
            cases unnamed
  | clear => exact .cleared
  | build =>
      rw [call, perform_making]
      exact .built

section Turn

variable {d after : EntityDraft} {c : EntityCall} {result : Except Error (Option AnyEntity)}

/-- A call that fails leaves the draft as it was. -/
theorem Turns.of_error {e : Error} (turn : Turns d c result after) (failed : result = .error e) : after = d := by
  cases turn with
  | rekeyed | bound | removed | cleared => cases failed
  | missed | built | refused => rfl

/-- A call that is neither to remove a property nor to build succeeds if it binds a property, drops all of them, or sets
a key. -/
theorem Turns.quiet_iff (turn : Turns d c result after) (remove : ∀ x, c ≠ .remove x) (build : c ≠ .build) :
    result = .ok none ↔ (∃ name v, c.Binds name v) ∨ c = .clear ∨ ∃ k, c = .key (.key k) := by
  cases turn with
  | rekeyed k => exact iff_of_true rfl (.inr (.inr ⟨k, rfl⟩))
  | bound binds => exact iff_of_true rfl (.inl ⟨_, _, binds⟩)
  | removed name => exact absurd rfl (remove _)
  | missed => exact absurd rfl (remove _)
  | cleared => exact iff_of_true rfl (.inr (.inl rfl))
  | built => exact absurd rfl build
  | refused key _ binds drops =>
      refine iff_of_false nofun ?_
      rintro (⟨name, v, sets⟩ | rfl | ⟨k, same⟩)
      · exact binds name v sets
      · exact drops "" (.clear "")
      · exact key k same

theorem Turns.form_eq (turn : Turns d c result after) : after.form = d.form := by
  cases turn <;> rfl

/-- The key changes with the calls that set one alone. -/
theorem Turns.key_kept (turn : Turns d c result after) (other : ∀ k, c ≠ .key (.key k)) : after.key = d.key := by
  cases turn with
  | rekeyed k => exact absurd rfl (other k)
  | bound | removed | missed | cleared | built | refused => rfl

end Turn

/-- An entity is built with the form, the key and the properties of the draft. -/
theorem build_eq_ok_iff {d : EntityDraft} {e : AnyEntity} :
    d.build = .ok e ↔ e.form = d.form ∧ e.key = d.key ∧ e.properties = d.properties := by
  obtain ⟨form, key, properties⟩ := d
  rcases e with ⟨k, p⟩ | ⟨shape, k, p⟩
  · cases form with
    | draft => simp [build, AnyEntity.create, AnyEntity.form, AnyEntity.key, AnyEntity.properties, eq_comm]
    | keyed shape => cases key <;> simp [build, AnyEntity.create, AnyEntity.form]
  · cases form with
    | draft => simp [build, AnyEntity.create, AnyEntity.form]
    | keyed shape =>
        cases key <;> simp [build, AnyEntity.create, AnyEntity.form, AnyEntity.key, AnyEntity.properties, eq_comm]

/-- Only drafts are built without a complete key. -/
theorem exists_build_iff {d : EntityDraft} :
    (∃ e, d.build = .ok e) ↔ d.form = .draft ∨ d.key.isComplete = true := by
  obtain ⟨form, key, properties⟩ := d
  cases form <;> cases key <;> simp [build, AnyEntity.create, AnyKey.isComplete]

end EntityDraft

end EntityStore
