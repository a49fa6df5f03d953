import EntityStore.Drafting
import Mathlib.Data.List.Basic
import Mathlib.Data.List.Induction

/-!
Calls on something that is being put together, one after the other.  What is left depends on the calls so far alone, and
a part of it that some calls replace is what the last of them gave, changed by the calls after it.  Where calls that
fail change nothing, only those that succeed count.
-/

set_option autoImplicit false

namespace EntityStore.Drafting

section Runs

variable {κ δ α : Type} (call : κ → Drafting δ (Option α))

/-- The answer to a call. -/
def answer (d : δ) (c : κ) : Except Error (Option α) := ((call c).perform d).1

/-- What a call leaves, whether it fails or not. -/
def next (d : δ) (c : κ) : δ := ((call c).perform d).2

/-- What is left after calls one after the other, those that fail included. -/
def left (start : δ) (calls : List κ) : δ := calls.foldl (next call) start

/-- The answers to calls one after the other. -/
def answers : δ → List κ → List (Except Error (Option α))
  | _, [] => []
  | d, c :: calls => answer call d c :: answers (next call d c) calls

theorem left_append (start : δ) (calls more : List κ) :
    left call start (calls ++ more) = left call (left call start calls) more := List.foldl_append

@[simp] theorem left_concat (start : δ) (calls : List κ) (c : κ) :
    left call start (calls ++ [c]) = next call (left call start calls) c := left_append call start calls [c]

/-- Later calls change no answer that was given before. -/
theorem answers_append (start : δ) (calls more : List κ) :
    answers call start (calls ++ more) = answers call start calls ++ answers call (left call start calls) more := by
  induction calls generalizing start with
  | nil => rfl
  | cons c calls ih => exact congrArg (answer call start c :: ·) (ih (next call start c))

theorem length_answers (start : δ) (calls : List κ) : (answers call start calls).length = calls.length := by
  induction calls generalizing start with
  | nil => rfl
  | cons c calls ih => exact congrArg (· + 1) (ih (next call start c))

/-- The answer to a call depends on the calls before it alone. -/
theorem answers_at (start : δ) (calls : List κ) (c : κ) (more : List κ) :
    (answers call start (calls ++ c :: more))[calls.length]? = some (answer call (left call start calls) c) := by
  have before : (answers call start calls).length = calls.length := length_answers call start calls
  rw [answers_append, List.getElem?_append_right (Nat.le_of_eq before), before, Nat.sub_self]
  rfl

/-- What holds at the start and is kept by every call holds after all of them. -/
theorem left_induction {P : δ → Prop} {start : δ} (holds : P start) (kept : ∀ d c, P d → P (next call d c))
    (calls : List κ) : P (left call start calls) := by
  induction calls generalizing start with
  | nil => exact holds
  | cons c calls ih => exact ih (kept start c holds)

/-- The calls that succeed, each after all those before it. -/
def succeeded : δ → List κ → List κ
  | _, [] => []
  | d, c :: calls =>
    match answer call d c with
    | .ok _ => c :: succeeded (next call d c) calls
    | .error _ => succeeded (next call d c) calls

variable (start : δ) (calls : List κ) {c : κ}

theorem succeeded_append (more : List κ) :
    succeeded call start (calls ++ more) =
      succeeded call start calls ++ succeeded call (left call start calls) more := by
  induction calls generalizing start with
  | nil => rfl
  | cons c calls ih =>
      have rest := ih (next call start c)
      rw [List.cons_append, succeeded, succeeded]
      cases answer call start c with
      | ok a => exact congrArg (c :: ·) rest
      | error e => exact rest

theorem succeeded_concat_of_ok {a : Option α} (success : answer call (left call start calls) c = .ok a) :
    succeeded call start (calls ++ [c]) = succeeded call start calls ++ [c] := by
  rw [succeeded_append, succeeded, success]
  rfl

theorem succeeded_concat_of_error {e : Error} (failed : answer call (left call start calls) c = .error e) :
    succeeded call start (calls ++ [c]) = succeeded call start calls := by
  rw [succeeded_append, succeeded, failed]
  exact List.append_nil _

/-- A call that succeeds did so at some place among the calls. -/
theorem exists_of_mem_succeeded (member : c ∈ succeeded call start calls) :
    ∃ before after a, calls = before ++ c :: after ∧ answer call (left call start before) c = .ok a := by
  induction calls using List.reverseRecOn with
  | nil => exact absurd member List.not_mem_nil
  | append_singleton calls last ih =>
      have earlier (within : c ∈ succeeded call start calls) :
          ∃ before after a,
            calls ++ [last] = before ++ c :: after ∧ answer call (left call start before) c = .ok a := by
        obtain ⟨before, after, a, rfl, success⟩ := ih within
        exact ⟨before, after ++ [last], a, List.append_assoc .., success⟩
      cases result : answer call (left call start calls) last with
      | ok a =>
          rw [succeeded_concat_of_ok call start calls result] at member
          rcases List.mem_append.mp member with within | here
          · exact earlier within
          · obtain rfl := List.mem_singleton.mp here
            exact ⟨calls, [], a, rfl, result⟩
      | error e => exact earlier (succeeded_concat_of_error call start calls result ▸ member)

section Failing

variable {call} {start} (failing : ∀ d c e, answer call d c = .error e → next call d c = d)

include failing

/-- Where calls that fail change nothing, what holds at the start and is kept by every call that succeeds holds of the
calls that did and of what is left. -/
theorem succeeded_induction {P : List κ → δ → Prop} (holds : P [] start)
    (kept : ∀ done d c a, answer call d c = .ok a → P done d → P (done ++ [c]) (next call d c)) :
    P (succeeded call start calls) (left call start calls) := by
  induction calls using List.reverseRecOn with
  | nil => exact holds
  | append_singleton calls c ih =>
      rw [left_concat]
      cases result : answer call (left call start calls) c with
      | ok a =>
          rw [succeeded_concat_of_ok call start calls result]
          exact kept _ _ _ _ result ih
      | error e =>
          rw [succeeded_concat_of_error call start calls result, failing _ _ _ result]
          exact ih

/-- A part to which each of them adds something at the end grows by what they add, in order. -/
theorem left_added {β : Type} (part : δ → List β) (adds : κ → List β)
    (added : ∀ d c a, answer call d c = .ok a → part (next call d c) = part d ++ adds c) :
    part (left call start calls) = part start ++ (succeeded call start calls).flatMap adds := by
  refine succeeded_induction (P := fun done d => part d = part start ++ done.flatMap adds) calls failing
    (List.append_nil _).symm fun done d c a success ih => ?_
  rw [added d c a success, ih, List.flatMap_append, List.flatMap_singleton, List.append_assoc]

end Failing

end Runs

section LastGiven

variable {κ β : Type} {Gives : κ → β → Prop} {start value : β} {calls later : List κ} {c : κ}

/-- A call among others and a further one is this one, or it is among the others. -/
theorem split_concat {before after : List κ} {x : κ} (split : calls ++ [c] = before ++ x :: after) :
    after = [] ∧ calls = before ∧ c = x ∨ ∃ between, after = between ++ [c] ∧ calls = before ++ x :: between := by
  rcases List.eq_nil_or_concat after with rfl | ⟨between, z, rfl⟩
  · obtain ⟨earlier, last⟩ := List.append_inj' split rfl
    exact .inl ⟨rfl, earlier, List.singleton_inj.mp last⟩
  · rw [List.concat_eq_append] at split ⊢
    rw [← List.cons_append, ← List.append_assoc] at split
    obtain ⟨earlier, last⟩ := List.append_inj' split rfl
    exact .inr ⟨between, congrArg (between ++ ·) last.symm, earlier⟩

/-- Whether a value is the one that the last of some calls to give one gave, or the one from the start if none gave any.
The calls that came later, which gave none, are listed. -/
inductive LastGiven (Gives : κ → β → Prop) (start : β) (calls : List κ) : β → List κ → Prop where
  | start (none : ∀ c ∈ calls, ∀ x, ¬ Gives c x) : LastGiven Gives start calls start calls
  | call {value : β} {before after : List κ} {c : κ} (split : calls = before ++ c :: after) (gives : Gives c value)
      (none : ∀ c ∈ after, ∀ x, ¬ Gives c x) : LastGiven Gives start calls value after

theorem lastGiven_nil_iff : LastGiven Gives start [] value later ↔ value = start ∧ later = [] := by
  constructor
  · rintro (none | ⟨split, -, -⟩)
    · exact ⟨rfl, rfl⟩
    · exact absurd split.symm (List.append_ne_nil_of_right_ne_nil _ (List.cons_ne_nil _ _))
  · rintro ⟨rfl, rfl⟩
    exact .start (fun _ member => absurd member List.not_mem_nil)

/-- A further call gives the value, or it gives none and the value was given before. -/
theorem lastGiven_concat_iff :
    LastGiven Gives start (calls ++ [c]) value later ↔
      Gives c value ∧ later = [] ∨
        (∀ x, ¬ Gives c x) ∧ ∃ between, later = between ++ [c] ∧ LastGiven Gives start calls value between := by
  constructor
  · rintro (none | @⟨_, before, _, last, split, gives, none⟩)
    · obtain ⟨earlier, here⟩ := List.forall_mem_append.mp none
      exact .inr ⟨here c List.mem_cons_self, calls, rfl, .start earlier⟩
    · rcases split_concat split with ⟨rfl, -, rfl⟩ | ⟨between, rfl, front⟩
      · exact .inl ⟨gives, rfl⟩
      · obtain ⟨earlier, here⟩ := List.forall_mem_append.mp none
        exact .inr ⟨here c List.mem_cons_self, between, rfl, .call front gives earlier⟩
  · rintro (⟨gives, rfl⟩ | ⟨here, between, rfl, none | ⟨rfl, gives, none⟩⟩)
    · exact .call rfl gives (fun _ member => absurd member List.not_mem_nil)
    · exact .start (List.forall_mem_append.mpr ⟨none, List.forall_mem_singleton.mpr here⟩)
    · exact .call (List.append_assoc ..) gives (List.forall_mem_append.mpr ⟨none, List.forall_mem_singleton.mpr here⟩)

/-- There is only one such value if no call gives two. -/
theorem LastGiven.unique (single : ∀ c x y, Gives c x → Gives c y → x = y) {other : β} {after : List κ}
    (given : LastGiven Gives start calls value later) (too : LastGiven Gives start calls other after) :
    value = other := by
  induction calls using List.reverseRecOn generalizing value other later after with
  | nil => exact (lastGiven_nil_iff.mp given).1.trans (lastGiven_nil_iff.mp too).1.symm
  | append_singleton calls c ih =>
      rcases lastGiven_concat_iff.mp given with ⟨gives, -⟩ | ⟨silent, _, -, earlier⟩
      · rcases lastGiven_concat_iff.mp too with ⟨givesToo, -⟩ | ⟨silent, -⟩
        · exact single c _ _ gives givesToo
        · exact absurd gives (silent _)
      · rcases lastGiven_concat_iff.mp too with ⟨gives, -⟩ | ⟨-, _, -, earlierToo⟩
        · exact absurd gives (silent _)
        · exact ih earlier earlierToo

variable {δ α : Type} {call : κ → Drafting δ (Option α)} (part : δ → β)

/-- A part that some calls replace, and that each other call changes in a way of its own, is what the last of those
calls gave, changed by the calls after it. -/
theorem lastGiven_left (change : β → κ → β) (replaced : ∀ d c x, Gives c x → part (next call d c) = x)
    (changed : ∀ d c, (∀ x, ¬ Gives c x) → part (next call d c) = change (part d) c) (d : δ) (calls : List κ) :
    ∃ base later, LastGiven Gives (part d) calls base later ∧ part (left call d calls) = later.foldl change base := by
  induction calls using List.reverseRecOn with
  | nil => exact ⟨_, _, lastGiven_nil_iff.mpr ⟨rfl, rfl⟩, rfl⟩
  | append_singleton calls c ih =>
      obtain ⟨base, later, given, parts⟩ := ih
      rw [left_concat]
      by_cases gives : ∃ x, Gives c x
      · obtain ⟨x, gives⟩ := gives
        exact ⟨x, [], lastGiven_concat_iff.mpr (.inl ⟨gives, rfl⟩), replaced _ _ _ gives⟩
      · replace gives : ∀ x, ¬ Gives c x := not_exists.mp gives
        refine ⟨base, later ++ [c], lastGiven_concat_iff.mpr (.inr ⟨gives, later, rfl, given⟩), ?_⟩
        rw [changed _ _ gives, parts, List.foldl_append]
        rfl

/-- A part that no other calls change is what the last call to give it gave. -/
theorem lastGiven_kept (replaced : ∀ d c x, Gives c x → part (next call d c) = x)
    (kept : ∀ d c, (∀ x, ¬ Gives c x) → part (next call d c) = part d) (d : δ) (calls : List κ) :
    ∃ later, LastGiven Gives (part d) calls (part (left call d calls)) later := by
  obtain ⟨base, later, given, parts⟩ := lastGiven_left part (fun x _ => x) replaced kept d calls
  rw [parts, List.foldl_fixed]
  exact ⟨later, given⟩

/-- Where calls that fail change nothing, a part that no other calls change is what the last call that succeeded in
giving it gave. -/
theorem lastGiven_succeeded (failing : ∀ d c e, answer call d c = .error e → next call d c = d)
    (replaced : ∀ d c a x, answer call d c = .ok a → Gives c x → part (next call d c) = x)
    (kept : ∀ d c, (∀ x, ¬ Gives c x) → part (next call d c) = part d) (start : δ) (calls : List κ) :
    ∃ later, LastGiven Gives (part start) (succeeded call start calls) (part (left call start calls)) later := by
  refine succeeded_induction (P := fun done d => ∃ later, LastGiven Gives (part start) done (part d) later) calls
    failing ⟨[], lastGiven_nil_iff.mpr ⟨rfl, rfl⟩⟩ ?_
  rintro done d c a success ⟨later, given⟩
  by_cases gives : ∃ x, Gives c x
  · obtain ⟨x, gives⟩ := gives
    rw [replaced d c a x success gives]
    exact ⟨[], lastGiven_concat_iff.mpr (.inl ⟨gives, rfl⟩)⟩
  · replace gives : ∀ x, ¬ Gives c x := not_exists.mp gives
    rw [kept d c gives]
    exact ⟨later ++ [c], lastGiven_concat_iff.mpr (.inr ⟨gives, later, rfl, given⟩)⟩

end LastGiven

end EntityStore.Drafting
