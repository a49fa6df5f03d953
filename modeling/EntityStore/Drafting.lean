import EntityStore.Error.Basic

/-!
Things that are put together call by call.  A call goes on with a result or fails, and what it has changed before it
fails stays changed.
-/

set_option autoImplicit false

namespace EntityStore

/-- A call on something that is being put together. -/
abbrev Drafting (δ α : Type) := ExceptT Error (StateM δ) α

namespace Drafting

variable {δ α : Type}

/-- Goes on with what a check lets through. -/
def checked : Except Error α → Drafting δ α
  | .ok a => pure a
  | .error e => throw e

def change (f : δ → δ) : Drafting δ Unit := ExceptT.lift (modify f)

def current : Drafting δ δ := ExceptT.lift get

/-- A call that makes nothing. -/
def quiet (call : Drafting δ Unit) : Drafting δ (Option α) := do
  call
  return none

/-- A call that makes something of what is there. -/
def making (make : δ → Except Error α) : Drafting δ (Option α) := do
  let d ← current
  return some (← checked (make d))

/-- The answer to a call and what the call leaves. -/
def perform (call : Drafting δ α) (d : δ) : Except Error α × δ := Id.run (StateT.run (ExceptT.run call) d)

/-- What a call leaves, unless it fails. -/
def made (call : Drafting δ Unit) (d : δ) : Except Error δ :=
  match call.perform d with
  | (.ok (), next) => .ok next
  | (.error e, _) => .error e

variable {β : Type} (d : δ)

@[simp] theorem perform_checked (check : Except Error α) : (checked check : Drafting δ α).perform d = (check, d) := by
  cases check <;> rfl

/-- A call goes on from what the one before it leaves. -/
theorem perform_bind_of_ok {call : Drafting δ α} {next : α → Drafting δ β} {a : α} {left : δ}
    (success : call.perform d = (.ok a, left)) : (call >>= next).perform d = (next a).perform left := by
  have run : call d = (.ok a, left) := success
  show ExceptT.bindCont next (call d).1 (call d).2 = next a left
  rw [run]
  rfl

/-- What comes after a call that fails does nothing. -/
theorem perform_bind_of_error {call : Drafting δ α} {next : α → Drafting δ β} {e : Error} {left : δ}
    (failed : call.perform d = (.error e, left)) : (call >>= next).perform d = (.error e, left) := by
  have run : call d = (.error e, left) := failed
  show ExceptT.bindCont next (call d).1 (call d).2 = (.error e, left)
  rw [run]
  rfl

theorem perform_checked_bind_of_ok {check : Except Error α} {a : α} (passes : check = .ok a) (next : α → Drafting δ β) :
    (checked check >>= next).perform d = (next a).perform d := by
  subst passes
  exact perform_bind_of_ok d (perform_checked d _)

theorem perform_checked_bind_of_error {check : Except Error α} {e : Error} (fails : check = .error e)
    (next : α → Drafting δ β) : (checked check >>= next).perform d = (.error e, d) := by
  subst fails
  exact perform_bind_of_error d (perform_checked d _)

@[simp] theorem perform_current_bind (next : δ → Drafting δ β) : (current >>= next).perform d = (next d).perform d :=
  perform_bind_of_ok d rfl

/-- A change that waits for a check is made if the check passes, and else nothing is changed. -/
theorem perform_checked_change (check : Except Error α) (f : α → δ → δ) :
    (checked check >>= fun a => change (f a)).perform d =
      match check with
      | .ok a => (.ok (), f a d)
      | .error e => (.error e, d) := by
  cases check with
  | ok a => exact perform_checked_bind_of_ok d rfl _
  | error e => exact perform_checked_bind_of_error d rfl _

theorem made_checked_change (check : Except Error α) (f : α → δ → δ) :
    (checked check >>= fun a => change (f a)).made d = (f · d) <$> check := by
  rw [made, perform_checked_change]
  cases check <;> rfl

theorem made_current_bind (next : δ → Drafting δ Unit) : (current >>= next).made d = (next d).made d := by
  rw [made, perform_current_bind, made]

@[simp] theorem perform_quiet (call : Drafting δ Unit) :
    (quiet call : Drafting δ (Option α)).perform d = ((fun _ => none) <$> (call.perform d).1, (call.perform d).2) := by
  rcases result : call.perform d with ⟨_ | ⟨⟩, left⟩
  · exact perform_bind_of_error d result
  · exact perform_bind_of_ok d result

@[simp] theorem perform_making (make : δ → Except Error α) :
    (making make).perform d = (some <$> make d, d) := by
  show ((current >>= fun d => checked (make d) >>= fun a => pure (some a)) : Drafting δ (Option α)).perform d = _
  rw [perform_current_bind]
  cases make d with
  | error e => exact perform_checked_bind_of_error d rfl _
  | ok a => exact perform_checked_bind_of_ok d rfl _

end Drafting

end EntityStore
