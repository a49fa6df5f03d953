/-!
Finite maps that keep the order in which names were first bound, as lists of pairs.  Binding a bound
name again keeps its place; removing it and binding it again moves it to the end.
-/

set_option autoImplicit false

namespace EntityStore

/-- A map from names to values in the order of first binding. -/
abbrev Bindings (κ ν : Type) := List (κ × ν)

namespace Bindings

variable {κ ν : Type} [DecidableEq κ]

/-- The value bound to a name. -/
def at? : Bindings κ ν → κ → Option ν
  | [], _ => none
  | (k, v) :: rest, key => if k = key then some v else at? rest key

/-- Binds a name, in its old place if it has one and at the end otherwise. -/
def put : Bindings κ ν → κ → ν → Bindings κ ν
  | [], key, value => [(key, value)]
  | (k, v) :: rest, key, value => if k = key then (k, value) :: rest else (k, v) :: put rest key value

/-- Drops the binding of a name. -/
def remove : Bindings κ ν → κ → Bindings κ ν
  | [], _ => []
  | (k, v) :: rest, key => if k = key then remove rest key else (k, v) :: remove rest key

/-- The bound names in order. -/
def names (b : Bindings κ ν) : List κ := b.map Prod.fst

/-- Whether a name is bound. -/
def binds (b : Bindings κ ν) (key : κ) : Bool := (at? b key).isSome

/-- The bindings of a list of pairs, where a later pair for the same name wins. -/
def ofPairs (pairs : List (κ × ν)) : Bindings κ ν := pairs.foldl (fun b p => put b p.1 p.2) []

@[simp] theorem at?_nil (key : κ) : at? ([] : Bindings κ ν) key = none := rfl

theorem at?_cons (k : κ) (v : ν) (rest : Bindings κ ν) (key : κ) :
    at? ((k, v) :: rest) key = if k = key then some v else at? rest key := rfl

theorem at?_put (b : Bindings κ ν) (key : κ) (value : ν) (other : κ) :
    at? (put b key value) other = if key = other then some value else at? b other := by
  induction b with
  | nil => simp [put, at?]
  | cons entry rest ih =>
    obtain ⟨k, v⟩ := entry
    by_cases hk : k = key
    · subst hk
      by_cases ho : k = other <;> simp [put, at?, ho]
    · by_cases ho : k = other
      · subst ho
        simp [put, at?, hk, Ne.symm hk]
      · simp [put, at?, hk, ho, ih]

@[simp] theorem at?_put_self (b : Bindings κ ν) (key : κ) (value : ν) :
    at? (put b key value) key = some value := by simp [at?_put]

theorem at?_put_of_ne (b : Bindings κ ν) {key other : κ} (value : ν) (h : key ≠ other) :
    at? (put b key value) other = at? b other := by simp [at?_put, h]

theorem at?_remove (b : Bindings κ ν) (key other : κ) :
    at? (remove b key) other = if key = other then none else at? b other := by
  induction b with
  | nil => simp [remove]
  | cons entry rest ih =>
    obtain ⟨k, v⟩ := entry
    by_cases hk : k = key
    · subst hk
      simp only [remove, if_true, ih, at?]
      split <;> simp_all
    · by_cases ho : k = other
      · subst ho
        simp [remove, at?, hk, Ne.symm hk]
      · simp [remove, at?, hk, ho, ih]

@[simp] theorem at?_remove_self (b : Bindings κ ν) (key : κ) : at? (remove b key) key = none := by
  simp [at?_remove]

theorem at?_remove_of_ne (b : Bindings κ ν) {key other : κ} (h : key ≠ other) :
    at? (remove b key) other = at? b other := by simp [at?_remove, h]

theorem at?_eq_none_iff (b : Bindings κ ν) (key : κ) : at? b key = none ↔ key ∉ names b := by
  induction b with
  | nil => simp [names]
  | cons entry rest ih =>
    obtain ⟨k, v⟩ := entry
    by_cases hk : k = key
    · subst hk; simp [at?, names]
    · simp_all [at?, names, Ne.symm hk]

end Bindings

end EntityStore
