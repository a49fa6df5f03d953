import EntityStore.Bindings

set_option autoImplicit false

namespace EntityStore.Bindings

variable {κ ν : Type} [DecidableEq κ]

theorem mem_of_at? {b : Bindings κ ν} {key : κ} {value : ν} (found : b.at? key = some value) :
    (key, value) ∈ b := by
  induction b with
  | nil => cases found
  | cons entry rest ih =>
      obtain ⟨k, v⟩ := entry
      by_cases here : k = key
      · subst here
        simp only [at?, ↓reduceIte, Option.some.injEq] at found
        rw [found]
        exact List.mem_cons_self
      · simp only [at?, here, ↓reduceIte] at found
        exact List.mem_cons_of_mem _ (ih found)

theorem mem_iff_at? {b : Bindings κ ν} (distinct : b.names.Nodup) (key : κ) (value : ν) :
    (key, value) ∈ b ↔ b.at? key = some value := by
  refine ⟨fun member => ?_, mem_of_at?⟩
  induction b with
  | nil => cases member
  | cons entry rest ih =>
      obtain ⟨k, v⟩ := entry
      have apart : k ∉ names rest ∧ (names rest).Nodup := List.nodup_cons.mp distinct
      rcases List.mem_cons.mp member with here | later
      · cases here
        simp [at?]
      · have named : key ∈ names rest := List.mem_map_of_mem later
        have different : k ≠ key := fun equal => apart.1 (equal ▸ named)
        rw [at?_cons, if_neg different]
        exact ih apart.2 later

/-- Binding a name keeps its old place, or adds it at the end. -/
theorem names_put (b : Bindings κ ν) (key : κ) (value : ν) :
    (b.put key value).names = if key ∈ b.names then b.names else b.names ++ [key] := by
  induction b with
  | nil => rfl
  | cons entry rest ih =>
      obtain ⟨k, v⟩ := entry
      by_cases here : k = key
      · simp [put, names, here]
      · have rebuilt : names (put ((k, v) :: rest) key value) = k :: names (put rest key value) := by
          simp only [put, here, ↓reduceIte, names, List.map_cons]
        have split : names ((k, v) :: rest) = k :: names rest := rfl
        rw [rebuilt, split, ih]
        by_cases later : key ∈ names rest
        · simp [later]
        · simp [later, Ne.symm here]

theorem nodup_put {b : Bindings κ ν} (distinct : b.names.Nodup) (key : κ) (value : ν) :
    (b.put key value).names.Nodup := by
  rw [names_put]
  by_cases bound : key ∈ b.names
  · rwa [if_pos bound]
  · rw [if_neg bound]
    refine List.nodup_append.mpr ⟨distinct, by simp, ?_⟩
    intro old member added last equal
    rw [List.mem_singleton.mp last] at equal
    exact bound (equal ▸ member)

theorem mem_names_put (b : Bindings κ ν) (key other : κ) (value : ν) :
    other ∈ (b.put key value).names ↔ other = key ∨ other ∈ b.names := by
  rw [names_put]
  by_cases bound : key ∈ b.names
  · rw [if_pos bound]
    refine ⟨Or.inr, ?_⟩
    rintro (rfl | member)
    · exact bound
    · exact member
  · rw [if_neg bound, List.mem_append, List.mem_singleton, or_comm]

theorem names_remove (b : Bindings κ ν) (key : κ) :
    (b.remove key).names = b.names.filter (· ≠ key) := by
  induction b with
  | nil => rfl
  | cons entry rest ih =>
      obtain ⟨k, v⟩ := entry
      by_cases here : k = key
      · simpa [remove, names, here] using ih
      · simpa [remove, names, here] using ih

theorem nodup_remove {b : Bindings κ ν} (distinct : b.names.Nodup) (key : κ) :
    (b.remove key).names.Nodup := by
  rw [names_remove]
  exact distinct.filter _

/-- Nothing is removed under a name that is not bound. -/
theorem remove_of_at?_eq_none {b : Bindings κ ν} {key : κ} (absent : b.at? key = none) :
    b.remove key = b := by
  induction b with
  | nil => rfl
  | cons entry rest ih =>
      obtain ⟨k, v⟩ := entry
      by_cases here : k = key
      · simp [at?, here] at absent
      · simp only [at?, here, ↓reduceIte] at absent
        simp only [remove, here, ↓reduceIte, ih absent]

/-- Binding a name to what it is bound to changes nothing. -/
theorem put_of_at? {b : Bindings κ ν} {key : κ} {value : ν}
    (bound : b.at? key = some value) : b.put key value = b := by
  induction b with
  | nil => cases bound
  | cons entry rest ih =>
      obtain ⟨k, v⟩ := entry
      by_cases here : k = key
      · rw [at?_cons, if_pos here] at bound
        rw [put, if_pos here, Option.some.inj bound]
      · rw [at?_cons, if_neg here] at bound
        rw [put, if_neg here, ih bound]

/-- What stands behind other bindings is found under a name that they do not bind. -/
theorem at?_append_of_unbound {b : Bindings κ ν} {key : κ}
    (unbound : key ∉ b.names) (further : Bindings κ ν) : at? (b ++ further) key = further.at? key := by
  induction b with
  | nil => rfl
  | cons entry rest ih =>
      obtain ⟨k, v⟩ := entry
      have apart : key ≠ k ∧ key ∉ names rest := by simpa [names] using unbound
      rw [List.cons_append, at?_cons, if_neg (Ne.symm apart.1), ih apart.2]

/-- Binding many names to one value. -/
theorem at?_foldl_put (keys : List κ) (value : ν) (b : Bindings κ ν) (key : κ) :
    (keys.foldl (fun b k => b.put k value) b).at? key =
      if key ∈ keys then some value else b.at? key := by
  induction keys generalizing b with
  | nil => simp
  | cons k rest ih =>
      rw [List.foldl_cons, ih, at?_put]
      by_cases later : key ∈ rest
      · simp [later]
      · by_cases here : k = key
        · simp [here]
        · simp [later, here, Ne.symm here]

theorem nodup_foldl_put (keys : List κ) (value : ν) {b : Bindings κ ν} (distinct : b.names.Nodup) :
    (keys.foldl (fun b k => b.put k value) b).names.Nodup := by
  induction keys generalizing b with
  | nil => exact distinct
  | cons k rest ih => exact ih (nodup_put distinct k value)

theorem mem_names_foldl_put (keys : List κ) (value : ν) (b : Bindings κ ν) (key : κ) :
    key ∈ (keys.foldl (fun b k => b.put k value) b).names ↔ key ∈ keys ∨ key ∈ b.names := by
  induction keys generalizing b with
  | nil => simp
  | cons k rest ih =>
      rw [List.foldl_cons, ih, mem_names_put, List.mem_cons]
      exact ⟨by rintro (later | here | old) <;> simp_all, by rintro ((here | later) | old) <;> simp_all⟩

end EntityStore.Bindings
