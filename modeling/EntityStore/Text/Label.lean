set_option autoImplicit false

namespace EntityStore

/-- A text with at least one character. -/
structure Label where
  text : String
  nonempty : text ≠ ""
deriving DecidableEq

namespace Label

/-- The label of a text, unless the text is empty. -/
def ofText? (s : String) : Option Label :=
  if h : s = "" then none else some ⟨s, h⟩

theorem ext_text {a b : Label} (h : a.text = b.text) : a = b := by
  cases a; cases b; cases h; rfl

@[simp] theorem ofText?_text (l : Label) : ofText? l.text = some l := by
  simp [ofText?, l.nonempty]

theorem text_of_ofText? {s : String} {l : Label} (h : ofText? s = some l) : l.text = s := by
  unfold ofText? at h
  split at h <;> simp_all
  rw [← h]

theorem ofText?_eq_some_iff {s : String} {l : Label} : ofText? s = some l ↔ s = l.text :=
  ⟨fun made => (text_of_ofText? made).symm, fun same => same ▸ l.ofText?_text⟩

theorem ofText?_eq_none_iff {s : String} : ofText? s = none ↔ s = "" := by
  unfold ofText?
  split <;> simp_all

end Label

end EntityStore
