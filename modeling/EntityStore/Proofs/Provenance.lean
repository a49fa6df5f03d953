import EntityStore.Proofs.Bindings
import EntityStore.Proofs.Derivation

set_option autoImplicit false

namespace EntityStore.Gql

open Text

/-- The values that are bound in a query, by position or by name. -/
def boundValues (q : GqlQuery) : List Value := q.positional ++ q.named.map Prod.snd

/-- A condition on bound values: a comparison with one of them as it is, or the test for an ancestor whose key is one of
them, whatever its marks are. -/
inductive Supplied (q : GqlQuery) : Condition → Prop where
  | compare {property : String} {relation : Comparison} {v : Value} (held : v ∈ boundValues q) :
      Supplied q (.compare property relation v)
  | hasAncestor {k : Key} {marks : Marks} (held : .single ⟨.key k, marks⟩ ∈ boundValues q) : Supplied q (.hasAncestor k)

section Operands

variable {g : Grammar} {q : GqlQuery} {v : Value} {t : Condition} {cs : List Char}

theorem Bound.mem (bound : Bound q v cs) : v ∈ boundValues q := by
  cases bound with
  | named other found =>
      exact List.mem_append_right _ (List.mem_map_of_mem (f := Prod.snd) (Bindings.mem_of_at? found))
  | position count found => exact List.mem_append_left _ (List.mem_of_getElem? found)

/-- Without literals, an operand is a reference. -/
theorem OperandText.reference_of_forbidden (forbidden : q.allowLiteral = false) (stated : OperandText g q v cs) :
    ReferenceText q v cs := by
  cases stated with
  | reference given => exact given
  | literal allowed => simp [forbidden] at allowed

theorem ConditionText.supplied (stated : ConditionText (ReferenceText q) t cs) : Supplied q t := by
  cases stated with
  | compare word ahead behind given =>
      obtain ⟨bound⟩ := given
      exact .compare bound.mem
  | hasAncestor spelled opened spaced given =>
      obtain ⟨bound⟩ := given
      exact .hasAncestor bound.mem

end Operands

theorem Stated.imp {α : Type} {listed other : List α → List Char → Prop} {items : List α} {text? : Option (List Char)}
    (stated : Stated listed items text?) (imp : ∀ text, listed items text → other items text) :
    Stated other items text? := by
  cases stated with
  | nothing => exact .nothing
  | text given => exact .text (imp _ given)

/-- If literals are forbidden, every value in the filter of an accepted text is bound, under a name or at a position to
which the text refers. -/
theorem conditions_supplied {q : GqlQuery} {s : StructuredQuery} (forbidden : q.allowLiteral = false)
    (accepted : Gql.structured q = .ok s) :
    (∃ c, Layout c q.text.toList ∧
      Stated (Padded (Separated Conjunction (ConditionText (ReferenceText q)))) s.conditions c.conditions?) ∧
    ∀ t ∈ s.conditions, Supplied q t := by
  obtain ⟨c, layout, denotes⟩ := derivable_of_structured accepted
  have conditioned : Stated (Padded (Separated Conjunction (ConditionText (ReferenceText q)))) s.conditions
      c.conditions? := by
    refine denotes.conditioned.imp fun text padded => padded.imp fun body _ listed => ?_
    refine listed.imp fun t _ cs _ stated => ?_
    exact stated.imp fun v value _ _ operand => operand.reference_of_forbidden forbidden
  refine ⟨⟨c, layout, conditioned⟩, ?_⟩
  generalize c.conditions? = conditions? at conditioned
  generalize s.conditions = tests at conditioned
  cases conditioned with
  | nothing => exact List.forall_mem_nil _
  | text given =>
      obtain ⟨body, listed, -⟩ := given.infix_item
      intro t member
      obtain ⟨piece, stated, -⟩ := listed.infix_items t member
      exact stated.supplied

/-- A name and a position as references, and a key with marks of its own. -/
theorem conditions_supplied_of_references :
    let team : Key := ⟨⟨⟨"app", by decide⟩, none, [], ⟨"Team", by decide⟩⟩, .id ⟨1, by decide⟩⟩
    let young : Value := .ofScalar (.long ⟨30, by decide⟩)
    let q : GqlQuery := ⟨.unknown, none, "SELECT * FROM Person WHERE age < @1 AND __key__ HAS ANCESTOR @team", false,
      [("team", .single ⟨.key team, ⟨some false, some 2⟩⟩)], [young]⟩
    let s : StructuredQuery := {
      resultType := .full, namespaceName := none, kind := some "Person",
      filter := some (.all [.condition (.compare "age" .less young), .condition (.hasAncestor team)]), orders := [],
      projections := [], groupBy := [], limit := none, offset := 0 }
    q.allowLiteral = false ∧ Gql.structured q = .ok s ∧ (∃ c, Layout c q.text.toList ∧
      Stated (Padded (Separated Conjunction (ConditionText (ReferenceText q)))) s.conditions c.conditions?) ∧
      ∀ t ∈ s.conditions, Supplied q t := by
  intro team young q s
  have accepted : Gql.structured q = .ok s := by
    simp only [q, s, young, team]
    rfl
  exact ⟨rfl, accepted, conditions_supplied rfl accepted⟩

end EntityStore.Gql
