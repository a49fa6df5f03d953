import EntityStore.Proofs.Parsing

set_option autoImplicit false

namespace EntityStore.Gql

open Text

/-- What the two forms of the grammar differ in: the names that may be selected, and the texts that may stand between
two equal quotes. -/
structure Grammar where
  name : List Char → Prop
  quotable : Char → List Char → Prop

/-- The grammar as it is meant: a selected name consists of word characters, and a quoted text ends at the first quote
like the one it starts with. -/
def Grammar.strict : Grammar := ⟨Word, fun quote inside => quote ∉ inside⟩

/-- The grammar as it is read: a selected name is anything without a comma and without white space at its ends, and a
quoted text ends where its operand ends, on the same line. -/
def Grammar.loose : Grammar :=
  ⟨fun name => ',' ∉ name ∧ Flush name ∧ Flush name.reverse, fun _ inside => '\n' ∉ inside⟩

/-- A text with any white space around it. -/
inductive Padded {α : Type} (stated : α → List Char → Prop) (a : α) : List Char → Prop where
  | text {before cs after : List Char} (ahead : Blanks before) (given : stated a cs) (behind : Blanks after) :
      Padded stated a (before ++ cs ++ after)

/-- A number in decimal digits of any scripts, not more than can be read. -/
structure Count (cs : List Char) (n : Nat) : Prop extends Digits cs where
  value : decimalNumber? cs = some n
  short : cs.length ≤ 4300

/-- The value that a reference stands for.  A reference in digits is a position, counted from 1, and any other is a
name. -/
inductive Bound (q : GqlQuery) : Value → List Char → Prop where
  | named {v : Value} {cs : List Char} (other : cs = [] ∨ ∃ c ∈ cs, isDigit c = false)
      (found : q.named.at? (String.ofList cs) = some v) : Bound q v cs
  | position {v : Value} {cs : List Char} {n : Nat} (count : Count cs (n + 1)) (found : q.positional[n]? = some v) :
      Bound q v cs

/-- A reference to a bound value. -/
inductive ReferenceText (q : GqlQuery) : Value → List Char → Prop where
  | sign {v : Value} {reference : List Char} (bound : Bound q v reference) : ReferenceText q v ('@' :: reference)

/-- The empty value and the truth values in letters of any case, a text between equal quotes, and numbers. -/
inductive LiteralText (g : Grammar) : Value → List Char → Prop where
  | null {cs : List Char} (spelled : cs.flatMap capital = "NULL".toList) : LiteralText g (.ofScalar .null) cs
  | truth {b : Bool} {cs : List Char} (spelled : cs.flatMap capital = (if b then "TRUE" else "FALSE").toList) :
      LiteralText g (.ofScalar (.boolean b)) cs
  | quoted {quote : Char} {inside : List Char} (sign : quote = '\'' ∨ quote = '"')
      (within : g.quotable quote inside) :
      LiteralText g (.ofScalar (.string (String.ofList inside))) (quote :: inside ++ [quote])
  | integer {n : Long} {cs : List Char} (read : Number.integer? cs = some n.value) :
      LiteralText g (.ofScalar (.long n)) cs
  | double {x : Double} {cs : List Char} (read : Number.double? cs = some x) : LiteralText g (.ofScalar (.double x)) cs

/-- An operand of a condition.  A query may forbid literals. -/
inductive OperandText (g : Grammar) (q : GqlQuery) : Value → List Char → Prop where
  | reference {v : Value} {cs : List Char} (given : ReferenceText q v cs) : OperandText g q v cs
  | literal {v : Value} {cs : List Char} (allowed : q.allowLiteral = true) (given : LiteralText g v cs) :
      OperandText g q v cs

/-- A condition: a property, a comparison sign and an operand, or the test for an ancestor with a key as operand. -/
inductive ConditionText (operand : Value → List Char → Prop) : Condition → List Char → Prop where
  | compare {property before after value : List Char} {relation : Comparison} {v : Value} (word : Word property)
      (ahead : Blanks before) (behind : Blanks after) (given : operand v value) :
      ConditionText operand (.compare (String.ofList property) relation v)
        (property ++ (before ++ relation.symbol.toList ++ after) ++ value)
  | hasAncestor {key phrase gap value : List Char} {k : Key} {marks : Marks} (spelled : Spells keyProperty key)
      (opened : Keywords ["has", "ancestor"] phrase) (spaced : Gap gap)
      (given : operand (.single ⟨.key k, marks⟩) value) :
      ConditionText operand (.hasAncestor k) (key ++ (phrase ++ gap) ++ value)

/-- A property to order by, and the direction, which is ascending if it is left out. -/
inductive SortText : Order → List Char → Prop where
  | plain {property : List Char} (word : Word property) : SortText ⟨String.ofList property, .ascending⟩ property
  | directed {property direction : List Char} {o : Direction} (word : Word property)
      (opened : Keywords [if o = .ascending then "asc" else "desc"] direction) :
      SortText ⟨String.ofList property, o⟩ (property ++ direction)

/-- A selected name. -/
inductive NamedText (g : Grammar) : String → List Char → Prop where
  | name {cs : List Char} (name : g.name cs) : NamedText g (String.ofList cs) cs

/-- What is selected: everything, the keys, or some names. -/
inductive SelectedText (g : Grammar) (requested : ResultType) : ResultType → List Projection → List Char → Prop where
  | all : SelectedText g requested .full [] ['*']
  | keys : SelectedText g requested (if requested = .projection then .projection else .keyOnly) [⟨keyProperty, false⟩]
      keyProperty.toList
  | names {names : List String} {text : List Char} (listed : Separated Comma (NamedText g) names text) :
      SelectedText g requested .projection (names.map (⟨·, false⟩)) text

/-- The parts of a text as the grammar has them, and the query that they denote. -/
structure Denotes (g : Grammar) (q : GqlQuery) (c : Clauses) (s : StructuredQuery) : Prop where
  selected : Padded (SelectedText g q.resultType s.resultType) s.projections c.selected
  fits : q.resultType = .unknown ∨ q.resultType = s.resultType
  kind : Word c.kind
  source : s.namespaceName = q.namespaceName ∧ s.kind = some (String.ofList c.kind)
  conditioned : Stated (Padded (Separated Conjunction (ConditionText (OperandText g q)))) s.conditions c.conditions?
  conjoined : Conjoined s.conditions s.filter
  ordered : Stated (Padded (Separated Comma SortText)) s.orders c.orders?
  limited : Option.Rel Count c.limit? s.limit
  skipped : ∃ offset, Option.Rel Count c.offset? offset ∧ s.offset = offset.getD 0
  ungrouped : s.groupBy = []

/-- The text of a query belongs to the grammar and denotes a structured query. -/
def Derivable (g : Grammar) (q : GqlQuery) (s : StructuredQuery) : Prop :=
  ∃ c, Layout c q.text.toList ∧ Denotes g q c s

theorem Keywords.chars {phrase : List String} {cs : List Char} (known : ∀ keyword ∈ phrase, keyword ∈ keywords)
    (opened : Keywords phrase cs) : ∀ c ∈ cs, isWord c = true ∨ isBlank c = true := by
  induction opened with
  | nil => exact List.forall_mem_nil _
  | @cons keyword more gap spelled later spaced spells follow ih =>
      obtain ⟨own, others⟩ := List.forall_mem_cons.mp known
      intro c member
      simp only [List.mem_append] at member
      rcases member with (blank | letter) | inside
      · exact Or.inr (spaced.blanks c blank)
      · exact Or.inl ((spells.word own).chars c letter)
      · exact ih others c inside

section Parts

variable {α : Type} {separator : List Char → Prop} {item other : α → List Char → Prop} {items : List α} {a : α}
  {text : List Char}

theorem Padded.imp (padded : Padded item a text) (imp : ∀ cs, cs <:+: text → item a cs → other a cs) :
    Padded other a text := by
  obtain @⟨before, cs, after, ahead, given, behind⟩ := padded
  exact .text ahead (imp cs (List.infix_append ..) given) behind

theorem Separated.imp (listed : Separated separator item items text)
    (imp : ∀ a ∈ items, ∀ cs, cs <:+: text → item a cs → other a cs) : Separated separator other items text := by
  induction listed with
  | one stated => exact .one (imp _ List.mem_cons_self _ (List.infix_refl _) stated)
  | @more a rest cs between later stated apart follow ih =>
      refine .more (imp a List.mem_cons_self cs ?_ stated) apart (ih fun b member text inside => ?_)
      · exact ⟨[], between ++ later, by rw [List.nil_append, List.append_assoc]⟩
      · exact imp b (List.mem_cons_of_mem a member) text (inside.trans (List.suffix_append ..).isInfix)

/-- White space around the items belongs to what stands between them. -/
theorem Separated.padded (absorbs : ∀ before cs after, Blanks before → separator cs → Blanks after →
    separator (before ++ cs ++ after)) (listed : Separated separator (Padded item) items text) :
    Padded (Separated separator item) items text := by
  induction listed with
  | one stated =>
      obtain ⟨ahead, given, behind⟩ := stated
      exact .text ahead (.one given) behind
  | @more a rest cs between later stated apart follow ih =>
      obtain @⟨before, first, after, ahead, given, behind⟩ := stated
      obtain @⟨lead, body, trail, leads, listed, trails⟩ := ih
      have joined := absorbs after between lead behind apart leads
      have whole := Padded.text ahead (Separated.more given joined listed) trails
      simpa only [List.append_assoc] using whole

theorem Padded.infix_item (padded : Padded item a text) : ∃ cs, item a cs ∧ cs <:+: text := by
  obtain ⟨ahead, given, behind⟩ := padded
  exact ⟨_, given, List.infix_append ..⟩

theorem Separated.infix_items (listed : Separated separator item items text) :
    ∀ a ∈ items, ∃ piece, item a piece ∧ piece <:+: text := by
  induction listed with
  | one stated =>
      rintro _ (_ | ⟨_, none⟩)
      · exact ⟨_, stated, List.infix_refl _⟩
      · cases none
  | more stated apart follow ih =>
      refine List.forall_mem_cons.mpr ⟨⟨_, stated, ?_⟩, fun b member => ?_⟩
      · rw [List.append_assoc]
        exact (List.prefix_append ..).isInfix
      · obtain ⟨piece, given, inside⟩ := ih b member
        exact ⟨piece, given, inside.trans (List.suffix_append ..).isInfix⟩

end Parts

section Conditions

variable {g h : Grammar} {q : GqlQuery} {operand other : Value → List Char → Prop} {t : Condition} {v : Value}
  {cs : List Char}

/-- If the operand of a condition is a text, it is the value that the condition compares with. -/
theorem ConditionText.imp (stated : ConditionText operand t cs)
    (imp : ∀ v value, (∀ s, v = .ofScalar (.string s) → t.value = v) → value <:+: cs → operand v value →
      other v value) : ConditionText other t cs := by
  cases stated with
  | compare word ahead behind given =>
      exact .compare word ahead behind (imp _ _ (fun _ _ => rfl) (List.suffix_append ..).isInfix given)
  | hasAncestor spelled opened spaced given =>
      exact .hasAncestor spelled opened spaced (imp _ _ nofun (List.suffix_append ..).isInfix given)

theorem OperandText.mono (stated : OperandText g q v cs)
    (quotes : ∀ quote inside, quote = '\'' ∨ quote = '"' → v = .ofScalar (.string (String.ofList inside)) →
      quote :: inside ++ [quote] <:+: cs → h.quotable quote inside) : OperandText h q v cs := by
  cases stated with
  | reference given => exact .reference given
  | literal allowed given =>
      refine .literal allowed ?_
      cases given with
      | null spelled => exact .null spelled
      | truth spelled => exact .truth spelled
      | quoted sign within => exact .quoted sign (quotes _ _ sign rfl (List.infix_refl _))
      | integer read => exact .integer read
      | double read => exact .double read

end Conditions

section Queries

variable {g h : Grammar} {q : GqlQuery} {c : Clauses} {s : StructuredQuery} {text : List Char}

theorem Clause.infix_body {phrase : List String} {body? : Option (List Char)} {cs : List Char}
    (clause : Clause phrase body? cs) : ∀ body ∈ body?, body <:+: cs := by
  rintro body ⟨⟩
  cases clause with
  | present opened spaced => exact (List.suffix_append ..).isInfix

/-- The conditions, the limit and the offset are parts of the text. -/
theorem Layout.infix_conditions (layout : Layout c text) : ∀ conditions ∈ c.conditions?, conditions <:+: text := by
  intro conditions given
  obtain @⟨lead, select, gap, source, space, wheres, orders, limit, offset, trail, -, -, -, -, -, conditioned, -, -, -,
    -⟩ := layout
  refine (conditioned.infix_body conditions given).trans ⟨lead ++ select ++ gap ++ c.selected ++ source ++ space ++
    c.kind, orders ++ limit ++ offset ++ trail, ?_⟩
  simp only [List.append_assoc]

theorem Layout.infix_limit (layout : Layout c text) : ∀ digits ∈ c.limit?, digits <:+: text := by
  intro digits given
  obtain @⟨lead, select, gap, source, space, wheres, orders, limit, offset, trail, -, -, -, -, -, -, -, limited, -,
    -⟩ := layout
  refine (limited.infix_body digits given).trans ⟨lead ++ select ++ gap ++ c.selected ++ source ++ space ++ c.kind ++
    wheres ++ orders, offset ++ trail, ?_⟩
  simp only [List.append_assoc]

theorem Layout.infix_offset (layout : Layout c text) : ∀ digits ∈ c.offset?, digits <:+: text := by
  intro digits given
  obtain @⟨lead, select, gap, source, space, wheres, orders, limit, offset, trail, -, -, -, -, -, -, -, -, skipped,
    -⟩ := layout
  exact (skipped.infix_body digits given).trans (List.infix_append ..)

theorem SelectedText.mono {requested type : ResultType} {projections : List Projection}
    (selected : SelectedText g requested type projections text)
    (names : ∀ name, String.ofList name ∈ projections.map Projection.property → h.name name) :
    SelectedText h requested type projections text := by
  cases selected with
  | all => exact .all
  | keys => exact .keys
  | names listed =>
      refine .names (listed.imp fun name member cs _ stated => ?_)
      obtain ⟨-⟩ := stated
      exact .name (names _ (by simpa [List.map_map, Function.comp_def] using member))

/-- A derivation in one form of the grammar is one in another, if that has the selected names and the quoted texts. -/
theorem Derivable.mono (derived : Derivable g q s)
    (names : ∀ name, String.ofList name ∈ s.projected → h.name name)
    (quotes : ∀ t ∈ s.conditions, ∀ quote inside, quote = '\'' ∨ quote = '"' →
      t.value = .ofScalar (.string (String.ofList inside)) → quote :: inside ++ [quote] <:+: q.text.toList →
      h.quotable quote inside) : Derivable h q s := by
  obtain ⟨c, layout, read⟩ := derived
  refine ⟨c, layout, { read with
    selected := read.selected.imp fun cs _ selected => selected.mono names
    conditioned := ?_ }⟩
  have within := layout.infix_conditions
  have conditioned := read.conditioned
  generalize c.conditions? = conditions? at within conditioned
  generalize s.conditions = tests at conditioned quotes
  cases conditioned with
  | nothing => exact .nothing
  | text given =>
      refine .text (given.imp fun body inBody listed => listed.imp fun t member cs inside stated => ?_)
      refine stated.imp fun v value same further operand => operand.mono fun quote between sign string quoted => ?_
      have whole := inside.trans (inBody.trans (within _ rfl))
      exact quotes t member quote between sign ((same _ string).trans string) (quoted.trans (further.trans whole))

end Queries

end EntityStore.Gql
