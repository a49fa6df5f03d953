import EntityStore.Proofs.Refusal
import Mathlib.Data.List.Infix

set_option autoImplicit false

namespace EntityStore.Gql

open Text

/-- Accepted texts belong to the grammar, up to selected names and quoted texts, and others are refused. -/
theorem accepted_of_grammar (q : GqlQuery) :
    (∀ s, Gql.structured q = .ok s → Derivable .loose q s ∧
      ((∀ name, String.ofList name ∈ s.projected → Word name) →
        (∀ t ∈ s.conditions, ∀ quote inside, quote = '\'' ∨ quote = '"' →
          t.value = .ofScalar (.string (String.ofList inside)) → quote :: inside ++ [quote] <:+: q.text.toList →
            quote ∉ inside) →
        Derivable .strict q s)) ∧
    ((¬ ∃ s, Derivable .loose q s) → (∀ digits, digits <:+: q.text.toList → ¬ Unreadable digits) →
      ∃ fault, Gql.structured q = .error (.invalid fault)) := by
  refine ⟨fun s accepted => ?_, fun underived readable => ?_⟩
  · have derived := derivable_of_structured accepted
    exact ⟨derived, fun names quotes => derived.mono names quotes⟩
  · have answers := answers_structured q
    cases answer : Gql.structured q with
    | ok s => exact absurd ⟨s, derivable_of_structured answer⟩ underived
    | error e =>
        rcases answers.refused e answer with rfl | ⟨fault, rfl⟩
        · obtain ⟨c, found, -, stops⟩ := answers.stopped.mp answer
          obtain ⟨digits, inside, unreadable⟩ := stops.infix_digits found
          exact absurd unreadable (readable digits inside)
        · exact ⟨fault, rfl⟩

/-- A quoted text with the other quote inside, and a statement of another kind. -/
theorem accepted_of_grammar_of_texts :
    let q : GqlQuery := ⟨.projection, none, "SELECT name FROM K WHERE title = \"it's\"", true, [], []⟩
    let s : StructuredQuery := {
      resultType := .projection, namespaceName := none, kind := some "K",
      filter := some (.condition (.compare "title" .equal (.ofScalar (.string "it's")))), orders := [],
      projections := [⟨"name", false⟩], groupBy := [], limit := none, offset := 0 }
    let other : GqlQuery := ⟨.unknown, none, "DELETE FROM K", true, [], []⟩
    (Gql.structured q = .ok s ∧ Derivable .loose q s ∧ Derivable .strict q s) ∧
      (¬ ∃ s, Derivable .loose other s) ∧ ∃ fault, Gql.structured other = .error (.invalid fault) := by
  intro q s other
  have accepted : Gql.structured q = .ok s := by
    simp only [q, s]
    rfl
  obtain ⟨derived, strictly⟩ := (accepted_of_grammar q).1 s accepted
  have strict := strictly
    (fun name given => by
      have same : String.ofList name = "name" := by simpa [s, StructuredQuery.projected] using given
      rw [← String.toList_ofList (l := name), same]
      decide +kernel)
    (fun t member quote inside sign string quoted => by
      obtain rfl : t = .compare "title" .equal (.ofScalar (.string "it's")) := by
        simpa [s, StructuredQuery.conditions, Filter.conditions] using member
      obtain rfl : inside = "it's".toList := by
        simp only [Condition.value, Value.ofScalar, Value.single.injEq, Element.mk.injEq, Scalar.string.injEq] at string
        rw [string.1, String.toList_ofList]
      rcases sign with rfl | rfl
      · exact absurd quoted (by decide)
      · decide)
  refine ⟨⟨accepted, derived, strict⟩, ?_⟩
  have lacking : ∀ d ∈ other.text.toList, foldCase d ≠ 's' := by decide
  have digitless : ∀ d ∈ other.text.toList, isDigit d = false := by decide +kernel
  have underived : ¬ ∃ s, Derivable .loose other s := by
    rintro ⟨s, c, layout, -⟩
    generalize other.text.toList = text at layout lacking
    obtain @⟨lead, select, gap, source, space, wheres, orders, limit, offset, trail, -, selects, -⟩ := layout
    have letter : 's' ∈ select.map foldCase := by
      rw [show select.map foldCase = "select".toList from selects]
      decide
    obtain ⟨d, member, same⟩ := List.mem_map.mp letter
    exact lacking d (by simp [member]) same
  refine ⟨underived, (accepted_of_grammar other).2 underived fun digits inside unreadable => ?_⟩
  obtain ⟨d, member⟩ := List.exists_mem_of_ne_nil digits unreadable.nonempty
  simpa [digitless d (inside.subset member)] using unreadable.digits d member

section Underivable

variable {g : Grammar} {q : GqlQuery} {s : StructuredQuery} {c : Clauses} {cs text : List Char}

/-- The letters of a keyword stand in its text. -/
theorem Keywords.letter {phrase : List String} (opened : Keywords phrase cs) :
    ∀ keyword ∈ phrase, ∀ k ∈ keyword.toList, ∃ d ∈ cs, foldCase d = k := by
  induction opened with
  | nil => exact List.forall_mem_nil _
  | @cons keyword more gap spelled later spaced spells follow ih =>
      refine List.forall_mem_cons.mpr ⟨fun k member => ?_, fun other inside k member => ?_⟩
      · rw [← show spelled.map foldCase = keyword.toList from spells] at member
        obtain ⟨d, letter, same⟩ := List.mem_map.mp member
        exact ⟨d, by simp [letter], same⟩
      · obtain ⟨d, letter, same⟩ := ih other inside k member
        exact ⟨d, by simp [letter], same⟩

/-- A text without a letter of a keyword has no clause with it. -/
theorem Clause.absent_of_lacking {phrase : List String} {body? : Option (List Char)} (clause : Clause phrase body? cs)
    {keyword : String} (member : keyword ∈ phrase) {k : Char} (letter : k ∈ keyword.toList)
    (lacking : ∀ d ∈ cs, foldCase d ≠ k) : body? = none ∧ cs = [] := by
  cases clause with
  | absent => exact ⟨rfl, rfl⟩
  | present opened spaced =>
      obtain ⟨d, inside, same⟩ := opened.letter keyword member k letter
      exact absurd same (lacking d (by simp [inside]))

/-- The parts of a text without orders and without numbers. -/
theorem Denotes.parts (denotes : Denotes g q c s) (layout : Layout c text) (unordered : ∀ d ∈ text, foldCase d ≠ 'd')
    (undecimal : ∀ d ∈ text, isDecimal d = false) : ∃ first second wheres trail,
      text = first ++ c.selected ++ second ++ wheres ++ trail ∧
      (∀ d ∈ first ++ second, isWord d = true ∨ isBlank d = true) ∧ Clause ["where"] c.conditions? wheres ∧
      Blanks trail := by
  have digitless {digits? : Option (List Char)} {n? : Option Nat} (count : Option.Rel Count digits? n?)
      (inside : ∀ digits ∈ digits?, digits <:+: text) : digits? = none := by
    cases count with
    | none => rfl
    | @some digits n count =>
        obtain ⟨d, member⟩ := List.exists_mem_of_ne_nil digits count.nonempty
        have decimal := count.chars d member
        simp [undecimal d ((inside digits rfl).subset member)] at decimal
  obtain ⟨offset, skips, -⟩ := denotes.skipped
  have unlimited := digitless denotes.limited layout.infix_limit
  have unskipped := digitless skips layout.infix_offset
  obtain @⟨lead, select, gap, source, space, wheres, orders, limit, offset, trail, ahead, selects, spaced, sourced,
    apart, conditioned, ordered, limited, skipped, behind⟩ := layout
  obtain ⟨-, rfl⟩ := ordered.absent_of_lacking (show "order" ∈ ["order", "by"] by decide)
    (show 'd' ∈ "order".toList by decide) fun d member => unordered d (by simp [member])
  rw [unlimited] at limited
  rw [unskipped] at skipped
  cases limited
  cases skipped
  refine ⟨lead ++ select ++ gap, source ++ space ++ c.kind, wheres, trail, by simp only [List.append_assoc,
    List.append_nil], fun d member => ?_, conditioned, behind⟩
  simp only [List.mem_append] at member
  rcases member with ((blank | letter) | blank) | (inside | blank) | letter
  · exact Or.inr (ahead d blank)
  · exact Or.inl ((selects.word (by decide)).chars d letter)
  · exact Or.inr (spaced.blanks d blank)
  · exact sourced.chars (by decide) d inside
  · exact Or.inr (apart.blanks d blank)
  · exact Or.inl (denotes.kind.chars d letter)

/-- Between two items stands nothing but a comma and white space. -/
theorem Separated.mem_of_sign {α : Type} {item : α → List Char → Prop} {items : List α}
    (listed : Separated Comma item items text) {sign : Char} (other : sign ≠ ',') (solid : isBlank sign = false)
    (member : sign ∈ text) : ∃ a ∈ items, ∃ piece, item a piece ∧ sign ∈ piece := by
  induction listed with
  | one stated => exact ⟨_, List.mem_cons_self, _, stated, member⟩
  | more stated apart follow ih =>
      obtain ⟨ahead, behind⟩ := apart
      simp only [List.mem_append, List.mem_cons] at member
      rcases member with (inside | blank | same | blank) | later
      · exact ⟨_, List.mem_cons_self, _, stated, inside⟩
      · simp [ahead sign blank] at solid
      · exact absurd same other
      · simp [behind sign blank] at solid
      · obtain ⟨a, within, piece, given, inside⟩ := ih later
        exact ⟨a, List.mem_cons_of_mem _ within, piece, given, inside⟩

theorem Padded.mem_of_sign {α : Type} {item : α → List Char → Prop} {a : α} (padded : Padded item a text) :
    ∃ cs, item a cs ∧ ∀ sign ∈ text, isBlank sign = false → sign ∈ cs := by
  obtain @⟨before, cs, after, ahead, given, behind⟩ := padded
  refine ⟨cs, given, fun sign member solid => ?_⟩
  simp only [List.mem_append] at member
  rcases member with (blank | inside) | blank
  · simp [ahead sign blank] at solid
  · exact inside
  · simp [behind sign blank] at solid

/-- A star selects everything, and nothing besides. -/
theorem SelectedText.star {requested type : ResultType} {projections : List Projection}
    (selected : SelectedText .strict requested type projections text) (star : '*' ∈ text) : text = ['*'] := by
  cases selected with
  | all => rfl
  | keys => simp [keyProperty] at star
  | names listed =>
      obtain ⟨name, -, piece, given, inside⟩ := listed.mem_of_sign (by decide) (by decide) star
      obtain ⟨word⟩ := given
      exact absurd (word.chars '*' inside) (by decide +kernel)

/-- The only signs in a selection are a star and commas. -/
theorem SelectedText.mem_of_sign {requested type : ResultType} {projections : List Projection} {sign : Char}
    (selected : SelectedText .strict requested type projections text) (solid : isBlank sign = false)
    (apart : isWord sign = false) (member : sign ∈ text) : sign = '*' ∨ sign = ',' := by
  cases selected with
  | all => exact Or.inl (List.mem_singleton.mp member)
  | keys => simp [name_keyProperty.chars sign member] at apart
  | names listed =>
      by_contra neither
      obtain ⟨name, -, piece, given, inside⟩ := listed.mem_of_sign (not_or.mp neither).2 solid member
      obtain ⟨word⟩ := given
      simp [word.chars sign inside] at apart

/-- Without the word AND there is one condition. -/
theorem Separated.alone_of_lacking {α : Type} {item : α → List Char → Prop} {items : List α}
    (listed : Separated Conjunction item items text) (lacking : ∀ d ∈ text, foldCase d ≠ 'n') : ∃ a, item a text := by
  cases listed with
  | one stated => exact ⟨_, stated⟩
  | more stated joined follow =>
      obtain ⟨opened, spaced⟩ := joined
      obtain ⟨d, inside, same⟩ := opened.letter "and" (by decide) 'n' (by decide)
      exact absurd same (lacking d (by simp [inside]))

/-- Another sign can only be a part of the conditions.  If there is only one condition, the sign is a part of its
operand. -/
theorem Denotes.operand (denotes : Denotes .strict q c s) (layout : Layout c text)
    (unordered : ∀ d ∈ text, foldCase d ≠ 'd') (single : ∀ d ∈ text, foldCase d ≠ 'n')
    (undecimal : ∀ d ∈ text, isDecimal d = false) {sign : Char} (member : sign ∈ text) (solid : isBlank sign = false)
    (apart : isWord sign = false) (other : sign ∉ ['*', ',', '<', '>', '=']) : ∃ before v value after,
      text = before ++ value ++ after ∧ sign ∉ before ∧ OperandText .strict q v value ∧ Blanks after := by
  obtain ⟨first, second, wheres, trail, rfl, plain, conditioned, blanks⟩ := denotes.parts layout unordered undecimal
  have unplain {cs : List Char} (plain : ∀ d ∈ cs, isWord d = true ∨ isBlank d = true) : sign ∉ cs := fun inside => by
    simpa [solid, apart] using plain sign inside
  have outside {cs : List Char} (blanks : Blanks cs) : sign ∉ cs := unplain fun d blank => Or.inr (blanks d blank)
  have sides : sign ∉ first ∧ sign ∉ second :=
    ⟨unplain fun d inside => plain d (List.mem_append_left _ inside),
      unplain fun d inside => plain d (List.mem_append_right _ inside)⟩
  have selected : sign ∉ c.selected := fun inside => by
    obtain ⟨text, given, whole⟩ := denotes.selected.mem_of_sign
    rcases given.mem_of_sign solid apart (whole sign inside solid) with rfl | rfl <;> simp at other
  have conditions := denotes.conditioned
  generalize c.conditions? = conditions? at conditioned conditions
  generalize s.conditions = tests at conditions
  cases conditions with
  | nothing =>
      cases conditioned
      simp [sides, selected, outside blanks] at member
  | text given =>
      obtain @⟨lead, listed, tail, leads, items, tails⟩ := given
      cases conditioned with
      | @present opening gap _ opened spaced =>
          obtain ⟨t, stated⟩ := items.alone_of_lacking fun d inside => single d (by simp [inside])
          obtain ⟨finish, v, value, form, operand⟩ := stated.form
          obtain ⟨leading, rfl, ahead⟩ := form.leading_of_sign solid apart fun symbol =>
            other (List.mem_cons_of_mem _ (List.mem_cons_of_mem _ symbol))
          have phrase : sign ∉ opening := unplain (opened.chars (by decide))
          refine ⟨first ++ c.selected ++ second ++ (opening ++ gap) ++ lead ++ leading, v, value, tail ++ trail,
            by simp only [List.append_assoc], ?_, operand, List.forall_mem_append.mpr ⟨tails, blanks⟩⟩
          simp only [List.mem_append, sides, selected, phrase, ahead, outside spaced.blanks, outside leads, or_self,
            not_false_eq_true]

end Underivable

/-- A star among selected names is read as a name.  A text with its own quote inside is read as one literal, here two
comparisons that the word OR joins.  The grammar as it is meant has neither. -/
theorem accepted_outside_grammar :
    let star : GqlQuery := ⟨.unknown, none, "SELECT *, a FROM K", true, [], []⟩
    let quotes : GqlQuery := ⟨.unknown, none, "SELECT * FROM K WHERE a = 'x' OR b = 'y'", true, [], []⟩
    (Gql.structured star = .ok {
        resultType := .projection, namespaceName := none, kind := some "K", filter := none, orders := [],
        projections := [⟨"*", false⟩, ⟨"a", false⟩], groupBy := [], limit := none, offset := 0 } ∧
      ¬ ∃ s, Derivable .strict star s) ∧
    Gql.structured quotes = .ok {
        resultType := .full, namespaceName := none, kind := some "K",
        filter := some (.condition (.compare "a" .equal (.ofScalar (.string "x' OR b = 'y")))), orders := [],
        projections := [], groupBy := [], limit := none, offset := 0 } ∧
      ¬ ∃ s, Derivable .strict quotes s := by
  intro star quotes
  refine ⟨⟨?_, ?_⟩, ?_, ?_⟩
  · simp only [star]
    rfl
  · rintro ⟨s, c, layout, denotes⟩
    obtain ⟨first, second, wheres, trail, split, plain, conditioned, blanks⟩ :=
      denotes.parts layout (by decide) (by decide +kernel)
    have lacking : ∀ d ∈ star.text.toList, foldCase d ≠ 'w' := by decide
    obtain ⟨-, rfl⟩ := conditioned.absent_of_lacking (show "where" ∈ ["where"] by decide)
      (show 'w' ∈ "where".toList by decide) fun d member => lacking d (by simp [split, member])
    have inside (sign : Char) (member : sign ∈ star.text.toList) (solid : isBlank sign = false)
        (apart : isWord sign = false) : sign ∈ c.selected := by
      rw [split] at member
      simp only [List.mem_append, List.not_mem_nil, or_false] at member
      rcases member with ((front | selected) | back) | blank
      · simpa [solid, apart] using plain sign (List.mem_append_left _ front)
      · exact selected
      · simpa [solid, apart] using plain sign (List.mem_append_right _ back)
      · simp [blanks sign blank] at solid
    obtain ⟨text, selected, whole⟩ := denotes.selected.mem_of_sign
    have starred := whole '*' (inside '*' (by decide) (by decide) (by decide +kernel)) (by decide)
    have comma := whole ',' (inside ',' (by decide) (by decide) (by decide +kernel)) (by decide)
    rw [selected.star starred] at comma
    simp at comma
  · simp only [quotes]
    rfl
  · rintro ⟨s, c, layout, denotes⟩
    obtain ⟨before, v, value, after, split, apart, operand, blanks⟩ := denotes.operand layout (by decide) (by decide)
      (by decide +kernel) (show '\'' ∈ quotes.text.toList by decide) (by decide) (by decide +kernel) (by decide)
    have stop : Flush quotes.text.toList.reverse := by
      rw [show quotes.text.toList.reverse = '\'' :: quotes.text.toList.reverse.tail by decide]
      exact flush_cons.mpr (by decide)
    rw [split] at stop
    obtain rfl := eq_nil_of_flush blanks stop
    rw [List.append_nil] at split
    have member : value ∈ quotes.text.toList.tails := (List.mem_tails _ _).mpr ⟨before, split.symm⟩
    have signs : '@' ∉ quotes.text.toList ∧ '"' ∉ quotes.text.toList := by decide
    -- No other literal stands at the end of the text.
    have unread : ∀ text ∈ quotes.text.toList.tails,
        text.flatMap capital ∉ ["NULL".toList, "TRUE".toList, "FALSE".toList] ∧ Number.integer? text = none ∧
          Number.double? text = none := by
      decide +kernel
    obtain ⟨words, integer, double⟩ := unread value member
    cases operand with
    | reference given =>
        obtain ⟨bound⟩ := given
        exact signs.1 (by simp [split])
    | literal allowed given =>
        cases given with
        | null spelled => simp [spelled] at words
        | @truth b _ spelled => cases b <;> simp [spelled] at words
        | integer read => simp [integer] at read
        | double read => simp [double] at read
        | @quoted quote inside sign within =>
            rcases sign with rfl | rfl
            · have rest : quotes.text.toList.dropWhile (· ≠ '\'') = '\'' :: inside ++ ['\''] := by
                rw [split, List.dropWhile_append_of_pos (by grind), List.cons_append,
                  List.dropWhile_cons_of_neg (by simp)]
              have again : '\'' ∈ (quotes.text.toList.dropWhile (· ≠ '\'')).tail.dropLast := by decide
              rw [rest] at again
              simp at again
              exact within again
            · exact signs.2 (by simp [split])

end EntityStore.Gql
