import EntityStore.Proofs.Dissection

set_option autoImplicit false

namespace EntityStore.Gql

open Text

section Operands

variable {g : Grammar} {q : GqlQuery} {v : Value} {cs text : List Char} {n : Nat}

theorem decimalNumber?_eq_none_iff : decimalNumber? cs = none ↔ ∃ c ∈ cs, isDecimal c = false := by
  have stays (cs : List Char) :
      cs.foldl (fun number c => do return (← number) * 10 + (← digitValue? c)) (none : Option Nat) = none := by
    induction cs with
    | nil => rfl
    | cons c rest ih => exact ih
  have onward (start : Nat) : cs.foldl (fun number c => do return (← number) * 10 + (← digitValue? c)) (some start) =
      none ↔ ∃ c ∈ cs, isDecimal c = false := by
    induction cs generalizing start with
    | nil => simp
    | cons c rest ih =>
        rw [List.foldl_cons, List.exists_mem_cons_iff]
        cases digit : digitValue? c with
        | none =>
            refine iff_of_true (stays rest) (Or.inl ?_)
            rw [isDecimal, digit]
            rfl
        | some d =>
            have decimal : isDecimal c = true := by
              rw [isDecimal, digit]
              rfl
            simpa [decimal] using ih (start * 10 + d)
  exact onward 0

theorem count_of_digits (nonempty : cs ≠ []) (read : Gql.digits cs = .ok n) : Count cs n := by
  unfold Gql.digits at read
  split at read
  · next number =>
      split at read
      · cases read
      · next short =>
          cases read
          refine ⟨⟨nonempty, fun c member => ?_⟩, number, Nat.le_of_not_lt short⟩
          by_contra undecimal
          have none : decimalNumber? cs = none :=
            decimalNumber?_eq_none_iff.mpr ⟨c, member, Bool.eq_false_iff.mpr undecimal⟩
          rw [none] at number
          cases number
  · cases read

theorem Bound.of_bound (read : bound q cs = .ok v) : Bound q v cs := by
  unfold bound at read
  split at read
  · next digits =>
      have nonempty : cs ≠ [] := by
        rintro rfl
        simp at digits
      cases number : Gql.digits cs with
      | error e =>
          rw [number] at read
          cases read
      | ok position =>
          rw [number] at read
          simp only [bind, Except.bind] at read
          split at read
          · next n w found =>
              cases read
              exact .position (count_of_digits nonempty number) found
          · cases read
  · next other =>
      split at read
      · next w found =>
          cases read
          refine .named ?_ found
          by_cases empty : cs = []
          · exact Or.inl empty
          · right
            simpa [empty] using other
      · cases read

/-- An integer becomes a value if it has 64 bits. -/
theorem value_of_integer (i : Int) : Value.of .long (.int i) = match Long.ofInt? i with
    | some l => .ok (.ofScalar (.long l))
    | none => .error (ValueFault.longRange i).error := by
  have created : Payload.create .long (.int i) = match Long.ofInt? i with
      | some l => .ok (.scalar (.long l))
      | none => .error (ValueFault.longRange i).error := rfl
  rw [Value.of, if_neg nofun, ValueDraft.withPayload_eq, show (ValueDraft.empty .long).variant = .long from rfl,
    created]
  cases found : Long.ofInt? i with
  | none => rfl
  | some l =>
      rw [Long.ofInt?_eq_some_iff.mp found] at found
      show Value.create .long (.int l.value) (some .none) .none = .ok (.ofScalar (.long l))
      simp only [Value.create, Payload.create, found]
      rfl

theorem quoted_of_unquoted? {inside : List Char} (unquoted : unquoted? cs = some inside) :
    ∃ quote, (quote = '\'' ∨ quote = '"') ∧ cs = quote :: inside ++ [quote] := by
  unfold unquoted? at unquoted
  split at unquoted
  · next quote second rest =>
      split at unquoted
      · next quoted =>
          cases unquoted
          refine ⟨quote, quoted.1, ?_⟩
          have last := List.dropLast_append_getLast? quote (Option.mem_def.mpr quoted.2)
          rw [List.cons_append, last]
      · cases unquoted
  · cases unquoted

theorem LiteralText.of_literal (line : '\n' ∉ cs) (read : literal cs = .ok v) : LiteralText .loose v cs := by
  unfold literal at read
  split at read
  · next word =>
      cases read
      exact .null (beq_iff_eq.mp word)
  split at read
  · next word =>
      cases read
      exact .truth (b := true) (beq_iff_eq.mp word)
  split at read
  · next word =>
      cases read
      exact .truth (b := false) (beq_iff_eq.mp word)
  split at read
  · next inside unquoted =>
      cases read
      obtain ⟨quote, sign, rfl⟩ := quoted_of_unquoted? unquoted
      exact .quoted sign fun member => line (by simp [member])
  split at read
  · next n number =>
      rw [value_of_integer] at read
      split at read
      · next l long =>
          cases read
          exact .integer (number.trans (congrArg some (Long.ofInt?_eq_some_iff.mp long)))
      · cases read
  split at read
  · next x number =>
      cases read
      exact .double number
  · cases read

theorem OperandText.of_operand (line : '\n' ∉ cs) (read : operand q cs = .ok v) :
    Padded (OperandText .loose q) v cs := by
  refine Padded.of_trim ?_
  replace line : '\n' ∉ trim cs := fun member => line (mem_of_mem_trim member)
  refine Padded.alone ?_
  unfold operand at read
  split at read
  · next reference text =>
      rw [text]
      exact .reference (.sign (Bound.of_bound read))
  · next text other =>
      split at read
      · next allowed => exact .literal allowed (LiteralText.of_literal line read)
      · cases read

end Operands

section Conditions

variable {q : GqlQuery} {t : Condition} {o : Order} {cs text : List Char}

theorem gap_of_operandText? (found : operandText? cs = some text) :
    ∃ before, Blanks before ∧ cs = before ++ text ∧ '\n' ∉ text := by
  unfold operandText? at found
  split at found
  · cases found
  · next given =>
      cases found
      simp only [Bool.or_eq_true, List.contains_iff_mem, not_or] at given
      exact ⟨cs.takeWhile isBlank, fun c member => List.mem_takeWhile_imp member,
        List.takeWhile_append_dropWhile.symm, given.2⟩

theorem symbol_of_comparison? {relation : Comparison} (found : comparison? cs = some (relation, text)) :
    ∃ before, Blanks before ∧ cs = relation.symbol.toList ++ before ++ text ∧ '\n' ∉ text := by
  obtain ⟨sign, member, here⟩ := List.exists_of_findSome?_eq_some found
  split at here
  · next starts =>
      obtain ⟨value, given, same⟩ := Option.map_eq_some_iff.mp here
      cases same
      obtain ⟨before, blanks, rest, line⟩ := gap_of_operandText? given
      have symbols : ∀ sign ∈ comparisons, sign.1 = sign.2.symbol.toList := by decide
      refine ⟨before, blanks, ?_, line⟩
      rw [List.append_assoc, ← rest, ← symbols sign member]
      exact (List.prefix_iff_eq_append.mp (List.isPrefixOf_iff_prefix.mp starts)).symm
  · cases here

theorem keywords_of_ancestorOperand? (found : ancestorOperand? cs = some text) :
    ∃ key phrase gap, Spells keyProperty key ∧ Keywords ["has", "ancestor"] phrase ∧ Gap gap ∧
      cs = key ++ (phrase ++ gap) ++ text ∧ '\n' ∉ text := by
  obtain ⟨rest, keyed, found⟩ := Option.bind_eq_some_iff.mp found
  obtain ⟨more, has, found⟩ := Option.bind_eq_some_iff.mp found
  obtain ⟨after, ancestor, found⟩ := Option.bind_eq_some_iff.mp found
  obtain ⟨last, spaced, given⟩ := Option.bind_eq_some_iff.mp found
  obtain ⟨key, rfl, spelled⟩ := keyword?_eq_some_iff.mp keyed
  obtain ⟨space, word, apart, spells, rfl⟩ := (skipKeyword?_eq_some_iff (by decide)).mp has
  obtain ⟨opening, opened, rfl⟩ := keywords_of_skipKeyword? (by decide) ancestor
  obtain ⟨gap, between, rfl⟩ := gap_of_skipBlanks? spaced
  obtain ⟨before, blanks, rfl, line⟩ := gap_of_operandText? given
  refine ⟨key, space ++ word ++ opening, gap ++ before, spelled, .cons apart spells opened, ⟨?_, ?_⟩, ?_, line⟩
  · exact List.append_ne_nil_of_left_ne_nil between.nonempty before
  · exact List.forall_mem_append.mpr ⟨between.blanks, blanks⟩
  · simp only [List.append_assoc]

/-- A condition is read if it has one of the two forms, and then it depends on what its operand denotes. -/
theorem form_of_condition (q : GqlQuery) (cs : List Char) :
    (∃ finish text, ConditionForm finish text cs ∧ '\n' ∉ text ∧ condition q cs = operand q text >>= finish) ∨
      condition q cs = .error (GqlFault.condition (String.ofList cs)).error := by
  unfold condition
  split
  · next text found =>
      obtain ⟨key, phrase, gap, spelled, opened, spaced, rfl, line⟩ := keywords_of_ancestorOperand? found
      exact Or.inl ⟨ancestorCondition, text, .hasAncestor spelled opened spaced, line, rfl⟩
  · simp only
    split
    · next property relation text parsed =>
        obtain ⟨⟨first, rest⟩, ran, further⟩ := Option.bind_eq_some_iff.mp parsed
        obtain ⟨⟨sign, value⟩, compared, same⟩ := Option.bind_eq_some_iff.mp further
        obtain ⟨rfl, rfl, rfl⟩ : property = first ∧ relation = sign ∧ text = value := by
          simpa [eq_comm] using same
        obtain ⟨rfl, nonempty, word⟩ := eq_append_of_run? ran
        obtain ⟨after, behind, split, line⟩ := symbol_of_comparison? compared
        have blanks : Blanks (rest.takeWhile isBlank) := fun c member => List.mem_takeWhile_imp member
        have parts : property ++ rest =
            property ++ (rest.takeWhile isBlank ++ relation.symbol.toList ++ after) ++ text := by
          simp only [List.append_assoc]
          rw [← List.append_assoc (relation.symbol.toList), ← split, trimStart, List.takeWhile_append_dropWhile]
        have form := @ConditionForm.compare _ _ _ text relation ⟨nonempty, word⟩ blanks behind
        refine Or.inl ⟨_, text, parts ▸ form, line, ?_⟩
        cases operand q text <;> rfl
    · exact Or.inr rfl

/-- White space around the text of the operand belongs to what stands before it, and to the end. -/
theorem ConditionForm.trim {finish : Value → Except Error Condition} {before after : List Char}
    (form : ConditionForm finish (before ++ text ++ after) cs) (ahead : Blanks before) :
    ∃ body, ConditionForm finish text body ∧ cs = body ++ after := by
  cases form with
  | @compare property lead trail _ relation word leads trails =>
      have wider := List.forall_mem_append.mpr ⟨trails, ahead⟩
      exact ⟨_, @ConditionForm.compare _ _ _ _ relation word leads wider, by simp only [List.append_assoc]⟩
  | @hasAncestor key phrase gap _ spelled opened spaced =>
      have wider : Gap (gap ++ before) :=
        ⟨List.append_ne_nil_of_left_ne_nil spaced.nonempty before, List.forall_mem_append.mpr ⟨spaced.blanks, ahead⟩⟩
      exact ⟨_, .hasAncestor spelled opened wider, by simp only [List.append_assoc]⟩

/-- What stands before the operand of a condition are words, white space and comparison signs. -/
theorem ConditionForm.leading {finish : Value → Except Error Condition} (form : ConditionForm finish text cs) :
    ∃ leading, cs = leading ++ text ∧ ∀ c ∈ leading, isWord c = true ∨ isBlank c = true ∨ c ∈ ['<', '>', '='] := by
  cases form with
  | @compare property before after _ relation word ahead behind =>
      refine ⟨_, rfl, fun c member => ?_⟩
      have signs : ∀ c ∈ relation.symbol.toList, c ∈ ['<', '>', '='] := by cases relation <;> decide
      simp only [List.mem_append] at member
      rcases member with inside | (blank | inside) | blank
      · exact Or.inl (word.chars c inside)
      · exact Or.inr (Or.inl (ahead c blank))
      · exact Or.inr (Or.inr (signs c inside))
      · exact Or.inr (Or.inl (behind c blank))
  | @hasAncestor key phrase gap _ spelled opened spaced =>
      refine ⟨_, rfl, fun c member => ?_⟩
      simp only [List.mem_append] at member
      rcases member with inside | inside | blank
      · exact Or.inl (Spells.chars spelled (by decide) c inside)
      · exact (opened.chars (by decide) c inside).imp_right Or.inl
      · exact Or.inr (Or.inl (spaced.blanks c blank))

theorem ConditionForm.leading_of_sign {finish : Value → Except Error Condition} (form : ConditionForm finish text cs)
    {sign : Char} (solid : isBlank sign = false) (apart : isWord sign = false) (other : sign ∉ ['<', '>', '=']) :
    ∃ leading, cs = leading ++ text ∧ sign ∉ leading := by
  obtain ⟨leading, split, plain⟩ := form.leading
  refine ⟨leading, split, fun member => ?_⟩
  rcases plain sign member with word | blank | symbol
  · simp [word] at apart
  · simp [blank] at solid
  · exact other symbol

theorem ConditionText.form {operand : Value → List Char → Prop} (stated : ConditionText operand t cs) :
    ∃ finish v text, ConditionForm finish text cs ∧ operand v text := by
  cases stated with
  | compare word ahead behind given => exact ⟨_, _, _, .compare word ahead behind, given⟩
  | hasAncestor spelled opened spaced given => exact ⟨_, _, _, .hasAncestor spelled opened spaced, given⟩

theorem ConditionText.of_form {operand : Value → List Char → Prop} {finish : Value → Except Error Condition} {v : Value}
    (form : ConditionForm finish text cs) (finished : finish v = .ok t) (given : operand v text) :
    ConditionText operand t cs := by
  cases form with
  | compare word ahead behind =>
      cases finished
      exact .compare word ahead behind given
  | hasAncestor spelled opened spaced =>
      unfold ancestorCondition at finished
      split at finished
      · cases finished
        exact .hasAncestor spelled opened spaced given
      · cases finished

/-- A condition is read only from a text that states it. -/
theorem ConditionText.of_condition (read : condition q cs = .ok t) :
    Padded (ConditionText (OperandText .loose q)) t cs := by
  rcases form_of_condition q cs with ⟨finish, text, form, line, reads⟩ | unread
  · rw [reads] at read
    obtain ⟨v, given, finished⟩ := bind_eq_ok_iff.mp read
    obtain @⟨before, operand, after, ahead, stated, behind⟩ := OperandText.of_operand line given
    obtain ⟨body, trimmed, rfl⟩ := form.trim ahead
    exact .text blanks_nil (.of_form trimmed finished stated) behind
  · rw [unread] at read
    cases read

/-- An order is read only from a text that states it. -/
theorem SortText.of_order (read : order cs = .ok o) : SortText o cs := by
  unfold order at read
  simp only at read
  split at read
  · next o parsed =>
      cases read
      obtain ⟨⟨property, rest⟩, ran, further⟩ := Option.bind_eq_some_iff.mp parsed
      obtain ⟨direction, directed, same⟩ := Option.bind_eq_some_iff.mp further
      cases same
      obtain ⟨rfl, nonempty, word⟩ := eq_append_of_run? ran
      replace directed : direction? rest = some direction := directed
      unfold direction? at directed
      split at directed
      · next empty =>
          cases directed
          obtain rfl := List.isEmpty_iff.mp empty
          simpa only [List.append_nil] using SortText.plain ⟨nonempty, word⟩
      · obtain ⟨spelled, spaced, chosen⟩ := Option.bind_eq_some_iff.mp directed
        obtain ⟨gap, apart, rfl⟩ := gap_of_skipBlanks? spaced
        have opened {keyword : String} (spells : isKeyword keyword spelled = true) :
            Keywords [keyword] (gap ++ spelled) := by
          simpa only [List.append_nil] using Keywords.cons apart (isKeyword_iff.mp spells) .nil
        split at chosen
        · next ascending =>
            cases chosen
            exact .directed ⟨nonempty, word⟩ (opened ascending)
        split at chosen
        · next descending =>
            cases chosen
            exact .directed ⟨nonempty, word⟩ (opened descending)
        · cases chosen
  · cases read

end Conditions

section Selections

variable {requested type : ResultType} {projections : List Projection} {cs : List Char}

/-- What is selected is read from a text that the grammar has for it. -/
theorem SelectedText.of_selection (read : Gql.selection requested cs = (type, projections)) :
    Padded (SelectedText .loose requested type) projections cs := by
  refine Padded.of_trim ?_
  unfold Gql.selection at read
  split at read
  · next all =>
      cases read
      exact all ▸ .alone .all
  split at read
  · next keys =>
      cases read
      exact keys ▸ .alone .keys
  · cases read
    have named : List.Forall₂ (fun piece name => Padded (NamedText .loose) name piece)
        ((splitCommas (trim cs)).map trim) ((itemTexts (trim cs)).map String.ofList) := by
      rw [itemTexts, List.forall₂_map_right_iff, List.forall₂_map_left_iff, List.forall₂_map_right_iff,
        List.forall₂_same]
      intro piece member
      exact .alone (.name ⟨fun comma => comma_notMem_splitCommas piece member (mem_of_mem_trim comma), flush_trim piece,
        flush_reverse_trim piece⟩)
    have listed := (separated_splitCommas (trim cs)).read (fun _ _ _ => Comma.padded) named
    generalize trim cs = text at listed ⊢
    obtain @⟨before, names, after, ahead, given, behind⟩ := listed
    have selected := Padded.text ahead (SelectedText.names given : SelectedText .loose requested _ _ _) behind
    simpa only [List.map_map, Function.comp_def] using selected

end Selections

section Filters

variable {tests : List Condition}

theorem conjoined_filter? (tests : List Condition) : Conjoined tests (filter? tests) := by
  match tests with
  | [] => exact .none
  | [test] => exact .one test
  | first :: second :: more => exact .several first second more

theorem conditionsOf_map (tests : List Condition) : Filter.conditionsOf (tests.map .condition) = tests := by
  induction tests with
  | nil => rfl
  | cons test more ih =>
      rw [List.map_cons, Filter.conditionsOf, ih]
      rfl

/-- A filter made of some conditions has these conditions. -/
theorem Conjoined.conditions {filter : Option Filter} (conjoined : Conjoined tests filter) :
    (filter.map Filter.conditions).getD [] = tests := by
  cases conjoined with
  | none => rfl
  | one test => rfl
  | several first second more => exact conditionsOf_map _

end Filters

section Queries

variable {q : GqlQuery} {c : Clauses} {s : StructuredQuery}

/-- The texts of the conditions, one by one. -/
def Source.tests (s : Source) : List (List Char) := (s.conditions?.map conditionTexts).getD []

/-- The texts of the orders, one by one. -/
def Arrangement.sorts (a : Arrangement) : List (List Char) := (a.orders?.map itemTexts).getD []

/-- The rows that a text selects are of the type that is requested, if one is. -/
def Fits (q : GqlQuery) (c : Clauses) : Prop :=
  q.resultType = .unknown ∨ q.resultType = (Gql.selection q.resultType c.selected).1

/-- What is left to read when the clauses are found: the conditions, the orders and the numbers. -/
theorem structured_of_clauses (found : Clauses.ofText? q.text.toList = some c) (fits : Fits q c) :
    Gql.structured q = do
      let conditions ← c.tests.mapM (condition q)
      let orders ← c.sorts.mapM order
      let limit ← c.limit?.mapM digits
      let offset ← c.offset?.mapM digits
      return {
        resultType := (Gql.selection q.resultType c.selected).1, namespaceName := q.namespaceName,
        kind := some (String.ofList c.kind), filter := filter? conditions, orders,
        projections := (Gql.selection q.resultType c.selected).2, groupBy := [], limit, offset := offset.getD 0 } := by
  have fitting : ¬ (q.resultType ≠ .unknown ∧ q.resultType ≠ (Gql.selection q.resultType c.selected).1) := by
    rcases fits with unknown | same
    · exact fun both => both.1 unknown
    · exact fun both => both.2 same
  rw [Gql.structured, found]
  simp only [fitting, ↓reduceIte, Source.tests, Arrangement.sorts]
  cases c.conditions? <;> cases c.orders? <;> rfl

/-- Rows of another type than the requested one are refused. -/
theorem structured_of_unfit (found : Clauses.ofText? q.text.toList = some c) (unfit : ¬ Fits q c) :
    Gql.structured q = .error (GqlFault.resultType (Gql.selection q.resultType c.selected).1.name
      q.resultType.name).error := by
  have contrary : q.resultType ≠ .unknown ∧ q.resultType ≠ (Gql.selection q.resultType c.selected).1 := not_or.mp unfit
  rw [Gql.structured, found]
  simp only [contrary, ne_eq, not_false_eq_true, and_self, ↓reduceIte]
  rfl

theorem stated_of_tests {tests : List Condition} (read : c.tests.mapM (condition q) = .ok tests) :
    Stated (Padded (Separated Conjunction (ConditionText (OperandText .loose q)))) tests c.conditions? := by
  unfold Source.tests at read
  cases given : c.conditions? with
  | none =>
      rw [given] at read
      cases read
      exact .nothing
  | some text =>
      rw [given] at read
      have each := (forall₂_of_mapM read).imp fun _ _ => ConditionText.of_condition
      exact .text ((separated_splitAnd _ (trim text)).read (fun _ _ _ => Conjunction.padded) each).of_trim

theorem stated_of_sorts {orders : List Order} (read : c.sorts.mapM order = .ok orders) :
    Stated (Padded (Separated Comma SortText)) orders c.orders? := by
  unfold Arrangement.sorts at read
  cases given : c.orders? with
  | none =>
      rw [given] at read
      cases read
      exact .nothing
  | some text =>
      rw [given] at read
      have each := (forall₂_of_mapM read).imp fun cs o one => Padded.alone (SortText.of_order one)
      exact .text ((separated_splitCommas text).read (fun _ _ _ => Comma.padded) each)

theorem rel_count_of_digits {digits? : Option (List Char)} {n? : Option Nat} (plain : ∀ digits ∈ digits?, Digits digits)
    (read : digits?.mapM Gql.digits = .ok n?) : Option.Rel Count digits? n? := by
  cases digits? with
  | none =>
      cases read
      exact .none
  | some digits =>
      obtain ⟨n, number, same⟩ := bind_eq_ok_iff.mp
        (show Gql.digits digits >>= (fun n => .ok (some n)) = .ok n? from read)
      cases same
      exact .some (count_of_digits (plain digits rfl).nonempty number)

/-- A query that is read is derived in the grammar as it is read. -/
theorem derivable_of_structured (accepted : Gql.structured q = .ok s) : Derivable .loose q s := by
  obtain ⟨c, found⟩ : ∃ c, Clauses.ofText? q.text.toList = some c := by
    refine Option.ne_none_iff_exists'.mp fun none => ?_
    rw [Gql.structured, none] at accepted
    cases accepted
  have fits : Fits q c := by
    by_contra unfit
    rw [structured_of_unfit found unfit] at accepted
    cases accepted
  rw [structured_of_clauses found fits] at accepted
  obtain ⟨tests, conditions, accepted⟩ := bind_eq_ok_iff.mp accepted
  obtain ⟨orders, sorted, accepted⟩ := bind_eq_ok_iff.mp accepted
  obtain ⟨limit, limited, accepted⟩ := bind_eq_ok_iff.mp accepted
  obtain ⟨offset, skipped, same⟩ := bind_eq_ok_iff.mp accepted
  cases same
  obtain ⟨layout, kind, limits, offsets⟩ := layout_of_ofText? found
  have conjoined := conjoined_filter? tests
  exact ⟨c, layout, {
    selected := SelectedText.of_selection rfl
    fits
    kind
    source := ⟨rfl, rfl⟩
    conditioned := by
      rw [StructuredQuery.conditions, conjoined.conditions]
      exact stated_of_tests conditions
    conjoined := by
      rw [StructuredQuery.conditions, conjoined.conditions]
      exact conjoined
    ordered := stated_of_sorts sorted
    limited := rel_count_of_digits limits limited
    skipped := ⟨offset, rel_count_of_digits offsets skipped, rfl⟩
    ungrouped := rfl }⟩

end Queries

end EntityStore.Gql
