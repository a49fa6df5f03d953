import EntityStore.Proofs.Derivation

set_option autoImplicit false

namespace EntityStore.Gql

open Text

/-- Digits that are read as no number: some have no place value, or there are too many. -/
structure Unreadable (cs : List Char) : Prop where
  nonempty : cs ≠ []
  digits : ∀ c ∈ cs, isDigit c = true
  unread : (∃ c ∈ cs, isDecimal c = false) ∨ 4300 < cs.length

/-- Where the reader stops because it finds digits that are no number.  It has read everything that is read before
them: the conditions from left to right, the orders, the limit and the offset. -/
inductive Stops (q : GqlQuery) (c : Clauses) : Prop where
  | reference {before after : List (List Char)} {text reference : List Char}
      {finish : Value → Except Error Condition} (split : c.tests = before ++ text :: after)
      (earlier : ∀ text ∈ before, ∃ t, condition q text = .ok t)
      (form : ConditionForm finish ('@' :: reference) text) (unreadable : Unreadable reference)
  | limit {digits : List Char} (tests : ∀ text ∈ c.tests, ∃ t, condition q text = .ok t)
      (sorts : ∀ text ∈ c.sorts, ∃ o, order text = .ok o) (given : c.limit? = some digits)
      (long : 4300 < digits.length)
  | offset {digits : List Char} (tests : ∀ text ∈ c.tests, ∃ t, condition q text = .ok t)
      (sorts : ∀ text ∈ c.sorts, ∃ o, order text = .ok o) (limited : ∀ digits ∈ c.limit?, digits.length ≤ 4300)
      (given : c.offset? = some digits) (long : 4300 < digits.length)

/-- A result, a fault of the text, or a numeral that is not read.  The last happens exactly under a condition. -/
structure Answers {α : Type} (answer : Except Error α) (stopped : Prop) : Prop where
  refused : ∀ e, answer = .error e → e = .failure .numeral ∨ ∃ fault, e = .invalid fault
  stopped : answer = .error (.failure .numeral) ↔ stopped

section Answers

variable {α β : Type} {x : Except Error α} {f : α → Except Error β} {p : Prop}

theorem Answers.ok (a : α) : Answers (.ok a) False where
  refused := nofun
  stopped := iff_of_false nofun not_false

theorem Answers.invalid (fault : Invalid) : Answers (.error (.invalid fault) : Except Error α) False where
  refused := by
    rintro _ ⟨⟩
    exact Or.inr ⟨fault, rfl⟩
  stopped := iff_of_false nofun not_false

theorem Answers.numeral : Answers (.error (.failure .numeral) : Except Error α) True where
  refused := by
    rintro _ ⟨⟩
    exact Or.inl rfl
  stopped := iff_of_true rfl trivial

theorem Answers.imp {r : Prop} (answers : Answers x p) (same : p ↔ r) : Answers x r :=
  ⟨answers.refused, answers.stopped.trans same⟩

theorem Answers.bind {r : α → Prop} (first : Answers x p) (next : ∀ a, x = .ok a → Answers (f a) (r a)) :
    Answers (x >>= f) (p ∨ ∃ a, x = .ok a ∧ r a) := by
  cases x with
  | error e =>
      refine ⟨fun other same => first.refused other (by cases same; rfl), ?_⟩
      simp only [reduceCtorEq, false_and, exists_false, or_false]
      rw [← first.stopped]
      simp [Bind.bind, Except.bind]
  | ok a =>
      have unstopped : ¬ p := fun stopped => by
        have contrary := first.stopped.mpr stopped
        cases contrary
      refine (next a rfl).imp ?_
      simp [unstopped]

theorem Answers.unstopped (answers : Answers x False) (never : ¬ p) : Answers x p :=
  answers.imp (iff_of_false not_false never)

/-- Steps that are never stopped change nothing about what stops the first one. -/
theorem Answers.bind_unstopped (first : Answers x p) (next : ∀ a, x = .ok a → Answers (f a) False) :
    Answers (x >>= f) p :=
  (first.bind next).imp (by simp)

theorem mapM_eq_ok_iff {read : α → Except Error β} {texts : List α} :
    (∃ items, texts.mapM read = .ok items) ↔ ∀ text ∈ texts, ∃ item, read text = .ok item := by
  induction texts with
  | nil => exact iff_of_true ⟨[], rfl⟩ (List.forall_mem_nil _)
  | cons text more ih =>
      rw [List.forall_mem_cons, ← ih, List.mapM_cons]
      constructor
      · rintro ⟨items, all⟩
        obtain ⟨item, here, all⟩ := bind_eq_ok_iff.mp all
        obtain ⟨rest, later, -⟩ := bind_eq_ok_iff.mp all
        exact ⟨⟨item, here⟩, rest, later⟩
      · rintro ⟨⟨item, here⟩, rest, later⟩
        exact ⟨item :: rest, bind_eq_ok_iff.mpr ⟨item, here, bind_eq_ok_iff.mpr ⟨rest, later, rfl⟩⟩⟩

/-- Texts are read from left to right, and the first that is not read decides. -/
theorem Answers.mapM {read : α → Except Error β} {stopped : α → Prop} {texts : List α}
    (each : ∀ text ∈ texts, Answers (read text) (stopped text)) :
    Answers (texts.mapM read) (∃ before text after, texts = before ++ text :: after ∧
      (∀ text ∈ before, ∃ item, read text = .ok item) ∧ stopped text) := by
  induction texts with
  | nil =>
      refine (Answers.ok []).unstopped ?_
      rintro ⟨before, text, after, split, -⟩
      simp at split
  | cons text more ih =>
      obtain ⟨here, later⟩ := List.forall_mem_cons.mp each
      rw [List.mapM_cons]
      have rest (item : β) (_ : read text = .ok item) :=
        (ih later).bind_unstopped (f := fun items => .ok (item :: items)) fun items _ => Answers.ok _
      refine (here.bind rest).imp ⟨?_, ?_⟩
      · rintro (now | ⟨item, first, before, last, after, rfl, earlier, stop⟩)
        · exact ⟨[], text, more, rfl, List.forall_mem_nil _, now⟩
        · exact ⟨text :: before, last, after, rfl, List.forall_mem_cons.mpr ⟨⟨item, first⟩, earlier⟩, stop⟩
      · rintro ⟨before, last, after, split, earlier, stop⟩
        cases before with
        | nil =>
            obtain ⟨rfl, -⟩ := List.cons.inj split
            exact Or.inl stop
        | cons first before =>
            obtain ⟨rfl, rfl⟩ := List.cons.inj split
            obtain ⟨⟨item, first⟩, earlier⟩ := List.forall_mem_cons.mp earlier
            exact Or.inr ⟨item, first, before, last, after, rfl, earlier, stop⟩

end Answers

section Numerals

variable {q : GqlQuery} {cs : List Char}

/-- White space is no digit of any kind. -/
theorem isDigit_of_isBlank {c : Char} (blank : isBlank c = true) : isDigit c = false := by
  have apart : ∀ n ∈ blankPoints, covers symbolDigitRanges n = false := by decide +kernel
  rw [isDigit, isDecimal_of_isBlank blank, apart _ (mem_blankPoints blank)]
  rfl

theorem answers_digits (cs : List Char) :
    Answers (digits cs) ((∃ c ∈ cs, isDecimal c = false) ∨ 4300 < cs.length) := by
  unfold digits
  split
  · next n number =>
      have decimal : ¬ ∃ c ∈ cs, isDecimal c = false := by
        rw [← decimalNumber?_eq_none_iff, number]
        exact Option.some_ne_none n
      split
      · next long => exact Answers.numeral.imp (iff_of_true trivial (Or.inr long))
      · next short => exact (Answers.ok n).unstopped (not_or.mpr ⟨decimal, short⟩)
  · next none => exact Answers.numeral.imp (iff_of_true trivial (Or.inl (decimalNumber?_eq_none_iff.mp none)))

theorem answers_bound (q : GqlQuery) (cs : List Char) : Answers (bound q cs) (Unreadable cs) := by
  unfold bound
  split
  · next all =>
      simp only [Bool.and_eq_true, Bool.not_eq_true', List.isEmpty_eq_false_iff, List.all_eq_true] at all
      have answers := (answers_digits cs).imp (r := Unreadable cs)
        ⟨fun unread => ⟨all.1, all.2, unread⟩, fun unreadable => unreadable.unread⟩
      refine answers.bind_unstopped fun position _ => ?_
      split
      · exact Answers.ok _
      · exact Answers.invalid _
  · next other =>
      have readable : ¬ Unreadable cs := by
        rintro ⟨nonempty, digits, -⟩
        simp [nonempty] at other
        obtain ⟨c, member, plain⟩ := other
        simp [digits c member] at plain
      split
      · exact (Answers.ok _).unstopped readable
      · exact (Answers.invalid _).unstopped readable

theorem answers_literal (cs : List Char) : Answers (literal cs) False := by
  unfold literal
  split
  · exact Answers.ok _
  split
  · exact Answers.ok _
  split
  · exact Answers.ok _
  split
  · exact Answers.ok _
  split
  · rw [value_of_integer]
    split
    · exact Answers.ok _
    · exact Answers.invalid _
  split
  · exact Answers.ok _
  · exact Answers.invalid _

theorem answers_operand (q : GqlQuery) (cs : List Char) :
    Answers (operand q cs) (∃ reference, trim cs = '@' :: reference ∧ Unreadable reference) := by
  unfold operand
  split
  · next reference text =>
      refine (answers_bound q reference).imp ⟨fun unreadable => ⟨reference, text, unreadable⟩, ?_⟩
      rintro ⟨other, same, unreadable⟩
      rw [text] at same
      exact (List.cons.inj same).2 ▸ unreadable
  · next text other =>
      have literal : ¬ ∃ reference, trim cs = '@' :: reference ∧ Unreadable reference := by
        rintro ⟨reference, same, -⟩
        exact other reference same
      split
      · exact (answers_literal _).unstopped literal
      · exact (Answers.invalid _).unstopped literal

theorem Unreadable.solid {reference : List Char} (unreadable : Unreadable reference) : Solid reference := by
  have plain (c : Char) (member : c ∈ reference) : isBlank c = false := by
    cases blank : isBlank c with
    | false => rfl
    | true => exact absurd (unreadable.digits c member) (by simp [isDigit_of_isBlank blank])
  refine ⟨unreadable.nonempty, fun c first => plain c (List.mem_of_mem_head? first), fun c last => ?_⟩
  exact plain c (List.mem_reverse.mp (List.mem_of_mem_head? last))

theorem Unreadable.operand {reference : List Char} (unreadable : Unreadable reference) :
    Operand ('@' :: reference) where
  nonempty := List.cons_ne_nil _ _
  start := flush_cons.mpr (by decide)
  apart := by simp
  line := by
    intro member
    rcases List.mem_cons.mp member with same | inside
    · cases same
    · exact absurd (unreadable.digits _ inside) (by simp [isDigit_of_isBlank (show isBlank '\n' = true by decide)])

end Numerals

section Conditions

variable {q : GqlQuery} {c : Clauses} {cs : List Char}

theorem answers_ancestorCondition (v : Value) : Answers (ancestorCondition v) False := by
  unfold ancestorCondition
  split
  · exact Answers.ok _
  · exact Answers.invalid _

theorem answers_finish {finish : Value → Except Error Condition} {text : List Char}
    (form : ConditionForm finish text cs) (v : Value) : Answers (finish v) False := by
  cases form with
  | compare => exact Answers.ok _
  | hasAncestor => exact answers_ancestorCondition v

/-- A condition stops the reader if its operand is a reference in digits that are no number. -/
theorem condition_of_unreadable {finish : Value → Except Error Condition} {reference : List Char}
    (form : ConditionForm finish ('@' :: reference) cs) (unreadable : Unreadable reference) :
    condition q cs = .error (.failure .numeral) := by
  have sign : Solid ['@'] := ⟨List.cons_ne_nil _ _, flush_cons.mpr (by decide), flush_cons.mpr (by decide)⟩
  have solid : Solid ('@' :: reference) := sign.append [] unreadable.solid
  rw [condition_of_form form unreadable.operand,
    (answers_operand q _).stopped.mpr ⟨reference, trim_of_solid solid, unreadable⟩]
  rfl

theorem answers_condition (stop : Flush cs.reverse) : Answers (condition q cs)
    (∃ finish reference, ConditionForm finish ('@' :: reference) cs ∧ Unreadable reference) := by
  have stops : (∃ finish reference, ConditionForm finish ('@' :: reference) cs ∧ Unreadable reference) →
      condition q cs = .error (.failure .numeral) := by
    rintro ⟨finish, reference, form, unreadable⟩
    exact condition_of_unreadable form unreadable
  rcases form_of_condition q cs with ⟨finish, text, form, -, reads⟩ | unread
  · have answers := (answers_operand q text).bind_unstopped fun v _ => answers_finish form v
    rw [← reads] at answers
    refine ⟨answers.refused, fun stopped => ?_, stops⟩
    obtain ⟨reference, given, unreadable⟩ := answers.stopped.mp stopped
    obtain ⟨before, after, ahead, behind, split⟩ := trim_between text
    rw [given] at split
    subst split
    -- The text ends with the reference, because it has no white space at its end.
    obtain ⟨body, trimmed, rfl⟩ := form.trim ahead
    rw [eq_nil_of_flush behind stop, List.append_nil]
    exact ⟨finish, reference, trimmed, unreadable⟩
  · rw [unread] at stops ⊢
    exact (Answers.invalid _).unstopped fun stopped => by cases stops stopped

theorem answers_order (cs : List Char) : Answers (order cs) False := by
  unfold order
  simp only
  split
  · exact Answers.ok _
  · exact Answers.invalid _

end Conditions

section Clauses

variable {q : GqlQuery} {c : Clauses} {cs : List Char} {digits? : Option (List Char)}

theorem digits_of_short (plain : Digits cs) (short : cs.length ≤ 4300) : ∃ n, digits cs = .ok n := by
  cases number : decimalNumber? cs with
  | none =>
      obtain ⟨c, member, undecimal⟩ := decimalNumber?_eq_none_iff.mp number
      exact absurd (plain.chars c member) (by simp [undecimal])
  | some n =>
      refine ⟨n, ?_⟩
      rw [digits, number]
      exact if_neg (Nat.not_lt.mpr short)

theorem mapM_digits_eq_ok_iff (plain : ∀ digits ∈ digits?, Digits digits) :
    (∃ n?, digits?.mapM digits = .ok n?) ↔ ∀ digits ∈ digits?, digits.length ≤ 4300 := by
  cases digits? with
  | none => exact iff_of_true ⟨none, rfl⟩ nofun
  | some digits =>
      constructor
      · rintro ⟨n?, read⟩ _ ⟨⟩
        cases rel_count_of_digits plain read with
        | some count => exact count.short
      · intro short
        obtain ⟨n, read⟩ := digits_of_short (plain digits rfl) (short digits rfl)
        exact ⟨some n, bind_eq_ok_iff.mpr ⟨n, read, rfl⟩⟩

theorem answers_number (plain : ∀ digits ∈ digits?, Digits digits) :
    Answers (digits?.mapM digits) (∃ digits, digits? = some digits ∧ 4300 < digits.length) := by
  cases digits? with
  | none => exact (Answers.ok none).unstopped nofun
  | some digits =>
      have decimal : ¬ ∃ c ∈ digits, isDecimal c = false := by
        rintro ⟨c, member, undecimal⟩
        exact absurd ((plain digits rfl).chars c member) (by simp [undecimal])
      have read : Answers (some <$> Gql.digits digits) _ :=
        (answers_digits digits).bind_unstopped (f := fun n => .ok (some n)) fun n _ => Answers.ok _
      refine read.imp ?_
      simp [decimal]

/-- The text of a condition is a trimmed piece of its clause. -/
theorem piece_of_mem_tests (member : cs ∈ c.tests) : ∃ conditions piece, c.conditions? = some conditions ∧
    piece ∈ splitAnd (trim conditions).length (trim conditions) ∧ cs = trim piece := by
  unfold Source.tests at member
  cases given : c.conditions? with
  | none => simp [given] at member
  | some conditions =>
      rw [given] at member
      obtain ⟨piece, inside, same⟩ := List.mem_map.mp member
      exact ⟨conditions, piece, rfl, inside, same.symm⟩

/-- Once the clauses are found, nothing but a numeral stops the reader without a fault of the text. -/
theorem answers_of_clauses (found : Clauses.ofText? q.text.toList = some c) (fits : Fits q c) :
    Answers (Gql.structured q) (Stops q c) := by
  obtain ⟨-, -, limits, offsets⟩ := layout_of_ofText? found
  have trimmed : ∀ text ∈ c.tests, Flush text.reverse := by
    intro text member
    obtain ⟨conditions, piece, -, -, rfl⟩ := piece_of_mem_tests member
    exact flush_reverse_trim piece
  rw [structured_of_clauses found fits]
  have conditions : Answers (c.tests.mapM (condition q)) _ :=
    .mapM fun text member => answers_condition (trimmed text member)
  have orders : Answers (c.sorts.mapM order) False :=
    (Answers.mapM fun text _ => answers_order text).imp (by simp)
  refine (conditions.bind fun _ _ => orders.bind fun _ _ => (answers_number limits).bind fun _ _ =>
    (answers_number offsets).bind_unstopped fun _ _ => Answers.ok _).imp ⟨?_, ?_⟩
  · rintro (⟨before, text, after, split, earlier, finish, reference, form, unreadable⟩ | ⟨tests, read, later⟩)
    · exact .reference split earlier form unreadable
    have tested := mapM_eq_ok_iff.mp ⟨tests, read⟩
    obtain ⟨orders, read, later⟩ := later.resolve_left not_false
    have sorted := mapM_eq_ok_iff.mp ⟨orders, read⟩
    rcases later with ⟨digits, given, long⟩ | ⟨limit, read, digits, given, long⟩
    · exact .limit tested sorted given long
    · exact .offset tested sorted ((mapM_digits_eq_ok_iff limits).mp ⟨limit, read⟩) given long
  · rintro (⟨split, earlier, form, unreadable⟩ | ⟨tested, sorted, given, long⟩ |
      ⟨tested, sorted, limited, given, long⟩)
    · exact Or.inl ⟨_, _, _, split, earlier, _, _, form, unreadable⟩
    · obtain ⟨tests, read⟩ := mapM_eq_ok_iff.mpr tested
      obtain ⟨orders, ordered⟩ := mapM_eq_ok_iff.mpr sorted
      exact Or.inr ⟨tests, read, Or.inr ⟨orders, ordered, Or.inl ⟨_, given, long⟩⟩⟩
    · obtain ⟨tests, read⟩ := mapM_eq_ok_iff.mpr tested
      obtain ⟨orders, ordered⟩ := mapM_eq_ok_iff.mpr sorted
      obtain ⟨limit, numbered⟩ := (mapM_digits_eq_ok_iff limits).mpr limited
      exact Or.inr ⟨tests, read, Or.inr ⟨orders, ordered, Or.inr ⟨limit, numbered, _, given, long⟩⟩⟩

/-- Every answer of the reader. -/
theorem answers_structured (q : GqlQuery) :
    Answers (Gql.structured q) (∃ c, Clauses.ofText? q.text.toList = some c ∧ Fits q c ∧ Stops q c) := by
  cases found : Clauses.ofText? q.text.toList with
  | none =>
      have refused : Gql.structured q = .error (GqlFault.unsupported q.text).error := by
        rw [Gql.structured, found]
        rfl
      rw [refused]
      exact (Answers.invalid _).unstopped (by simp)
  | some c =>
      by_cases fits : Fits q c
      · refine (answers_of_clauses found fits).imp ⟨fun stops => ⟨c, rfl, fits, stops⟩, ?_⟩
        rintro ⟨_, ⟨⟩, -, stops⟩
        exact stops
      · rw [structured_of_unfit found fits]
        refine (Answers.invalid _).unstopped ?_
        rintro ⟨_, ⟨⟩, contrary, -⟩
        exact fits contrary

theorem infix_of_mem_tests (layout : Layout c cs) : ∀ text ∈ c.tests, text <:+: cs := by
  intro text member
  obtain ⟨conditions, piece, given, listed, rfl⟩ := piece_of_mem_tests member
  obtain ⟨_, rfl, inside⟩ := (separated_splitAnd _ (trim conditions)).infix_items piece listed
  exact (infix_trim piece).trans (inside.trans ((infix_trim conditions).trans (layout.infix_conditions _ given)))

theorem Digits.unreadable (plain : Digits cs) (long : 4300 < cs.length) : Unreadable cs where
  nonempty := plain.nonempty
  digits c member := by rw [isDigit, plain.chars c member, Bool.true_or]
  unread := Or.inr long

/-- The digits at which the reader stops are a part of the text. -/
theorem Stops.infix_digits (stops : Stops q c) (found : Clauses.ofText? cs = some c) :
    ∃ digits, digits <:+: cs ∧ Unreadable digits := by
  obtain ⟨layout, -, limits, offsets⟩ := layout_of_ofText? found
  cases stops with
  | @reference before after text reference finish split _ form unreadable =>
      have inside := infix_of_mem_tests layout text (split ▸ List.mem_append_right before List.mem_cons_self)
      have within : reference <:+: '@' :: reference := (List.suffix_cons ..).isInfix
      refine ⟨reference, within.trans (List.IsInfix.trans ?_ inside), unreadable⟩
      cases form with
      | compare => exact (List.suffix_append ..).isInfix
      | hasAncestor => exact (List.suffix_append ..).isInfix
  | limit _ _ given long =>
      exact ⟨_, layout.infix_limit _ given, (limits _ given).unreadable long⟩
  | offset _ _ _ given long =>
      exact ⟨_, layout.infix_offset _ given, (offsets _ given).unreadable long⟩

end Clauses

/-- A query text is read, or refused with a fault, or not read because of a numeral.  The last happens exactly where
the reader stops at digits that are no number, so never to a text without such digits. -/
theorem refused_for_fault_or_numeral (q : GqlQuery) :
    ((∃ s, Gql.structured q = .ok s) ∨ (∃ fault, Gql.structured q = .error (.invalid fault)) ∨
      Gql.structured q = .error (.failure .numeral)) ∧
    (Gql.structured q = .error (.failure .numeral) ↔
      ∃ c, Clauses.ofText? q.text.toList = some c ∧ Fits q c ∧ Stops q c) ∧
    ((∀ digits, digits <:+: q.text.toList → ¬ Unreadable digits) →
      (∃ s, Gql.structured q = .ok s) ∨ ∃ fault, Gql.structured q = .error (.invalid fault)) := by
  have answers := answers_structured q
  have outcome : (∃ s, Gql.structured q = .ok s) ∨ (∃ fault, Gql.structured q = .error (.invalid fault)) ∨
      Gql.structured q = .error (.failure .numeral) := by
    cases answer : Gql.structured q with
    | ok s => exact Or.inl ⟨s, rfl⟩
    | error e =>
        rcases answers.refused e answer with rfl | ⟨fault, rfl⟩
        · exact Or.inr (Or.inr rfl)
        · exact Or.inr (Or.inl ⟨fault, rfl⟩)
  refine ⟨outcome, answers.stopped, fun readable => ?_⟩
  rcases outcome with accepted | refused | stopped
  · exact Or.inl accepted
  · exact Or.inr refused
  · obtain ⟨c, found, -, stops⟩ := answers.stopped.mp stopped
    obtain ⟨digits, inside, unreadable⟩ := stops.infix_digits found
    exact absurd unreadable (readable digits inside)

/-- A position in digits of another script, and numbers. -/
theorem refused_for_fault_or_numeral_of_position :
    let q : GqlQuery := ⟨.unknown, none, "SELECT * FROM K WHERE a = @٢ LIMIT 10 OFFSET 5", true, [], [.ofScalar .null]⟩
    (∀ digits, digits <:+: q.text.toList → ¬ Unreadable digits) ∧
      ((∃ s, Gql.structured q = .ok s) ∨ ∃ fault, Gql.structured q = .error (.invalid fault)) := by
  intro q
  have decimal : ∀ c ∈ q.text.toList, isDigit c = true → isDecimal c = true := by decide +kernel
  have short : q.text.toList.length ≤ 4300 := by decide
  have readable : ∀ digits, digits <:+: q.text.toList → ¬ Unreadable digits := by
    rintro digits inside ⟨-, plain, ⟨c, member, other⟩ | long⟩
    · rw [decimal c (inside.subset member) (plain c member)] at other
      cases other
    · have within := inside.length_le
      omega
  exact ⟨readable, (refused_for_fault_or_numeral q).2.2 readable⟩

/-- A superscript is a digit, but no position. -/
theorem superscript_position_unread :
    let q : GqlQuery := ⟨.unknown, none, "SELECT * FROM K WHERE a = @²", true, [], []⟩
    Gql.structured q = .error (.failure .numeral) ∧
      ¬ ((∃ s, Gql.structured q = .ok s) ∨ ∃ fault, Gql.structured q = .error (.invalid fault)) := by
  intro q
  have unread : Gql.structured q = .error (.failure .numeral) := by
    simp only [q]
    rfl
  refine ⟨unread, ?_⟩
  rw [unread]
  rintro (⟨_, ⟨⟩⟩ | ⟨_, ⟨⟩⟩)

end EntityStore.Gql
