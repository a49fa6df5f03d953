import EntityStore.Proofs.Refusal
import Mathlib.Data.List.Infix

/-!
Quoted texts as operands.  The clauses of a query text and its conditions are found without regard to quotes.  So a text
between quotes is read back unless it contains what the reader looks for: the words that separate conditions or start
the orders, between white space, or the end of a line.
-/

set_option autoImplicit false

namespace EntityStore.Gql

open Text

section Literals

variable {quote : Char} {cs inside : List Char}

/-- A quote is no part of words, of numbers or of white space. -/
theorem plain_of_quote (sign : quote = '\'' ∨ quote = '"') :
    isBlank quote = false ∧ isWord quote = false ∧ isDecimal quote = false ∧ quote ∉ ['<', '>', '='] := by
  rcases sign with rfl | rfl <;> decide +kernel

/-- A text that starts solidly is trimmed at the end only. -/
theorem trim_append {first : List Char} (solid : Solid first) (cs : List Char) :
    trim (first ++ cs) = first ++ trimEnd cs := by
  rw [trim, trimStart_of_flush (solid.start.append solid.nonempty cs), trimEnd, trimEnd, List.reverse_append,
    List.dropWhile_append]
  split
  · next empty =>
      rw [List.isEmpty_iff.mp empty, show first.reverse.dropWhile isBlank = first.reverse from
        trimStart_of_flush solid.stop, List.reverse_reverse, List.reverse_nil, List.append_nil]
  · rw [List.reverse_append, List.reverse_reverse]

theorem prefix_trimEnd (cs : List Char) : trimEnd cs <+: cs := by
  rw [trimEnd, List.prefix_iff_exists_append_eq]
  refine ⟨(cs.reverse.takeWhile isBlank).reverse, ?_⟩
  rw [← List.reverse_append, List.takeWhile_append_dropWhile, List.reverse_reverse]

theorem solid_quote (sign : quote = '\'' ∨ quote = '"') : Solid [quote] :=
  ⟨List.cons_ne_nil _ _, flush_cons.mpr (plain_of_quote sign).1, flush_cons.mpr (plain_of_quote sign).1⟩

theorem isCapitalWord_of_quote (sign : quote = '\'' ∨ quote = '"') (cs : List Char) :
    isCapitalWord "NULL" (quote :: cs) = false ∧ isCapitalWord "TRUE" (quote :: cs) = false ∧
      isCapitalWord "FALSE" (quote :: cs) = false := by
  rcases sign with rfl | rfl <;> exact ⟨rfl, rfl, rfl⟩

theorem unquoted?_of_open (opened : quote ∉ cs) : unquoted? (quote :: cs) = none := by
  unfold unquoted?
  split
  · next first second rest split =>
      obtain ⟨rfl, rfl⟩ := List.cons.inj split
      refine if_neg fun closed => opened ?_
      exact List.mem_of_getLast? closed.2
  · rfl

theorem unquoted?_of_closed (sign : quote = '\'' ∨ quote = '"') (inside : List Char) :
    unquoted? (quote :: (inside ++ [quote])) = some inside := by
  obtain ⟨second, rest, split⟩ := List.exists_cons_of_ne_nil (List.append_ne_nil_of_right_ne_nil inside
    (List.cons_ne_nil quote []))
  rw [split]
  have last : (second :: rest).getLast? = some quote := by rw [← split, List.getLast?_concat]
  have init : (second :: rest).dropLast = inside := by rw [← split, List.dropLast_concat]
  rw [unquoted?, if_pos ⟨sign, last⟩, init]

theorem digitGroup?_of_undecimal {c : Char} (undecimal : isDecimal c = false) (cs : List Char) :
    Number.digitGroup? (c :: cs) = none := by
  have none : digitValue? c = none := by
    rw [isDecimal] at undecimal
    simpa using undecimal
  unfold Number.digitGroup?
  split <;> simp_all

theorem number_trim_cons {c : Char} (solid : isBlank c = false) (cs : List Char) :
    ∃ more, Number.trim (c :: cs) = c :: more := by
  have stays : Number.isBlank c = false := by rw [Number.isBlank, solid, Bool.false_and]
  have front : (c :: cs).dropWhile Number.isBlank = c :: cs := List.dropWhile_cons_of_neg (by simp [stays])
  rw [Number.trim, front, List.reverse_cons, List.dropWhile_append]
  split
  · exact ⟨[], by simp [stays]⟩
  · exact ⟨(cs.reverse.dropWhile Number.isBlank).reverse, by simp⟩

theorem sign_of_quote (sign : quote = '\'' ∨ quote = '"') (cs : List Char) :
    Number.sign (quote :: cs) = (false, quote :: cs) := by
  rcases sign with rfl | rfl <;> rfl

theorem splitAtFirst_cons {p : Char → Bool} {c : Char} (other : p c = false) (cs : List Char) :
    ∃ before after, Number.splitAtFirst p (c :: cs) = (c :: before, after) := by
  unfold Number.splitAtFirst
  split
  · exact ⟨cs, none, rfl⟩
  · next rest _ => exact ⟨cs.takeWhile (! p ·), some rest, by rw [List.takeWhile_cons_of_pos (by simp [other])]⟩

/-- No number starts with a quote. -/
theorem number_of_quote (sign : quote = '\'' ∨ quote = '"') (cs : List Char) :
    Number.integer? (quote :: cs) = none ∧ Number.double? (quote :: cs) = none := by
  obtain ⟨solid, -, undecimal, -⟩ := plain_of_quote sign
  obtain ⟨more, trimmed⟩ := number_trim_cons solid cs
  constructor
  · simp only [Number.integer?, trimmed, sign_of_quote sign, digitGroup?_of_undecimal undecimal]
    rfl
  · have unsigned : Number.unsigned? (quote :: more) = none := by
      obtain ⟨before, power, first⟩ := splitAtFirst_cons (p := fun c => c = 'e' || c = 'E') (c := quote)
        (by rcases sign with rfl | rfl <;> rfl) more
      obtain ⟨whole, fraction, second⟩ := splitAtFirst_cons (p := (· = '.')) (c := quote)
        (by rcases sign with rfl | rfl <;> rfl) before
      simp only [Number.unsigned?, Number.mantissa?, first, second, Number.optionalGroup?,
        digitGroup?_of_undecimal undecimal]
      rfl
    have named : Number.isWordOf "inf" (quote :: more) = false ∧ Number.isWordOf "infinity" (quote :: more) = false ∧
        Number.isWordOf "nan" (quote :: more) = false := by
      rcases sign with rfl | rfl <;> exact ⟨rfl, rfl, rfl⟩
    simp only [Number.double?, Number.bareDouble?, trimmed, sign_of_quote sign, named, unsigned]
    rfl

/-- A quote that is not closed starts no literal. -/
theorem literal_of_open (sign : quote = '\'' ∨ quote = '"') (opened : quote ∉ cs) :
    literal (quote :: cs) = .error (GqlFault.unrecognized (String.ofList (quote :: cs))).error := by
  simp only [literal, isCapitalWord_of_quote sign cs, unquoted?_of_open opened, number_of_quote sign cs]
  rfl

theorem literal_of_closed (sign : quote = '\'' ∨ quote = '"') (inside : List Char) :
    literal (quote :: (inside ++ [quote])) = .ok (.ofScalar (.string (String.ofList inside))) := by
  have words := isCapitalWord_of_quote sign (inside ++ [quote])
  simp only [literal, words, unquoted?_of_closed sign inside]
  rfl

end Literals

/-- The start of a comparison with an operand behind white space. -/
def equalTo (property : List Char) : List Char := property ++ " = ".toList

section Conditions

variable {q : GqlQuery} {quote : Char} {property cs inside : List Char}

theorem operand_of_quote (sign : quote = '\'' ∨ quote = '"') (allowed : q.allowLiteral = true) {more : List Char}
    (trimmed : trim cs = quote :: more) : operand q cs = literal (quote :: more) := by
  rw [operand, trimmed]
  rcases sign with rfl | rfl <;> simp [allowed]

theorem operand_quote (sign : quote = '\'' ∨ quote = '"') (line : '\n' ∉ cs) : Operand (quote :: cs) where
  nonempty := List.cons_ne_nil _ _
  start := flush_cons.mpr (plain_of_quote sign).1
  apart := by rcases sign with rfl | rfl <;> simp
  line := by rcases sign with rfl | rfl <;> simp [line]

theorem condition_of_operand (word : Word property) (operand : Operand cs) :
    condition q (equalTo property ++ cs) =
      Gql.operand q cs >>= fun v => .ok (.compare (String.ofList property) .equal v) := by
  have blank : Blanks " ".toList := by decide
  exact condition_of_form (@ConditionForm.compare _ _ _ _ .equal word blank blank) operand

/-- An operand on several lines is none. -/
theorem condition_of_lines (sign : quote = '\'' ∨ quote = '"') (lines : '\n' ∈ cs) :
    condition q (equalTo property ++ quote :: cs) =
      .error (GqlFault.condition (String.ofList (equalTo property ++ quote :: cs))).error := by
  rcases form_of_condition q (equalTo property ++ quote :: cs) with ⟨finish, text, form, line, -⟩ | unread
  · obtain ⟨solid, letter, -, other⟩ := plain_of_quote sign
    obtain ⟨leading, split, apart⟩ := form.leading_of_sign solid letter other
    -- The operand starts at the quote at the latest, and so it has all the lines.
    refine absurd ?_ line
    rcases List.append_eq_append_iff.mp split with ⟨part, longer, rest⟩ | ⟨part, -, rfl⟩
    · cases part with
      | nil => exact (show quote :: cs = text from rest) ▸ List.mem_cons_of_mem quote lines
      | cons d part =>
          obtain ⟨rfl, -⟩ := List.cons.inj rest
          exact absurd (longer ▸ List.mem_append_right _ List.mem_cons_self) apart
    · exact List.mem_append_right part (List.mem_cons_of_mem quote lines)
  · exact unread

theorem condition_of_closed (word : Word property) (sign : quote = '\'' ∨ quote = '"') (allowed : q.allowLiteral = true)
    (line : '\n' ∉ inside) : condition q (equalTo property ++ quote :: (inside ++ [quote])) =
      .ok (.compare (String.ofList property) .equal (.ofScalar (.string (String.ofList inside)))) := by
  have solid : Solid (quote :: (inside ++ [quote])) := (solid_quote sign).append inside (solid_quote sign)
  have single : '\n' ∉ inside ++ [quote] := by
    rcases sign with rfl | rfl <;> simp [line]
  rw [condition_of_operand word (operand_quote sign single),
    operand_of_quote sign allowed (trim_of_solid solid), literal_of_closed sign]
  rfl

/-- A comparison with a quote that is not closed is refused. -/
theorem condition_of_open (word : Word property) (sign : quote = '\'' ∨ quote = '"') (allowed : q.allowLiteral = true)
    (opened : quote ∉ cs) : ∃ fault, condition q (equalTo property ++ quote :: cs) = .error (GqlFault.error fault) := by
  by_cases lines : '\n' ∈ cs
  · exact ⟨_, condition_of_lines sign lines⟩
  · have trimmed : trim (quote :: cs) = quote :: trimEnd cs := trim_append (solid_quote sign) cs
    have still : quote ∉ trimEnd cs := fun member => opened ((prefix_trimEnd cs).subset member)
    refine ⟨.unrecognized (String.ofList (quote :: trimEnd cs)), ?_⟩
    rw [condition_of_operand word (operand_quote sign lines), operand_of_quote sign allowed trimmed,
      literal_of_open sign still]
    rfl

end Conditions

section Splitting

variable {q : GqlQuery} {quote : Char} {property first later cs : List Char}

/-- No word behind white space starts at a sign. -/
theorem word_ne_sign {gap word before rest : List Char} {sign : Char} (spaced : Gap gap) (letters : Word word)
    (blanks : Blanks before) (solid : isBlank sign = false) (apart : isWord sign = false) :
    gap ++ word ++ later ≠ before ++ sign :: rest := by
  intro same
  have start : Flush (word ++ later) := letters.solid.start.append letters.nonempty later
  have flush : Flush (sign :: rest) := flush_cons.mpr solid
  have skipped := skipBlanks?_gap spaced start
  rw [← List.append_assoc, same] at skipped
  cases before with
  | nil =>
      rw [List.nil_append, skipBlanks?_of_flush flush] at skipped
      cases skipped
  | cons b before =>
      rw [skipBlanks?_gap ⟨List.cons_ne_nil b before, blanks⟩ flush] at skipped
      obtain ⟨d, more, rfl⟩ := List.exists_cons_of_ne_nil letters.nonempty
      obtain ⟨rfl, -⟩ := List.cons.inj (Option.some.inj skipped)
      simp [letters.chars sign List.mem_cons_self] at apart

/-- The reader finds no word behind white space before the quote. -/
theorem split_behind_quote (word : Word property) (sign : quote = '\'' ∨ quote = '"') {gap letters : List Char}
    (spaced : Gap gap) (found : Word letters)
    (split : equalTo property ++ quote :: cs = first ++ (gap ++ letters ++ later)) :
    ∃ more, first = equalTo property ++ quote :: more ∧ cs = more ++ (gap ++ letters ++ later) := by
  obtain ⟨solid, apart, -, -⟩ := plain_of_quote sign
  have none {before rest : List Char} {c : Char} (blanks : Blanks before) (stop : isBlank c = false)
      (other : isWord c = false) (same : before ++ c :: rest = gap ++ letters ++ later) : False :=
    word_ne_sign spaced found blanks stop other same.symm
  have equality : isBlank '=' = false ∧ isWord '=' = false := by decide +kernel
  have blank : Blanks [' '] := by decide
  have shape : equalTo property ++ quote :: cs = property ++ ([' ', '=', ' ', quote] ++ cs) := by simp [equalTo]
  rw [shape] at split
  rcases List.append_eq_append_iff.mp split with ⟨part, rfl, rest⟩ | ⟨part, rfl, rest⟩
  · rcases List.append_eq_append_iff.mp rest with ⟨more, rfl, rest⟩ | ⟨more, short, rest⟩
    · exact ⟨more, by simp [equalTo], List.append_cancel_left (rest.trans (List.append_assoc ..))⟩
    -- The white space starts before or behind the sign of the comparison, and then a sign stands where a letter should.
    · have ends : more ∈ [' ', '=', ' ', quote].tails := (List.mem_tails _ _).mpr ⟨part, short.symm⟩
      simp only [List.tails, List.mem_cons, List.not_mem_nil, or_false] at ends
      rcases ends with rfl | rfl | rfl | rfl | rfl
      · exact (none blank equality.1 equality.2 rest.symm).elim
      · exact (none blanks_nil equality.1 equality.2 rest.symm).elim
      · exact (none blank solid apart rest.symm).elim
      · exact (none blanks_nil solid apart rest.symm).elim
      · rw [List.append_nil] at short
        exact ⟨[], by simp [equalTo, ← short], rest.symm⟩
  · cases part with
    | nil => exact (none blank equality.1 equality.2 rest.symm).elim
    | cons d part =>
        have letter := word.chars d (by simp)
        obtain ⟨b, gap, rfl⟩ := List.exists_cons_of_ne_nil spaced.nonempty
        obtain ⟨rfl, -⟩ := List.cons.inj rest
        exact absurd (spaced.blanks b List.mem_cons_self) (by simp [isBlank_of_isWord letter])

theorem solid_equalTo (word : Word property) (sign : quote = '\'' ∨ quote = '"') :
    Solid (equalTo property ++ [quote]) :=
  word.solid.append " = ".toList (solid_quote sign)

theorem trim_equalTo (word : Word property) (sign : quote = '\'' ∨ quote = '"') (cs : List Char) :
    trim (equalTo property ++ quote :: cs) = equalTo property ++ quote :: trimEnd cs := by
  simpa only [List.append_assoc, List.singleton_append] using trim_append (solid_equalTo word sign) cs

/-- A comparison with a quoted text is one condition, or the quoted text is cut at a word AND. -/
theorem pieces_of_quoted (word : Word property) (sign : quote = '\'' ∨ quote = '"') {pieces : List (List Char)}
    (split : Separated Conjunction Eq pieces (equalTo property ++ quote :: cs)) :
    pieces = [equalTo property ++ quote :: cs] ∨ ∃ more others between later,
      pieces = (equalTo property ++ quote :: more) :: others ∧ Conjunction between ∧
        cs = more ++ between ++ later := by
  generalize whole : equalTo property ++ quote :: cs = text at split
  cases split with
  | one same => exact Or.inl (by rw [same])
  | @more _ others _ between later same joined follow =>
      subst same
      obtain ⟨opened, spaced⟩ := joined
      obtain ⟨gap, spelled, apart, spells, rfl⟩ := opened.alone
      rw [List.append_assoc, List.append_assoc] at whole
      obtain ⟨more, rfl, rfl⟩ := split_behind_quote word sign apart (spells.word (by decide)) whole
      exact Or.inr ⟨more, others, _, later, rfl, .word opened spaced, by simp only [List.append_assoc]⟩

/-- If the quote is not closed, the first condition is an open comparison. -/
theorem conditionTexts_of_open (word : Word property) (sign : quote = '\'' ∨ quote = '"') (opened : quote ∉ cs) :
    ∃ more others, conditionTexts (equalTo property ++ quote :: cs) = (equalTo property ++ quote :: more) :: others ∧
      quote ∉ more := by
  have closed {text : List Char} (inside : text <+: cs) : quote ∉ trimEnd text := fun member =>
    opened (inside.subset ((prefix_trimEnd text).subset member))
  rw [conditionTexts, trim_equalTo word sign]
  have split := separated_splitAnd (equalTo property ++ quote :: trimEnd cs).length
    (equalTo property ++ quote :: trimEnd cs)
  rcases pieces_of_quoted word sign split with alone | ⟨more, others, between, later, several, -, given⟩
  · rw [alone]
    refine ⟨trimEnd (trimEnd cs), [], by rw [List.map_singleton, trim_equalTo word sign], ?_⟩
    exact closed (prefix_trimEnd cs)
  · rw [several]
    refine ⟨trimEnd more, others.map trim, by rw [List.map_cons, trim_equalTo word sign], closed ?_⟩
    refine List.IsPrefix.trans ?_ (prefix_trimEnd cs)
    rw [given, List.append_assoc]
    exact List.prefix_append ..

/-- White space that stands before a closing quote ends before it. -/
theorem split_before_quote (solid : isBlank quote = false) {inside more opening gap : List Char} (spaced : Gap gap)
    (split : inside ++ [quote] = more ++ (opening ++ gap) ++ later) :
    ∃ rest, later = rest ++ [quote] ∧ inside = more ++ (opening ++ gap) ++ rest := by
  rcases List.eq_nil_or_concat later with rfl | ⟨rest, last, rfl⟩
  · obtain ⟨init, blank, rfl⟩ : ∃ init blank, gap = init ++ [blank] :=
      ⟨_, _, (List.dropLast_concat_getLast spaced.nonempty).symm⟩
    have last := congrArg List.getLast? split
    simp only [List.append_nil, ← List.append_assoc, List.getLast?_concat, Option.some.injEq] at last
    have contrary := spaced.blanks blank (by simp)
    simp [← last, solid] at contrary
  · rw [List.concat_eq_append, ← List.append_assoc] at split
    obtain ⟨rfl, same⟩ := List.append_inj' split rfl
    obtain rfl := List.singleton_inj.mp same
    exact ⟨rest, by rw [List.concat_eq_append], rfl⟩

theorem skipAnd?_ne_none {between : List Char} (joined : Conjunction between) (rest : List Char) :
    skipAnd? (between ++ rest) ≠ none := by
  obtain ⟨opened, spaced⟩ := joined
  obtain ⟨blank, gap, rfl⟩ := List.exists_cons_of_ne_nil spaced.nonempty
  rw [List.append_assoc, skipAnd?, opened.skip_alone (by decide)]
  simp [skipBlanks?, spaced.blanks blank List.mem_cons_self]

/-- A text with the word AND in it is split. -/
theorem two_le_length_splitAnd {between : List Char} (joined : Conjunction between) {rounds : Nat}
    (enough : (first ++ between ++ later).length ≤ rounds) :
    2 ≤ (splitAnd rounds (first ++ between ++ later)).length := by
  have some (rounds : Nat) (cs : List Char) : 1 ≤ (splitAnd rounds cs).length := by
    have split := separated_splitAnd rounds cs
    generalize splitAnd rounds cs = pieces at split
    cases split <;> simp
  induction first generalizing rounds with
  | nil =>
      obtain ⟨c, rest, cons⟩ := List.exists_cons_of_ne_nil joined.nonempty
      obtain ⟨after, skipped⟩ := Option.ne_none_iff_exists'.mp (skipAnd?_ne_none joined later)
      rw [List.nil_append] at enough ⊢
      cases rounds with
      | zero => simp [cons] at enough
      | succ rounds =>
          rw [cons, List.cons_append] at skipped ⊢
          rw [splitAnd, skipped]
          simpa using some rounds after
  | cons c first ih =>
      cases rounds with
      | zero => simp at enough
      | succ rounds =>
          simp only [List.cons_append] at enough ⊢
          rw [splitAnd]
          split
          -- A word AND that stands earlier splits the text, too.
          · next after _ => simpa using some rounds after
          · have more := @ih rounds (by simpa using enough)
            split
            · next none =>
                rw [none] at more
                cases more
            · next several =>
                rw [several] at more
                simpa using more

/-- If the quote is closed, the text is one condition unless the word AND stands between the quotes. -/
theorem conditionTexts_of_closed (word : Word property) (sign : quote = '\'' ∨ quote = '"') {inside : List Char}
    (apart : quote ∉ inside) :
    (∀ between, Conjunction between → ¬ between <:+: inside) ∧
        conditionTexts (equalTo property ++ quote :: (inside ++ [quote])) =
          [equalTo property ++ quote :: (inside ++ [quote])] ∨
      (∃ between, Conjunction between ∧ between <:+: inside) ∧ ∃ more others,
        conditionTexts (equalTo property ++ quote :: (inside ++ [quote])) =
          (equalTo property ++ quote :: more) :: others ∧ quote ∉ more := by
  have solid : Solid (equalTo property ++ quote :: (inside ++ [quote])) := by
    simpa only [List.append_assoc, List.cons_append, List.nil_append] using
      (solid_equalTo word sign).append inside (solid_quote sign)
  have trimmed := trim_of_solid solid
  rw [conditionTexts, trimmed]
  have split := separated_splitAnd (equalTo property ++ quote :: (inside ++ [quote])).length
    (equalTo property ++ quote :: (inside ++ [quote]))
  rcases pieces_of_quoted word sign split with alone | ⟨more, others, between, later, several, joined, given⟩
  · refine Or.inl ⟨?_, by rw [alone, List.map_singleton, trimmed]⟩
    rintro between joined ⟨before, after, rfl⟩
    have parts : equalTo property ++ quote :: (before ++ between ++ after ++ [quote]) =
        (equalTo property ++ quote :: before) ++ between ++ (after ++ [quote]) := by simp only [List.append_assoc,
      List.cons_append]
    have long : 2 ≤ (splitAnd _ ((equalTo property ++ quote :: before) ++ between ++ (after ++ [quote]))).length :=
      two_le_length_splitAnd joined (Nat.le_refl _)
    rw [← parts, alone] at long
    simp at long
  · obtain ⟨opened, spaced⟩ := joined
    obtain ⟨rest, -, rfl⟩ := split_before_quote (plain_of_quote sign).1 spaced given
    refine Or.inr ⟨⟨_, .word opened spaced, List.infix_append ..⟩, trimEnd more, others.map trim, ?_, fun member => ?_⟩
    · rw [several, List.map_cons, trim_equalTo word sign]
    · have inside := (prefix_trimEnd more).subset member
      exact apart (by simp [inside])

end Splitting

section Clauses

variable {α : Type} {read : List Char → Option α} {kind body first rest : List Char}

theorem shortest?_le (nonempty : first ≠ []) (reads : read rest ≠ none) :
    ∃ body a, shortest? read (first ++ rest) = some (body, a) ∧ body.length ≤ first.length := by
  induction first with
  | nil => exact absurd rfl nonempty
  | cons c more ih =>
      rw [List.cons_append, shortest?]
      cases here : read (more ++ rest) with
      | some a => exact ⟨[c], a, rfl, by simp⟩
      | none =>
          have later : more ≠ [] := by
            rintro rfl
            exact reads here
          obtain ⟨body, a, found, short⟩ := ih later
          exact ⟨c :: body, a, by simp [found], Nat.succ_le_succ short⟩

theorem afterBlanks?_ne_none {gap : List Char} (spaced : Gap gap) (reads : read rest ≠ none) :
    afterBlanks? read (gap ++ rest) ≠ none := by
  obtain ⟨nonempty, blanks⟩ := spaced
  induction gap with
  | nil => exact absurd rfl nonempty
  | cons c more ih =>
      rw [List.cons_append, afterBlanks?, if_pos (blanks c List.mem_cons_self)]
      cases more with
      | nil => simp [reads]
      | cons d more =>
          have later := ih (List.cons_ne_nil d more) fun x member => blanks x (List.mem_cons_of_mem c member)
          obtain ⟨a, found⟩ := Option.ne_none_iff_exists'.mp later
          rw [found]
          exact Option.some_ne_none a

/-- The words ORDER BY and anything behind them can be read as orders. -/
theorem arrangement_of_order {phrase gap : List Char} (opened : Keywords ["order", "by"] phrase) (spaced : Gap gap)
    (nonempty : rest ≠ []) : Arrangement.read? (phrase ++ gap ++ rest) ≠ none := by
  obtain ⟨second, opened, skipped⟩ := opened.skip (by decide)
  have reads : shortest? Window.read? rest ≠ none := by
    obtain ⟨orders, window, found, -⟩ := shortest?_le nonempty (show Window.read? [] ≠ none from nofun)
    rw [List.append_nil] at found
    simp [found]
  obtain ⟨⟨orders, window⟩, between⟩ := Option.ne_none_iff_exists'.mp (afterBlanks?_ne_none spaced reads)
  rw [List.append_assoc]
  simp [Arrangement.read?, skipped, opened.skip_alone (by decide), between]

/-- The conditions of a text end at the first place behind which the rest can be read. -/
theorem clauses_of_conditions (word : Word kind) (flush : Flush body) (nonempty : body ≠ []) :
    ∃ conditions rest arrangement, Clauses.ofText? ("SELECT * FROM ".toList ++ kind ++ " WHERE ".toList ++ body) =
        some ⟨⟨arrangement, kind, some conditions⟩, ['*']⟩ ∧
      body = conditions ++ rest ∧ Arrangement.read? rest = some arrangement ∧
      ∀ first later, body = first ++ later → first ≠ [] → Arrangement.read? later ≠ none →
        conditions.length ≤ first.length := by
  obtain ⟨conditions, arrangement, found, -⟩ := shortest?_le nonempty
    (show Arrangement.read? [] ≠ none from nofun)
  rw [List.append_nil] at found
  obtain ⟨rest, split, -, reads⟩ := eq_append_of_shortest? found
  have gap : Gap " ".toList := by decide
  have sourced : Keywords ["from"] " FROM".toList := .cons gap (by decide : Spells "from" "FROM".toList) .nil
  have conditioned : Keywords ["where"] " WHERE".toList := .cons gap (by decide : Spells "where" "WHERE".toList) .nil
  have start : Flush (kind ++ (" WHERE".toList ++ (" ".toList ++ body))) :=
    word.solid.start.append word.nonempty _
  have bare : Bare (" WHERE".toList ++ (" ".toList ++ body)) := bare_cons.mpr (by decide +kernel)
  have source : Source.read? (" FROM".toList ++ (" ".toList ++ (kind ++ (" WHERE".toList ++ (" ".toList ++ body))))) =
      some ⟨arrangement, kind, some conditions⟩ := by
    simp only [Source.read?, sourced.skip_alone (by decide), skipBlanks?_gap gap start, Option.bind_eq_bind,
      Option.bind_some, run?_append word.nonempty word.chars bare, conditioned.skip_alone (by decide),
      afterBlanks?_gap gap flush found]
    rfl
  have selected : shortest? Source.read? ('*' :: (" FROM".toList ++ (" ".toList ++ (kind ++ (" WHERE".toList ++
      (" ".toList ++ body)))))) = some (['*'], ⟨arrangement, kind, some conditions⟩) := by
    rw [shortest?, source]
  have text : "SELECT * FROM ".toList ++ kind ++ " WHERE ".toList ++ body = "SELECT".toList ++ (" ".toList ++ ('*' ::
      (" FROM".toList ++ (" ".toList ++ (kind ++ (" WHERE".toList ++ (" ".toList ++ body))))))) := by
    simp
  refine ⟨conditions, rest, arrangement, ?_, split, reads, fun first later other nonempty read => ?_⟩
  · have lead : Flush ("SELECT".toList ++ (" ".toList ++ ('*' :: (" FROM".toList ++ (" ".toList ++ (kind ++
        (" WHERE".toList ++ (" ".toList ++ body)))))))) := flush_cons.mpr (by decide)
    have opened : keyword? "select".toList ("SELECT".toList ++ (" ".toList ++ ('*' :: (" FROM".toList ++ (" ".toList ++
        (kind ++ (" WHERE".toList ++ (" ".toList ++ body)))))))) = some _ :=
      keyword?_eq_some_iff.mpr ⟨"SELECT".toList, rfl, by decide⟩
    rw [text, Clauses.ofText?, trimStart_of_flush lead, opened]
    simp only [Option.bind_eq_bind, Option.bind_some,
      afterBlanks?_gap gap (flush_cons.mpr (by decide : isBlank '*' = false)) selected]
    rfl
  · obtain ⟨body, a, again, short⟩ := shortest?_le nonempty read
    rw [← other, found] at again
    cases again
    exact short

theorem Clause.digits_stop {keyword : String} {digits? : Option (List Char)} {cs : List Char}
    (clause : Clause [keyword] digits? cs) (plain : ∀ digits ∈ digits?, Digits digits) :
    ∀ c ∈ cs.getLast?, isDecimal c = true := by
  cases clause with
  | absent => nofun
  | @present opening gap digits opened spaced =>
      obtain ⟨nonempty, decimal⟩ := plain digits rfl
      intro c last
      rw [List.getLast?_append_of_ne_nil _ nonempty] at last
      exact decimal c (List.mem_of_getLast? last)

/-- Only white space or a digit can stand at the end of a text behind its orders. -/
theorem WindowLayout.stop {w : Window} {cs : List Char} (laid : WindowLayout w cs) :
    ∀ c ∈ cs.getLast?, isBlank c = true ∨ isDecimal c = true := by
  obtain ⟨⟨limit, offset, trail, rfl, limited, skipped, blanks⟩, limits, offsets⟩ := laid
  intro c last
  rw [Option.mem_def, List.getLast?_append, List.getLast?_append] at last
  rcases Option.or_eq_some_iff.mp last with behind | ⟨-, before⟩
  · exact Or.inl (blanks c (List.mem_of_getLast? behind))
  rcases Option.or_eq_some_iff.mp before with behind | ⟨-, before⟩
  · exact Or.inr (skipped.digits_stop offsets c behind)
  · exact Or.inr (limited.digits_stop limits c before)

/-- Behind the conditions, a text that ends with a quote can only have orders. -/
theorem ArrangementLayout.ordered {a : Arrangement} {quote : Char} (sign : quote = '\'' ∨ quote = '"')
    (laid : ArrangementLayout a (first ++ [quote])) : ∃ phrase gap orders,
      Keywords ["order", "by"] phrase ∧ Gap gap ∧ first ++ [quote] = phrase ++ gap ++ orders := by
  obtain ⟨orders, window, split, clause, windowed⟩ := laid.parts
  generalize a.orders? = orders? at clause
  cases clause with
  | absent =>
      have stop := windowed.stop quote (by
        rw [List.nil_append] at split
        rw [← split, List.getLast?_concat]
        rfl)
      obtain ⟨solid, -, undecimal, -⟩ := plain_of_quote sign
      simp [solid, undecimal] at stop
  | @present phrase gap body opened spaced =>
      exact ⟨phrase, gap, body ++ window, opened, spaced, by rw [split, List.append_assoc]⟩

end Clauses

/-- A text in which the reader finds nothing: it is on one line, and neither the word AND nor the words ORDER BY stand
in it between white space. -/
structure Intact (cs : List Char) : Prop where
  line : '\n' ∉ cs
  joined : ∀ between, Conjunction between → ¬ between <:+: cs
  ordered : ∀ phrase gap, Keywords ["order", "by"] phrase → Gap gap → ¬ phrase ++ gap <:+: cs

section Texts

variable {q : GqlQuery} {kind property inside : List Char} {quote : Char}

/-- The query for everything of a kind with one property equal to a text. -/
def equalityQuery (q : GqlQuery) (kind property inside : List Char) : StructuredQuery where
  resultType := .full
  namespaceName := q.namespaceName
  kind := some (String.ofList kind)
  filter := some (.condition (.compare (String.ofList property) .equal (.ofScalar (.string (String.ofList inside)))))
  orders := []
  projections := []
  groupBy := []
  limit := none
  offset := 0

theorem structured_of_refused {c : Clauses} (found : Clauses.ofText? q.text.toList = some c) (fits : Fits q c)
    {text : List Char} {others : List (List Char)} {e : Error} (given : c.tests = text :: others)
    (refused : condition q text = .error e) : Gql.structured q = .error e := by
  rw [structured_of_clauses found fits, given, List.mapM_cons, refused]
  rfl

/-- If the conditions end where the text does, the words ORDER BY do not stand between the quotes. -/
theorem unordered_of_least (least : ∀ first later, equalTo property ++ quote :: (inside ++ [quote]) = first ++ later →
    first ≠ [] → Arrangement.read? later ≠ none →
    (equalTo property ++ quote :: (inside ++ [quote])).length ≤ first.length) :
    ∀ phrase gap, Keywords ["order", "by"] phrase → Gap gap → ¬ phrase ++ gap <:+: inside := by
  rintro phrase gap opened spaced ⟨before, after, rfl⟩
  have nonempty : after ++ [quote] ≠ [] := List.append_ne_nil_of_right_ne_nil _ (List.cons_ne_nil _ _)
  have parts : equalTo property ++ quote :: (before ++ (phrase ++ gap) ++ after ++ [quote]) =
      (equalTo property ++ quote :: before) ++ (phrase ++ gap ++ (after ++ [quote])) := by
    simp only [List.append_assoc, List.cons_append]
  have short := least _ _ parts (List.append_ne_nil_of_right_ne_nil _ (List.cons_ne_nil _ _))
    (arrangement_of_order opened spaced nonempty)
  simp only [List.length_append, List.length_cons] at short
  omega

/-- If the conditions end where the text does, the quoted text is read unless it is on several lines or contains the
word AND. -/
theorem structured_of_whole (word : Word property) (sign : quote = '\'' ∨ quote = '"') (apart : quote ∉ inside)
    (allowed : q.allowLiteral = true)
    (found : Clauses.ofText? q.text.toList =
      some ⟨⟨⟨⟨none, none⟩, none⟩, kind, some (equalTo property ++ quote :: (inside ++ [quote]))⟩, ['*']⟩)
    (fits : q.resultType = .unknown ∨ q.resultType = .full) :
    ('\n' ∉ inside ∧ ∀ between, Conjunction between → ¬ between <:+: inside) ∧
        Gql.structured q = .ok (equalityQuery q kind property inside) ∨
      ¬ Intact inside ∧ ∃ fault, Gql.structured q = .error (GqlFault.error fault) := by
  rcases conditionTexts_of_closed word sign apart with ⟨unjoined, alone⟩ | ⟨⟨between, joined, within⟩, more, others,
    several, opened⟩
  · by_cases lines : '\n' ∈ inside
    · have line : '\n' ∈ inside ++ [quote] := List.mem_append_left _ lines
      exact Or.inr ⟨fun intact => intact.line lines, _, structured_of_refused found fits alone
        (condition_of_lines sign line)⟩
    · refine Or.inl ⟨⟨lines, unjoined⟩, ?_⟩
      have tests : Source.tests ⟨⟨⟨none, none⟩, none⟩, kind, some (equalTo property ++ quote :: (inside ++ [quote]))⟩ =
          [equalTo property ++ quote :: (inside ++ [quote])] := alone
      rw [structured_of_clauses found fits, tests, List.mapM_cons, condition_of_closed word sign allowed lines]
      rfl
  · obtain ⟨fault, refused⟩ := condition_of_open word sign allowed opened
    exact Or.inr ⟨fun intact => intact.joined between joined within, fault,
      structured_of_refused found fits several refused⟩

/-- If the conditions end at the words ORDER BY, these stand between the quotes, and the query is refused. -/
theorem refused_of_cut (word : Word property) (sign : quote = '\'' ∨ quote = '"') (apart : quote ∉ inside)
    (allowed : q.allowLiteral = true) {arrangement : Arrangement} {conditions phrase gap orders : List Char}
    (found : Clauses.ofText? q.text.toList = some ⟨⟨arrangement, kind, some conditions⟩, ['*']⟩)
    (fits : q.resultType = .unknown ∨ q.resultType = .full) (opened : Keywords ["order", "by"] phrase)
    (spaced : Gap gap)
    (split : equalTo property ++ quote :: (inside ++ [quote]) = conditions ++ (phrase ++ gap ++ orders)) :
    ¬ Intact inside ∧ ∃ fault, Gql.structured q = .error (GqlFault.error fault) := by
  cases opened with
  | @cons _ _ lead letters later leads spells follow =>
      have parts : lead ++ letters ++ later ++ gap ++ orders = lead ++ letters ++ (later ++ (gap ++ orders)) := by
        simp only [List.append_assoc]
      rw [parts] at split
      obtain ⟨more, rfl, cut⟩ := split_behind_quote word sign leads (spells.word (by decide)) split
      have cut : inside ++ [quote] = more ++ ((lead ++ letters ++ later) ++ gap) ++ orders := by
        rw [cut]
        simp only [List.append_assoc]
      obtain ⟨tail, -, rfl⟩ := split_before_quote (plain_of_quote sign).1 spaced cut
      have still : quote ∉ more := fun member => apart (by simp [member])
      obtain ⟨first, others, several, opened⟩ := conditionTexts_of_open word sign still
      obtain ⟨fault, refused⟩ := condition_of_open word sign allowed opened
      refine ⟨fun intact => ?_, fault, structured_of_refused found fits several refused⟩
      exact intact.ordered _ _ (.cons leads spells follow) spaced (List.infix_append ..)

/-- The reader answers with the quoted text if that is intact, and refuses the query otherwise. -/
theorem structured_of_quoted (words : Word kind) (word : Word property) (sign : quote = '\'' ∨ quote = '"')
    (apart : quote ∉ inside) (allowed : q.allowLiteral = true) (fits : q.resultType = .unknown ∨ q.resultType = .full)
    (text : q.text.toList =
      "SELECT * FROM ".toList ++ kind ++ " WHERE ".toList ++ (equalTo property ++ quote :: (inside ++ [quote]))) :
    Intact inside ∧ Gql.structured q = .ok (equalityQuery q kind property inside) ∨
      ¬ Intact inside ∧ ∃ fault, Gql.structured q = .error (GqlFault.error fault) := by
  have start : Flush (equalTo property ++ quote :: (inside ++ [quote])) := by
    rw [equalTo, List.append_assoc]
    exact word.solid.start.append word.nonempty _
  obtain ⟨conditions, rest, arrangement, found, split, reads, least⟩ :=
    clauses_of_conditions words start (List.append_ne_nil_of_right_ne_nil _ (List.cons_ne_nil _ _))
  rw [← text] at found
  -- What is left behind the conditions is nothing, or it ends with the quote.
  rcases List.eq_nil_or_concat rest with rfl | ⟨init, last, rfl⟩
  · rw [List.append_nil] at split
    subst split
    have empty : some ⟨⟨none, none⟩, none⟩ = some arrangement := reads
    cases empty
    refine (structured_of_whole word sign apart allowed found fits).imp_left fun ⟨⟨line, unjoined⟩, read⟩ => ?_
    exact ⟨⟨line, unjoined, unordered_of_least least⟩, read⟩
  · rw [List.concat_eq_append] at split reads
    obtain rfl : quote = last := by
      have ends : (equalTo property ++ quote :: inside) ++ [quote] = (conditions ++ init) ++ [last] := by
        simpa only [List.append_assoc, List.cons_append] using split
      exact List.singleton_inj.mp (List.append_inj' ends rfl).2
    obtain ⟨phrase, gap, orders, opened, spaced, ends⟩ := (layout_of_arrangement reads).ordered sign
    rw [ends] at split
    exact Or.inr (refused_of_cut word sign apart allowed found fits opened spaced split)

/-- A quoted text is read back, and alone is the filter, exactly if it is intact.  Otherwise the query is refused. -/
theorem quoted_text_read_iff_intact (words : Word kind) (word : Word property) (sign : quote = '\'' ∨ quote = '"')
    (apart : quote ∉ inside) (allowed : q.allowLiteral = true) (fits : q.resultType = .unknown ∨ q.resultType = .full)
    (text : q.text.toList = "SELECT * FROM ".toList ++ kind ++ " WHERE ".toList ++
      (property ++ " = ".toList ++ quote :: (inside ++ [quote]))) :
    (Gql.structured q = .ok {
      resultType := .full, namespaceName := q.namespaceName, kind := some (String.ofList kind),
      filter := some (.condition (.compare (String.ofList property) .equal
        (.ofScalar (.string (String.ofList inside))))), orders := [], projections := [], groupBy := [], limit := none,
      offset := 0 } ↔ Intact inside) ∧
    (¬ Intact inside → ∃ fault, Gql.structured q = .error (GqlFault.error fault)) := by
  rcases structured_of_quoted words word sign apart allowed fits text with ⟨intact, read⟩ | ⟨cut, fault, refused⟩
  · exact ⟨iff_of_true read intact, fun cut => absurd intact cut⟩
  · refine ⟨iff_of_false (fun read => ?_) cut, fun _ => ⟨fault, refused⟩⟩
    rw [refused] at read
    cases read

end Texts

/-- Words of the query language between quotes, but none of them where the reader looks for it. -/
theorem quoted_text_read_iff_intact_of_words :
    let inside := "it's LIMIT 5, ORDER by; and".toList
    let q : GqlQuery :=
      ⟨.full, some "x", "SELECT * FROM Task WHERE title = \"it's LIMIT 5, ORDER by; and\"", true, [], []⟩
    Word "Task".toList ∧ Word "title".toList ∧ '"' ∉ inside ∧
      q.text.toList = "SELECT * FROM ".toList ++ "Task".toList ++ " WHERE ".toList ++
        ("title".toList ++ " = ".toList ++ '"' :: (inside ++ ['"'])) ∧
      Gql.structured q = .ok {
        resultType := .full, namespaceName := some "x", kind := some "Task",
        filter := some (.condition (.compare "title" .equal (.ofScalar (.string "it's LIMIT 5, ORDER by; and")))),
        orders := [], projections := [], groupBy := [], limit := none, offset := 0 } ∧ Intact inside := by
  intro inside q
  have kind : Word "Task".toList := by decide +kernel
  have property : Word "title".toList := by decide +kernel
  have apart : '"' ∉ inside := by decide
  have text : q.text.toList = "SELECT * FROM ".toList ++ "Task".toList ++ " WHERE ".toList ++
      ("title".toList ++ " = ".toList ++ '"' :: (inside ++ ['"'])) := by decide
  have answer : Gql.structured q = .ok {
      resultType := .full, namespaceName := some "x", kind := some "Task",
      filter := some (.condition (.compare "title" .equal (.ofScalar (.string "it's LIMIT 5, ORDER by; and")))),
      orders := [], projections := [], groupBy := [], limit := none, offset := 0 } := by
    simp only [q]
    rfl
  have read := quoted_text_read_iff_intact (q := q) kind property (Or.inr rfl) apart rfl (Or.inr rfl) text
  exact ⟨kind, property, apart, text, answer, read.1.mp answer⟩

/-- A quoted text with the word AND in it is cut there, and its first half is no literal. -/
theorem quoted_conjunction_refused :
    let q : GqlQuery := ⟨.unknown, none, "SELECT * FROM K WHERE p = 'rock AND roll'", true, [], []⟩
    Name "K".toList ∧ Name "p".toList ∧ '\'' ∉ "rock AND roll".toList ∧
      Gql.structured q = .error (GqlFault.unrecognized "'rock").error := by
  intro q
  have refused : Gql.structured q = .error (GqlFault.unrecognized "'rock").error := by
    simp only [q]
    rfl
  exact ⟨by decide +kernel, by decide +kernel, by decide, refused⟩

end EntityStore.Gql
