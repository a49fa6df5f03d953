import EntityStore.Proofs.Equality
import EntityStore.Proofs.Phrases

set_option autoImplicit false

namespace EntityStore.Gql

open Text

section Splitting

variable {α : Type} {item : α → List Char → Prop} {items : List α} {text : List Char}

theorem splitCommas_eq (cs : List Char) : splitCommas cs = cs.splitOnP (· == ',') := by
  induction cs with
  | nil => rfl
  | cons c rest ih =>
      rw [splitCommas, ih, List.splitOnP_cons_eq_if_modifyHead]
      cases parts : rest.splitOnP (· == ',') with
      | nil => exact absurd parts (List.splitOnP_ne_nil _ _)
      | cons first more => simp [List.modifyHead]

/-- A list with commas is split into its items. -/
theorem forall₂_splitCommas {before : List Char} (listed : Separated Comma item items text) (ahead : Blanks before)
    (plain : ∀ a cs, item a cs → Solid cs ∧ ',' ∉ cs) :
    List.Forall₂ item items ((splitCommas (before ++ text)).map trim) := by
  have apart {cs : List Char} (blanks : Blanks cs) : ',' ∉ cs := comma_notMem fun c member => Or.inr (blanks c member)
  simp only [splitCommas_eq]
  induction listed generalizing before with
  | @one a cs stated =>
      obtain ⟨solid, single⟩ := plain a cs stated
      rw [List.splitOnP_eq_singleton (by grind), List.map_singleton, List.forall₂_cons]
      have alone := trim_padded ahead solid blanks_nil
      rw [List.append_nil] at alone
      exact ⟨alone.symm ▸ stated, List.Forall₂.nil⟩
  | @more a rest cs between later stated sign follow ih =>
      obtain ⟨solid, single⟩ := plain a cs stated
      obtain @⟨space, after, blanks, behind⟩ := sign
      have parts : before ++ (cs ++ (space ++ ',' :: after) ++ later) =
          (before ++ cs ++ space) ++ ',' :: (after ++ later) := by simp only [List.append_assoc, List.cons_append]
      have others := apart ahead
      have between := apart blanks
      rw [parts, List.splitOnP_append_cons_of_forall_mem (by grind) _ (by simp), List.map_cons, List.forall₂_cons,
        trim_padded ahead solid blanks]
      exact ⟨stated, ih behind⟩

theorem skipAnd?_conjunction {between later : List Char} (joined : Conjunction between) (flush : Flush later) :
    skipAnd? (between ++ later) = some later := by
  obtain ⟨opened, spaced⟩ := joined
  rw [List.append_assoc, skipAnd?, opened.skip_alone (by decide)]
  exact skipBlanks?_gap spaced flush

theorem splitAnd_append {body tail first : List Char} {more : List (List Char)} {rounds : Nat}
    (passed : Passes skipAnd? body tail) (later : splitAnd rounds tail = first :: more) :
    splitAnd (body.length + rounds) (body ++ tail) = (body ++ first) :: more := by
  induction body with
  | nil => simpa using later
  | cons c rest ih =>
      have none := passed [] (c :: rest) rfl (List.cons_ne_nil c rest)
      have inner := ih fun before cs split => passed (c :: before) cs (by rw [split, List.cons_append])
      rw [List.length_cons, Nat.add_right_comm, List.cons_append, splitAnd, ← List.cons_append, none]
      simp only [inner]
      rfl

/-- A list with the word AND is split into its items. -/
theorem forall₂_splitAnd (listed : Separated Conjunction item items text)
    (plain : ∀ a cs, item a cs → Solid cs ∧ Lacks "and" cs) {rounds : Nat} (enough : text.length ≤ rounds) :
    List.Forall₂ item items (splitAnd rounds text) := by
  have passes {cs tail : List Char} (solid : Solid cs) (lacks : Lacks "and" cs) (bare : Bare tail) :
      Passes skipAnd? cs tail := by
    refine Passes.of_unread ["and"] (by decide) solid (by simpa using lacks) bare fun text _ unread => ?_
    exact unread "and" List.mem_cons_self
  induction listed generalizing rounds with
  | @one a cs stated =>
      obtain ⟨solid, lacks⟩ := plain a cs stated
      obtain ⟨spare, rfl⟩ := Nat.exists_eq_add_of_le enough
      have rest : splitAnd spare [] = [[]] := by cases spare <;> rfl
      have parts := splitAnd_append (passes solid lacks bare_nil) rest
      rw [List.append_nil] at parts
      rw [parts, List.forall₂_cons]
      exact ⟨stated, List.Forall₂.nil⟩
  | @more a rest cs between later stated joined follow ih =>
      obtain ⟨solid, lacks⟩ := plain a cs stated
      have flush := (follow.solid fun a cs stated => (plain a cs stated).1).start
      have bare := (joined.loose_append later).bare
      have skipped := skipAnd?_conjunction joined flush
      obtain ⟨c, signs, rfl⟩ := List.exists_cons_of_ne_nil joined.nonempty
      simp only [List.length_append, List.length_cons] at enough
      obtain ⟨spare, rfl⟩ : ∃ spare, rounds = cs.length + (spare + 1) := ⟨rounds - cs.length - 1, by omega⟩
      have parts : splitAnd (spare + 1) (c :: signs ++ later) = [] :: splitAnd spare later := by
        rw [List.cons_append] at skipped ⊢
        rw [splitAnd, skipped]
      rw [List.append_assoc, splitAnd_append (passes solid lacks bare) parts, List.append_nil, List.forall₂_cons]
      exact ⟨stated, ih (by omega)⟩

theorem forall₂_conditionTexts (listed : Separated Conjunction item items text)
    (plain : ∀ a cs, item a cs → Solid cs ∧ Lacks "and" cs) : List.Forall₂ item items (conditionTexts text) := by
  have solid := listed.solid fun a cs stated => (plain a cs stated).1
  rw [conditionTexts, trim_of_solid solid]
  refine List.forall₂_map_right_iff.mpr ((forall₂_splitAnd listed plain (Nat.le_refl _)).imp fun a cs stated => ?_)
  rwa [trim_of_solid (plain a cs stated).1]

/-- A text without the word AND is one condition. -/
theorem conditionTexts_of_lacks (solid : Solid text) (lacks : Lacks "and" text) : conditionTexts text = [text] := by
  have alone : Separated Conjunction (fun (_ : Unit) cs => cs = text) [()] text := .one rfl
  have parts := forall₂_conditionTexts alone fun _ cs same => same ▸ ⟨solid, lacks⟩
  obtain ⟨_, _, rfl, none, split⟩ := List.forall₂_cons_left_iff.mp parts
  rw [split, List.forall₂_nil_left_iff.mp none]

end Splitting

section Operands

variable {q : GqlQuery} {cs : List Char} {n : Nat} {v : Value}

theorem decimalNumber?_of_digits (digits : ∀ c ∈ cs, c.isDigit = true) :
    decimalNumber? cs = some (Nat.ofDigitChars 10 cs 0) := by
  have onward (start : Nat) : cs.foldl (fun number c => do return (← number) * 10 + (← digitValue? c)) (some start) =
      some (Nat.ofDigitChars 10 cs start) := by
    induction cs generalizing start with
    | nil => rfl
    | cons c rest ih =>
        obtain ⟨here, later⟩ := List.forall_mem_cons.mp digits
        rw [List.foldl_cons, digitValue?_of_isDigit here, Nat.ofDigitChars_cons, Nat.mul_comm 10]
        exact ih later _
  exact onward 0

theorem Numeral.read (numeral : Numeral cs n) : Gql.digits cs = .ok n := by
  have short : ¬ Number.maxDigits < cs.length := Nat.not_lt.mpr numeral.short
  rw [Gql.digits, decimalNumber?_of_digits numeral.digits, numeral.value]
  simp only [short, ↓reduceIte]

theorem Decimal.isDigit (decimal : Decimal cs n) : (!cs.isEmpty && cs.all Text.isDigit) = true := by
  have all : cs.all Text.isDigit = true := by
    refine List.all_eq_true.mpr fun c member => ?_
    simp [Text.isDigit, isDecimal, digitValue?_of_isDigit (decimal.digits c member)]
  simp [all, decimal.nonempty]

theorem operand_of_name (name : Name cs) : operand q ('@' :: cs) = bound q cs := by
  have sign : Solid ['@'] := ⟨List.cons_ne_nil _ _, flush_cons.mpr (by decide), flush_cons.mpr (by decide)⟩
  have solid : Solid ('@' :: cs) := sign.append [] name.solid
  rw [operand, trim_of_solid solid]
  rfl

/-- A reference denotes the value that is bound to it. -/
theorem operand_of_reference (reference : Reference q cs v) : operand q ('@' :: cs) = .ok v := by
  rw [operand_of_name reference.name, bound]
  cases reference with
  | named name letter found =>
      obtain ⟨c, member, plain⟩ := letter
      have some : (!cs.isEmpty && cs.all Text.isDigit) = false := by
        rw [Bool.and_eq_false_iff, List.all_eq_false]
        exact Or.inr ⟨c, member, by simp [plain]⟩
      rw [some, found]
      rfl
  | position numeral found =>
      rw [if_pos numeral.isDigit, numeral.read]
      simp only [bind, Except.bind, Nat.add_sub_cancel, found]
      rfl

/-- A position that is written with too many digits is no reference, whatever number it is. -/
theorem operand_of_long (decimal : Decimal cs n) (long : 4300 < cs.length) :
    operand q ('@' :: cs) = .error (.failure .numeral) := by
  have unread : Gql.digits cs = .error (.failure .numeral) := by
    rw [Gql.digits, decimalNumber?_of_digits decimal.digits]
    exact if_pos long
  rw [operand_of_name decimal.name, bound, if_pos decimal.isDigit, unread]
  rfl

end Operands

section Conditions

variable {q : GqlQuery} {c : Condition} {o : Order} {cs : List Char}

/-- The text of an operand, on one line.  No longer comparison sign ends with its first character. -/
structure Operand (cs : List Char) : Prop where
  nonempty : cs ≠ []
  start : Flush cs
  apart : ∀ c ∈ cs.head?, c ≠ '='
  line : '\n' ∉ cs

theorem Name.operand {reference : List Char} (name : Name reference) : Operand ('@' :: reference) where
  nonempty := List.cons_ne_nil _ _
  start := flush_cons.mpr (by decide)
  apart := by simp
  line := by
    intro member
    rcases List.mem_cons.mp member with same | inside
    · cases same
    · have word := name.chars _ inside
      simp [isWord_of_isBlank (show isBlank '\n' = true by decide)] at word

theorem operandText?_of_operand {before text : List Char} (blanks : Blanks before) (operand : Operand text) :
    operandText? (before ++ text) = some text := by
  have given : text.isEmpty = false := by simp [operand.nonempty]
  rw [operandText?, trimStart_append blanks operand.start]
  simp only [given, Bool.false_or, List.contains_iff_mem, operand.line, ↓reduceIte]

theorem comparison?_of_symbol (relation : Comparison) {before text : List Char} (blanks : Blanks before)
    (operand : Operand text) :
    comparison? (relation.symbol.toList ++ (before ++ text)) = some (relation, text) := by
  have found := operandText?_of_operand blanks operand
  -- No longer sign stands there.
  obtain ⟨d, more, split, other⟩ : ∃ d more, before ++ text = d :: more ∧ d ≠ '=' := by
    cases before with
    | nil =>
        obtain ⟨d, more, rfl⟩ := List.exists_cons_of_ne_nil operand.nonempty
        exact ⟨d, more, rfl, operand.apart d rfl⟩
    | cons b rest =>
        refine ⟨b, rest ++ text, rfl, ?_⟩
        rintro rfl
        exact absurd (blanks '=' List.mem_cons_self) (by decide)
  rw [split] at found ⊢
  cases relation <;>
    simp [comparison?, comparisons, Comparison.symbol, List.findSome?, found, other.symm]

/-- No keyword starts with a sign. -/
theorem skipKeyword?_of_sign {keyword : String} (known : keyword ∈ keywords) {before rest : List Char} {sign : Char}
    (blanks : Blanks before) (solid : isBlank sign = false) (apart : isWord sign = false) :
    skipKeyword? keyword (before ++ sign :: rest) = none := by
  have flush : Flush (sign :: rest) := flush_cons.mpr solid
  have unread : keyword? keyword.toList (sign :: rest) = none := by
    refine Option.eq_none_iff_forall_ne_some.mpr fun after read => ?_
    obtain ⟨spelled, split, spells⟩ := keyword?_eq_some_iff.mp read
    have word := Spells.word known spells
    obtain ⟨d, more, rfl⟩ := List.exists_cons_of_ne_nil word.nonempty
    obtain ⟨rfl, -⟩ := List.cons.inj split
    simp [word.chars sign List.mem_cons_self] at apart
  cases before with
  | nil => rw [skipKeyword?, List.nil_append, skipBlanks?_of_flush flush, Option.bind_none]
  | cons b more =>
      rw [skipKeyword?, skipBlanks?_gap ⟨List.cons_ne_nil b more, blanks⟩ flush, Option.bind_some, unread]

/-- A comparison is not mistaken for a test for an ancestor. -/
theorem ancestorOperand?_of_word {property before rest : List Char} {sign : Char} (word : Word property)
    (blanks : Blanks before) (solid : isBlank sign = false) (apart : isWord sign = false) :
    ancestorOperand? (property ++ (before ++ sign :: rest)) = none := by
  have known : "has" ∈ keywords := by decide
  have unread : (keyword? keyProperty.toList (property ++ (before ++ sign :: rest))).bind (skipKeyword? "has") =
      none := by
    refine Option.eq_none_iff_forall_ne_some.mpr fun after read => ?_
    obtain ⟨text, first, second⟩ := Option.bind_eq_some_iff.mp read
    obtain ⟨spelled, split, spells⟩ := keyword?_eq_some_iff.mp first
    have chars := Spells.chars spells (by decide)
    have signed : text ≠ before ++ sign :: rest := by
      rintro rfl
      rw [skipKeyword?_of_sign known blanks solid apart] at second
      cases second
    rcases List.append_eq_append_iff.mp split with ⟨part, longer, signs⟩ | ⟨part, shorter, rest⟩
    · cases part with
      | nil => exact signed signs.symm
      | cons d more =>
          -- The sign would be a letter.
          have bare : Bare (before ++ sign :: rest) := blanks.bare_append apart
          rw [signs, List.cons_append, bare_cons, chars d (by simp [longer])] at bare
          cases bare
    · cases part with
      | nil => exact signed rest
      | cons d more =>
          have letter := word.chars d (by simp [shorter])
          rw [rest, List.cons_append, skipKeyword?, skipBlanks?_of_flush (flush_cons.mpr (isBlank_of_isWord letter))]
            at second
          cases second
  unfold ancestorOperand?
  simp only [Option.bind_eq_bind]
  rw [← Option.bind_assoc, unread]
  rfl

/-- The test for an ancestor, which has to be a key. -/
def ancestorCondition : Value → Except Error Condition
  | .single ⟨.key k, _⟩ => .ok (.hasAncestor k)
  | _ => .error GqlFault.ancestorValue.error

/-- A condition around the text of its operand: what the condition is for a value, that text, and the whole text. -/
inductive ConditionForm : (Value → Except Error Condition) → List Char → List Char → Prop where
  | compare {property before after text : List Char} {relation : Comparison} (word : Word property)
      (ahead : Blanks before) (behind : Blanks after) :
      ConditionForm (fun v => .ok (.compare (String.ofList property) relation v)) text
        (property ++ (before ++ relation.symbol.toList ++ after) ++ text)
  | hasAncestor {key phrase gap text : List Char} (spelled : Spells keyProperty key)
      (opened : Keywords ["has", "ancestor"] phrase) (spaced : Gap gap) :
      ConditionForm ancestorCondition text (key ++ (phrase ++ gap) ++ text)

/-- A condition is read as it is stated, whatever its operand denotes. -/
theorem condition_of_form {finish : Value → Except Error Condition} {text : List Char}
    (form : ConditionForm finish text cs) (given : Operand text) : condition q cs = operand q text >>= finish := by
  cases form with
  | @compare property before after _ relation word ahead behind =>
      obtain ⟨sign, more, symbol, solid, apart⟩ : ∃ sign more, relation.symbol.toList = sign :: more ∧
          isBlank sign = false ∧ isWord sign = false := by
        cases relation <;> exact ⟨_, _, rfl, by decide, by decide +kernel⟩
      have parts : property ++ (before ++ relation.symbol.toList ++ after) ++ text =
          property ++ (before ++ (relation.symbol.toList ++ (after ++ text))) := by
        simp only [List.append_assoc]
      have compared := comparison?_of_symbol relation behind given
      have flush : Flush (relation.symbol.toList ++ (after ++ text)) := by
        rw [symbol]
        exact flush_cons.mpr solid
      have bare : Bare (before ++ (relation.symbol.toList ++ (after ++ text))) := by
        rw [symbol]
        exact ahead.bare_append apart
      have other : ancestorOperand? (property ++ (before ++ (relation.symbol.toList ++ (after ++ text)))) = none := by
        rw [symbol]
        exact ancestorOperand?_of_word word ahead solid apart
      rw [parts, condition, other, run?_append word.nonempty word.chars bare]
      simp only [Option.bind_eq_bind, Option.bind_some, trimStart_append ahead flush, compared]
      show Condition.compare (String.ofList property) relation <$> operand q text = _
      cases operand q text <;> rfl
  | @hasAncestor key phrase gap _ spelled opened spaced =>
      have parts : key ++ (phrase ++ gap) ++ text = key ++ (phrase ++ (gap ++ text)) := by
        simp only [List.append_assoc]
      have found : ancestorOperand? (key ++ (phrase ++ (gap ++ text))) = some text := by
        obtain ⟨second, opened, first⟩ := opened.skip (by decide)
        have read : keyword? keyProperty.toList (key ++ (phrase ++ (gap ++ text))) = some (phrase ++ (gap ++ text)) :=
          keyword?_eq_some_iff.mpr ⟨key, rfl, spelled⟩
        simp only [ancestorOperand?, read, first, opened.skip_alone (by decide : "ancestor" ∈ keywords),
          skipBlanks?_gap spaced given.start, Option.bind_eq_bind, Option.bind_some]
        exact operandText?_of_operand blanks_nil given
      rw [parts, condition, found]
      rfl

theorem condition_of_comparison {property before after reference : List Char} {relation : Comparison}
    (name : Name property) (ahead : Blanks before) (behind : Blanks after) (named : Name reference) :
    condition q (property ++ (before ++ relation.symbol.toList ++ after ++ ['@']) ++ reference) =
      .compare (String.ofList property) relation <$> operand q ('@' :: reference) := by
  have text : property ++ (before ++ relation.symbol.toList ++ after ++ ['@']) ++ reference =
      property ++ (before ++ relation.symbol.toList ++ after) ++ '@' :: reference := by
    simp only [List.append_assoc, List.singleton_append]
  rw [text, condition_of_form (.compare name.toWord ahead behind) named.operand]
  cases operand q ('@' :: reference) <;> rfl

theorem condition_of_test (stated : TestText q c cs) : condition q cs = .ok c := by
  cases stated with
  | compare name ahead behind bound =>
      rw [condition_of_comparison name ahead behind bound.name, operand_of_reference bound]
      rfl
  | @hasAncestor phrase gap reference k marks opened spaced bound =>
      have text : keyProperty.toList ++ phrase ++ (gap ++ ['@']) ++ reference =
          keyProperty.toList ++ (phrase ++ gap) ++ '@' :: reference := by
        simp only [List.append_assoc, List.singleton_append]
      rw [text, condition_of_form (.hasAncestor (by decide) opened spaced) bound.name.operand,
        operand_of_reference bound]
      rfl

theorem order_of_text (stated : OrderText o cs) : order cs = .ok o := by
  have directed {property word : List Char} {keyword : String} {direction : Direction} (known : keyword ∈ keywords)
      (name : Name property) (opened : Keywords [keyword] word)
      (read : ∀ spelled, Spells keyword spelled → (if isKeyword "asc" spelled then some Direction.ascending
        else if isKeyword "desc" spelled then some .descending else none) = some direction) :
      order (property ++ word) = .ok ⟨String.ofList property, direction⟩ := by
    obtain ⟨gap, spelled, spaced, spells, rfl⟩ := opened.alone
    have given : (gap ++ spelled).isEmpty = false := by simp [spaced.nonempty]
    rw [order, run?_append name.nonempty name.chars (spaced.loose_append spelled).bare]
    simp only [Option.bind_eq_bind, Option.bind_some, direction?, given,
      skipBlanks?_gap spaced (spells.word known).solid.start, read spelled spells]
    rfl
  cases stated with
  | plain name =>
      have alone := run?_append name.nonempty name.chars bare_nil
      rw [List.append_nil] at alone
      rw [order, alone]
      rfl
  | ascending name opened =>
      refine directed (by decide) name opened fun spelled spells => ?_
      rw [if_pos (isKeyword_iff.mpr spells)]
  | descending name opened =>
      refine directed (by decide) name opened fun spelled spells => ?_
      have other : ¬ isKeyword "asc" spelled = true := fun also =>
        absurd (Spells.unique spells (isKeyword_iff.mp also)) (by decide)
      rw [if_neg other, if_pos (isKeyword_iff.mpr spells)]

end Conditions

section Selections

variable {names : List String} {text : List Char}

theorem forall₂_itemTexts (listed : Separated Comma NameText names text) :
    List.Forall₂ NameText names (itemTexts text) := by
  have parts := forall₂_splitCommas listed blanks_nil fun _ _ => NameText.plain
  rwa [List.nil_append] at parts

theorem map_of_forall₂_nameText {texts : List (List Char)} (named : List.Forall₂ NameText names texts) :
    texts.map String.ofList = names := by
  rw [← List.forall₂_eq_eq_eq, List.forall₂_map_left_iff]
  refine named.flip.imp fun cs name stated => ?_
  obtain ⟨-⟩ := stated
  rfl

theorem selection_of_text {requested type : ResultType} {projections : List Projection}
    (selected : Selection requested type projections text) :
    Gql.selection requested text = (type, projections) := by
  cases selected with
  | all => rfl
  | keys =>
      have trimmed := trim_of_solid name_keyProperty.solid
      rw [Gql.selection, trimmed, if_neg (by decide), if_pos rfl]
  | @properties names _ listed other =>
      have trimmed := trim_of_solid (listed.solid fun _ _ stated => (NameText.plain stated).1)
      have named := forall₂_itemTexts listed
      have starless : text ≠ ['*'] := by
        rintro rfl
        obtain ⟨name, member, stated⟩ := exists_mem_of_forall₂ named.flip (List.mem_singleton.mpr rfl)
        have plain : Name ['*'] := by
          obtain ⟨plain⟩ := stated
          exact plain
        have word := plain.chars '*' List.mem_cons_self
        exact absurd word (by decide +kernel)
      have keyless : text ≠ keyProperty.toList := by
        rintro rfl
        exact other (map_of_forall₂_nameText named).symm
      rw [Gql.selection, trimmed, if_neg starless, if_neg keyless, ← map_of_forall₂_nameText named, List.map_map]
      rfl

end Selections

section Queries

/-- A list that may be left out if it is empty. -/
inductive Stated {α : Type} (listed : List α → List Char → Prop) : List α → Option (List Char) → Prop where
  | nothing : Stated listed [] none
  | text {items : List α} {cs : List Char} (given : listed items cs) : Stated listed items (some cs)

theorem mapM_of_forall₂ {α β ε : Type} {R : β → α → Prop} {read : α → Except ε β} {items : List β} {texts : List α}
    (related : List.Forall₂ R items texts) (reads : ∀ b a, R b a → read a = .ok b) :
    texts.mapM read = .ok items := by
  induction related with
  | nil => rfl
  | cons here _ ih =>
      rw [List.mapM_cons, reads _ _ here, ih]
      rfl

variable {q : GqlQuery} {c : Clauses} {type : ResultType} {projections : List Projection} {tests : List Condition}
  {orders : List Order} {limit offset : Option Nat}

theorem mapM_conditionTexts {text : List Char} (listed : Separated Conjunction (TestText q) tests text) :
    (conditionTexts text).mapM (condition q) = .ok tests := by
  have parts := forall₂_conditionTexts listed fun _ _ stated => ⟨stated.solid, stated.lacks (by decide)⟩
  exact mapM_of_forall₂ parts fun _ _ => condition_of_test

theorem mapM_itemTexts {text : List Char} (listed : Separated Comma OrderText orders text) :
    (itemTexts text).mapM order = .ok orders := by
  have parts := forall₂_splitCommas listed blanks_nil fun _ _ stated => ⟨OrderText.solid stated, stated.single⟩
  rw [List.nil_append] at parts
  exact mapM_of_forall₂ parts fun _ _ => order_of_text

theorem Selection.readable {requested : ResultType} {text : List Char}
    (selected : Selection requested type projections text) :
    Solid text ∧ ∀ keyword ∈ ["from"], Lacks keyword text := by
  have known : "from" ∈ keywords := by decide
  simp only [List.mem_singleton, forall_eq]
  cases selected with
  | all =>
      refine ⟨⟨List.cons_ne_nil _ _, flush_cons.mpr (by decide), flush_cons.mpr (by decide)⟩, ?_⟩
      have lacks : ∀ word ∈ words ['*'], word.map foldCase ≠ "from".toList := by decide +kernel
      exact lacks
  | keys => exact ⟨name_keyProperty.solid, name_keyProperty.lacks known⟩
  | properties listed =>
      have lacks : ∀ name cs, NameText name cs → Lacks "from" cs := by
        rintro _ cs ⟨name⟩
        exact name.lacks known
      exact ⟨listed.solid fun _ _ stated => (NameText.plain stated).1,
        listed.lacks lacks fun _ _ _ => Comma.lacks known⟩

theorem readable_of_stated (kind : Name c.kind) (selected : Selection q.resultType type projections c.selected)
    (conditioned : Stated (Separated Conjunction (TestText q)) tests c.conditions?)
    (ordered : Stated (Separated Comma OrderText) orders c.orders?) (limited : ∀ digits ∈ c.limit?, Digits digits)
    (skipped : ∀ digits ∈ c.offset?, Digits digits) : Readable c where
  selected := selected.readable
  kind := kind.toWord
  conditions text given := by
    rw [Option.mem_def.mp given] at conditioned
    cases conditioned with
    | text listed =>
        refine ⟨listed.solid fun _ _ => TestText.solid, fun keyword member => ?_⟩
        have known : ∀ keyword ∈ ["order", "limit", "offset"], keyword ∈ keywords ∧ "and" ≠ keyword ∧
            keyword ∈ ["and", "order", "limit", "offset"] := by decide
        obtain ⟨reserved, other, among⟩ := known keyword member
        exact listed.lacks (fun _ _ => TestText.lacks among) fun _ _ _ => Conjunction.lacks reserved other
  orders text given := by
    rw [Option.mem_def.mp given] at ordered
    cases ordered with
    | text listed =>
        refine ⟨listed.solid fun _ _ => OrderText.solid, fun keyword member => ?_⟩
        have known : ["limit", "offset"] ⊆ keywords := by decide
        exact listed.lacks (fun _ _ => OrderText.lacks member) fun _ _ _ => Comma.lacks (known member)
  limit := limited
  offset := skipped

theorem Decimal.digitsText {n : Nat} {cs : List Char} (decimal : Decimal cs n) : Digits cs where
  nonempty := decimal.nonempty
  chars c member := by simp [isDecimal, digitValue?_of_isDigit (decimal.digits c member)]

theorem digitsText_of_rel {text? : Option (List Char)} {n? : Option Nat} (stated : Option.Rel Numeral text? n?) :
    ∀ digits ∈ text?, Digits digits := by
  rintro digits ⟨⟩
  cases stated with
  | some numeral => exact numeral.digitsText

theorem mapM_digits {text? : Option (List Char)} {n? : Option Nat} (stated : Option.Rel Numeral text? n?) :
    text?.mapM Gql.digits = .ok n? := by
  cases stated with
  | none => rfl
  | @some text n numeral =>
      show (do let found ← Gql.digits text; pure (some found)) = Except.ok (some n)
      rw [numeral.read]
      rfl

/-- What is left of some conditions as a filter: nothing, one alone, or the conjunction of several. -/
inductive Conjoined : List Condition → Option Filter → Prop where
  | none : Conjoined [] none
  | one (test : Condition) : Conjoined [test] (some (.condition test))
  | several (first second : Condition) (more : List Condition) :
      Conjoined (first :: second :: more) (some (.all ((first :: second :: more).map .condition)))

theorem filter?_of_conjoined {filter : Option Filter} (conjoined : Conjoined tests filter) :
    filter? tests = filter := by
  cases conjoined with
  | none => rfl
  | one test => rfl
  | several first second more => rfl

/-- A query text denotes the query that its clauses state, whatever white space stands between its words and signs and
in whatever case its keywords are written. -/
theorem structured_of_layout {filter : Option Filter} (layout : Layout c q.text.toList) (kind : Name c.kind)
    (selected : Selection q.resultType type projections c.selected)
    (fits : q.resultType = .unknown ∨ q.resultType = type)
    (conditioned : Stated (Separated Conjunction (TestText q)) tests c.conditions?)
    (ordered : Stated (Separated Comma OrderText) orders c.orders?)
    (limited : Option.Rel Numeral c.limit? limit) (skipped : Option.Rel Numeral c.offset? offset)
    (conjoined : Conjoined tests filter) :
    Gql.structured q = .ok {
      resultType := type, namespaceName := q.namespaceName, kind := some (String.ofList c.kind), filter, orders,
      projections, groupBy := [], limit, offset := offset.getD 0 } := by
  have readable := readable_of_stated kind selected conditioned ordered (digitsText_of_rel limited)
    (digitsText_of_rel skipped)
  have fitting : ¬ (q.resultType ≠ .unknown ∧ q.resultType ≠ type) := by
    rcases fits with unknown | same
    · exact fun both => both.1 unknown
    · exact fun both => both.2 same
  rw [Gql.structured, ofText?_of_layout layout readable]
  simp only [selection_of_text selected, fitting, mapM_digits limited, mapM_digits skipped]
  generalize c.conditions? = conditions? at conditioned
  generalize c.orders? = orders? at ordered
  rw [← filter?_of_conjoined conjoined]
  cases conditioned with
  | nothing =>
      cases ordered with
      | nothing => rfl
      | text listed =>
          simp only [mapM_itemTexts listed]
          rfl
  | text tested =>
      simp only [mapM_conditionTexts tested]
      cases ordered with
      | nothing => rfl
      | text listed =>
          simp only [mapM_itemTexts listed]
          rfl

end Queries

/-- Keywords in several cases, line breaks and tabs between words, and both kinds of references. -/
theorem structured_of_layout_of_mixed :
    let team : Key := ⟨⟨⟨"app", by decide⟩, none, [], ⟨"Team", by decide⟩⟩, .id ⟨1, by decide⟩⟩
    let young : Value := .ofScalar (.long ⟨30, by decide⟩)
    let text := "\tSelect name ,age\n from Person WHERE age>=@1 And  __key__ has\tANCESTOR @team" ++
      " order\n by age  DESC,name LIMIT 10 offset  3\n"
    let q : GqlQuery := ⟨.unknown, some "x", text, false, [("team", .single ⟨.key team, ⟨none, none⟩⟩)], [young]⟩
    let c : Clauses := ⟨⟨⟨⟨some "10".toList, some "3".toList⟩, some "age  DESC,name".toList⟩, "Person".toList,
      some "age>=@1 And  __key__ has\tANCESTOR @team".toList⟩, "name ,age".toList⟩
    Layout c q.text.toList ∧ Gql.structured q = .ok {
      resultType := .projection, namespaceName := some "x", kind := some "Person",
      filter := some (.all [.condition (.compare "age" .greaterOrEqual young), .condition (.hasAncestor team)]),
      orders := [⟨"age", .descending⟩, ⟨"name", .ascending⟩], projections := [⟨"name", false⟩, ⟨"age", false⟩],
      groupBy := [], limit := some 10, offset := 3 } := by
  intro team young text q c
  have gap : Gap " ".toList := by decide
  have wide : Gap "  ".toList := by decide
  have line : Gap "\n ".toList := by decide
  have tab : Gap "\t".toList := by decide
  have name : Name "name".toList := by decide +kernel
  have age : Name "age".toList := by decide +kernel
  have selected : Selection .unknown .projection [⟨"name", false⟩, ⟨"age", false⟩] "name ,age".toList :=
    .properties (.more (.name name) (.sign gap.blanks blanks_nil) (.one (.name age))) (by decide)
  have aged : TestText q (.compare "age" .greaterOrEqual young) "age>=@1".toList :=
    .compare age blanks_nil blanks_nil (.position (by decide +kernel : Numeral "1".toList 1) rfl)
  have inTeam : TestText q (.hasAncestor team) "__key__ has\tANCESTOR @team".toList :=
    .hasAncestor (.cons gap (by decide : Spells "has" "has".toList) (.cons tab
      (by decide : Spells "ancestor" "ANCESTOR".toList) .nil)) gap
      (.named (by decide +kernel : Name "team".toList) ⟨'t', by decide, by decide⟩ rfl)
  have joined : Conjunction " And  ".toList := .word (.cons gap (by decide : Spells "and" "And".toList) .nil) wide
  have descending : OrderText ⟨"age", .descending⟩ "age  DESC".toList :=
    .descending age (.cons wide (by decide : Spells "desc" "DESC".toList) .nil)
  have comma : Comma ",".toList := .sign blanks_nil blanks_nil
  have layout := Layout.text (c := c) tab.blanks (by decide : Spells "select" "Select".toList) gap
    (.cons line (by decide : Spells "from" "from".toList) .nil) gap
    (.present (.cons gap (by decide : Spells "where" "WHERE".toList) .nil) gap)
    (.present (.cons gap (by decide : Spells "order" "order".toList) (.cons line (by decide : Spells "by" "by".toList)
      .nil)) gap)
    (.present (.cons gap (by decide : Spells "limit" "LIMIT".toList) .nil) gap)
    (.present (.cons gap (by decide : Spells "offset" "offset".toList) .nil) wide)
    (by decide : Blanks "\n".toList)
  replace layout : Layout c q.text.toList := Eq.subst (motive := Layout c) (by decide +kernel) layout
  refine ⟨layout, structured_of_layout layout (by decide +kernel) selected (Or.inl rfl)
    (.text (.more aged joined (.one inTeam))) (.text (.more descending comma (.one (.plain name))))
    (.some (by decide +kernel)) (.some (by decide +kernel)) (.several _ _ [])⟩

/-- A position in more than 4300 digits is not read, even one to which a value is bound. -/
theorem long_position_unread :
    let position := List.replicate 4300 '0' ++ ['1']
    let test := "a".toList ++ (" ".toList ++ Comparison.equal.symbol.toList ++ " ".toList ++ ['@']) ++ position
    let c : Clauses := ⟨⟨⟨⟨none, none⟩, none⟩, "K".toList, some test⟩, ['*']⟩
    let q : GqlQuery := ⟨.unknown, none, String.ofList ("SELECT * FROM K WHERE ".toList ++ test), false, [],
      [.ofScalar .null]⟩
    Layout c q.text.toList ∧ Name "K".toList ∧ Name "a".toList ∧ Decimal position 1 ∧
      q.positional[0]? = some (.ofScalar .null) ∧ Gql.structured q = .error (.failure .numeral) := by
  intro position test c q
  have gap : Gap " ".toList := by decide
  have kind : Name "K".toList := by decide +kernel
  have property : Name "a".toList := by decide +kernel
  have decimal : Decimal position 1 := Decimal.append_zeros (by decide +kernel : Decimal ['1'] 1) 4300
  have layout := Layout.text (c := c) blanks_nil (by decide : Spells "select" "SELECT".toList) gap
    (.cons gap (by decide : Spells "from" "FROM".toList) .nil) gap
    (.present (.cons gap (by decide : Spells "where" "WHERE".toList) .nil) gap) .absent .absent .absent blanks_nil
  have opening : "SELECT * FROM K WHERE ".toList = "SELECT".toList ++ (" ".toList ++ (c.selected ++ (" ".toList ++
      ("FROM".toList ++ (" ".toList ++ (c.kind ++ (" ".toList ++ ("WHERE".toList ++ " ".toList)))))))) := by decide
  replace layout : Layout c q.text.toList := by
    simpa only [q, opening, String.toList_ofList, List.append_nil, List.nil_append, List.append_assoc] using layout
  have lacks {keyword : String} (known : keyword ∈ keywords) : Lacks keyword test :=
    lacks_comparison known property gap.blanks gap.blanks decimal.name
  have solid : Solid test := property.solid.append _ decimal.name.solid
  have readable : Readable c := {
    selected := (Selection.all : Selection .unknown .full [] ['*']).readable
    kind := kind.toWord
    conditions := fun text given => by
      cases given
      have known : ["order", "limit", "offset"] ⊆ keywords := by decide
      exact ⟨solid, fun keyword member => lacks (known member)⟩
    orders := nofun
    limit := nofun
    offset := nofun }
  have unread : condition q test = .error (.failure .numeral) := by
    refine (condition_of_comparison property gap.blanks gap.blanks decimal.name).trans ?_
    have long : 4300 < position.length := by
      rw [List.length_append, List.length_replicate]
      exact Nat.lt_succ_self 4300
    rw [operand_of_long decimal long]
    rfl
  have alone : conditionTexts test = [test] := conditionTexts_of_lacks solid (lacks (by decide))
  refine ⟨layout, kind, property, decimal, rfl, ?_⟩
  rw [Gql.structured, ofText?_of_layout layout readable]
  simp only [c, q, selection_of_text .all, alone, List.mapM_cons, unread]
  rfl

end EntityStore.Gql
