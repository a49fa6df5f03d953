import EntityStore.Gql.Query
import EntityStore.Proofs.Layout

set_option autoImplicit false

namespace EntityStore.Gql

open Text

/-- A word that is no keyword. -/
structure Name (cs : List Char) : Prop extends Word cs where
  unreserved : ∀ keyword ∈ keywords, ¬ Spells keyword cs

/-- A number in decimal digits. -/
structure Decimal (cs : List Char) (n : Nat) : Prop where
  nonempty : cs ≠ []
  digits : ∀ c ∈ cs, c.isDigit = true
  value : Nat.ofDigitChars 10 cs 0 = n

/-- A number in decimal digits, not more than can be read. -/
structure Numeral (cs : List Char) (n : Nat) : Prop extends Decimal cs n where
  short : cs.length ≤ 4300

/-- A reference to a bound value: its name, which is more than digits, or its position, counted from 1. -/
inductive Reference (q : GqlQuery) : List Char → Value → Prop where
  | named {cs : List Char} {v : Value} (name : Name cs) (letter : ∃ c ∈ cs, isDigit c = false)
      (bound : q.named.at? (String.ofList cs) = some v) : Reference q cs v
  | position {cs : List Char} {n : Nat} {v : Value} (numeral : Numeral cs (n + 1))
      (bound : q.positional[n]? = some v) : Reference q cs v

/-- A condition: a comparison of a property with a bound value, or the test for an ancestor that is bound. -/
inductive TestText (q : GqlQuery) : Condition → List Char → Prop where
  | compare {property before after reference : List Char} {relation : Comparison} {v : Value} (name : Name property)
      (ahead : Blanks before) (behind : Blanks after) (bound : Reference q reference v) :
      TestText q (.compare (String.ofList property) relation v)
        (property ++ (before ++ relation.symbol.toList ++ after ++ ['@']) ++ reference)
  | hasAncestor {phrase gap reference : List Char} {k : Key} {marks : Marks}
      (opened : Keywords ["has", "ancestor"] phrase) (spaced : Gap gap)
      (bound : Reference q reference (.single ⟨.key k, marks⟩)) :
      TestText q (.hasAncestor k) (keyProperty.toList ++ phrase ++ (gap ++ ['@']) ++ reference)

/-- A property to order by, and the direction, which is ascending if it is left out. -/
inductive OrderText : Order → List Char → Prop where
  | plain {property : List Char} (name : Name property) : OrderText ⟨String.ofList property, .ascending⟩ property
  | ascending {property word : List Char} (name : Name property) (directed : Keywords ["asc"] word) :
      OrderText ⟨String.ofList property, .ascending⟩ (property ++ word)
  | descending {property word : List Char} (name : Name property) (directed : Keywords ["desc"] word) :
      OrderText ⟨String.ofList property, .descending⟩ (property ++ word)

/-- The name of a property. -/
inductive NameText : String → List Char → Prop where
  | name {cs : List Char} (name : Name cs) : NameText (String.ofList cs) cs

/-- One or more items with something between them. -/
inductive Separated {α : Type} (separator : List Char → Prop) (item : α → List Char → Prop) :
    List α → List Char → Prop where
  | one {a : α} {cs : List Char} (stated : item a cs) : Separated separator item [a] cs
  | more {a : α} {rest : List α} {cs between later : List Char} (stated : item a cs) (apart : separator between)
      (follow : Separated separator item rest later) :
      Separated separator item (a :: rest) (cs ++ between ++ later)

/-- The word AND between white space. -/
inductive Conjunction : List Char → Prop where
  | word {opening gap : List Char} (opened : Keywords ["and"] opening) (spaced : Gap gap) :
      Conjunction (opening ++ gap)

/-- A comma and any white space around it. -/
inductive Comma : List Char → Prop where
  | sign {before after : List Char} (ahead : Blanks before) (behind : Blanks after) : Comma (before ++ ',' :: after)

/-- What is selected: everything, the keys, or some properties. -/
inductive Selection (requested : ResultType) : ResultType → List Projection → List Char → Prop where
  | all : Selection requested .full [] ['*']
  | keys : Selection requested (if requested = .projection then .projection else .keyOnly) [⟨keyProperty, false⟩]
      keyProperty.toList
  | properties {names : List String} {text : List Char} (listed : Separated Comma NameText names text)
      (other : names ≠ [keyProperty]) : Selection requested .projection (names.map (⟨·, false⟩)) text

instance (cs : List Char) : Decidable (Name cs) :=
  decidable_of_iff (Word cs ∧ ∀ keyword ∈ keywords, ¬ Spells keyword cs)
    ⟨fun both => ⟨both.1, both.2⟩, fun name => ⟨name.toWord, name.unreserved⟩⟩

instance (cs : List Char) (n : Nat) : Decidable (Decimal cs n) :=
  decidable_of_iff (cs ≠ [] ∧ (∀ c ∈ cs, c.isDigit = true) ∧ Nat.ofDigitChars 10 cs 0 = n)
    ⟨fun all => ⟨all.1, all.2.1, all.2.2⟩, fun decimal => ⟨decimal.1, decimal.2, decimal.3⟩⟩

instance (cs : List Char) (n : Nat) : Decidable (Numeral cs n) :=
  decidable_of_iff (Decimal cs n ∧ cs.length ≤ 4300)
    ⟨fun both => ⟨both.1, both.2⟩, fun numeral => ⟨numeral.toDecimal, numeral.short⟩⟩

section Names

variable {cs : List Char} {keyword : String}

theorem Name.lacks (name : Name cs) (known : keyword ∈ keywords) : Lacks keyword cs :=
  lacks_of_word name.chars (name.unreserved keyword known)

theorem toNat_of_isDigit {c : Char} (digit : c.isDigit = true) : 48 ≤ c.toNat ∧ c.toNat ≤ 57 := by
  simp only [Char.isDigit, Bool.and_eq_true, decide_eq_true_eq] at digit
  exact ⟨UInt32.le_iff_toNat_le.mp digit.1, UInt32.le_iff_toNat_le.mp digit.2⟩

theorem digitValue?_of_isDigit {c : Char} (digit : c.isDigit = true) :
    digitValue? c = some (c.toNat - '0'.toNat) := by
  obtain ⟨low, high⟩ := toNat_of_isDigit digit
  rw [digitValue?, zeros, List.find?_cons_of_pos (by simp [low, high])]
  rfl

theorem foldCase_of_isDigit {c : Char} (digit : c.isDigit = true) : foldCase c = c := by
  have other (d : Char) (letter : d.isDigit = false) : c ≠ d := by
    rintro rfl
    simp [digit] at letter
  have small : ¬ (c.val ≥ 'A'.val ∧ c.val ≤ 'Z'.val) := by
    rintro ⟨low, -⟩
    have capital : 65 ≤ c.toNat := UInt32.le_iff_toNat_le.mp low
    have := toNat_of_isDigit digit
    omega
  rw [foldCase, if_neg (other _ (by decide)), if_neg (not_or.mpr ⟨other _ (by decide), other _ (by decide)⟩),
    if_neg (other _ (by decide))]
  exact dif_neg small

/-- A number is a word, and no keyword. -/
theorem Decimal.name {n : Nat} (decimal : Decimal cs n) : Name cs where
  nonempty := decimal.nonempty
  chars c member := isWord_of_plain (Or.inl (toNat_of_isDigit (decimal.digits c member)))
  unreserved keyword known spells := by
    have letters : ∀ word ∈ keywords, ∀ k ∈ word.toList, k.isDigit = false := by decide
    obtain ⟨c, member⟩ := List.exists_mem_of_ne_nil cs decimal.nonempty
    have digit := decimal.digits c member
    have letter := letters keyword known (foldCase c) (by
      rw [← show cs.map foldCase = keyword.toList from spells]
      exact List.mem_map_of_mem member)
    simp [foldCase_of_isDigit digit, digit] at letter

/-- Zeros in front of a number do not change it. -/
theorem Decimal.append_zeros {n : Nat} (decimal : Decimal cs n) (zeros : Nat) :
    Decimal (List.replicate zeros '0' ++ cs) n where
  nonempty := List.append_ne_nil_of_right_ne_nil _ decimal.nonempty
  digits c member := by
    rcases List.mem_append.mp member with zero | digit
    · rw [List.eq_of_mem_replicate zero]
      rfl
    · exact decimal.digits c digit
  value := by
    rw [Nat.ofDigitChars_append, Nat.ofDigitChars_replicate_zero, Nat.mul_zero]
    exact decimal.value

theorem Reference.name {q : GqlQuery} {v : Value} (bound : Reference q cs v) : Name cs := by
  cases bound with
  | named name => exact name
  | position numeral => exact numeral.name

theorem Spells.unique {other : String} (spells : Spells keyword cs) (also : Spells other cs) : keyword = other :=
  String.toList_inj.mp (Eq.trans (Eq.symm spells) also)

theorem isWord_at : isWord '@' = false := by decide +kernel

theorem isWord_of_mem_symbol (relation : Comparison) : ∀ c ∈ relation.symbol.toList, isWord c = false := by
  cases relation <;> decide +kernel

theorem Keywords.alone (opened : Keywords [keyword] cs) :
    ∃ gap spelled, Gap gap ∧ Spells keyword spelled ∧ cs = gap ++ spelled := by
  cases opened with
  | cons spaced spells none =>
      cases none
      exact ⟨_, _, spaced, spells, List.append_nil _⟩

/-- Keywords that are appended after white space do not contain another keyword. -/
theorem Keywords.lacks {phrase : List String} {first : List Char} (known : keyword ∈ keywords)
    (phrases : ∀ word ∈ phrase, word ∈ keywords ∧ word ≠ keyword) (opened : Keywords phrase cs)
    (lacks : Lacks keyword first) : Lacks keyword (first ++ cs) := by
  induction opened generalizing first with
  | nil => rwa [List.append_nil]
  | @cons word more gap spelled later spaced spells follow ih =>
      obtain ⟨⟨own, other⟩, rest⟩ := List.forall_mem_cons.mp phrases
      have here : Lacks keyword spelled :=
        lacks_of_word (spells.word own).chars fun also => other (Spells.unique spells also)
      have signs : ∀ c ∈ gap, isWord c = false := fun c member => isWord_of_isBlank (spaced.blanks c member)
      have joined := ih rest (lacks.append known spaced.nonempty signs here)
      simpa only [List.append_assoc] using joined

end Names

theorem name_keyProperty : Name keyProperty.toList where
  nonempty := by decide
  chars := by decide +kernel
  unreserved := by
    have apart : ∀ word ∈ keywords, keyProperty.toList.map foldCase ≠ word.toList := by decide
    exact apart

/-- Between two names stand signs that belong to neither. -/
theorem lacks_comparison {keyword : String} (known : keyword ∈ keywords) {property before after reference : List Char}
    {relation : Comparison} (name : Name property) (ahead : Blanks before) (behind : Blanks after)
    (named : Name reference) :
    Lacks keyword (property ++ (before ++ relation.symbol.toList ++ after ++ ['@']) ++ reference) := by
  refine (name.lacks known).append known (by simp) ?_ (named.lacks known)
  intro d inside
  simp only [List.mem_append, List.mem_singleton] at inside
  rcases inside with ((blank | sign) | blank) | rfl
  · exact isWord_of_isBlank (ahead d blank)
  · exact isWord_of_mem_symbol relation d sign
  · exact isWord_of_isBlank (behind d blank)
  · exact isWord_at

section Tests

variable {q : GqlQuery} {c : Condition} {cs : List Char}

theorem TestText.solid (stated : TestText q c cs) : Solid cs := by
  cases stated with
  | compare name _ _ bound => exact name.solid.append _ bound.name.solid
  | @hasAncestor phrase gap reference k marks _ _ bound =>
      have solid := name_keyProperty.solid.append (phrase ++ (gap ++ ['@'])) bound.name.solid
      rwa [← List.append_assoc] at solid

theorem TestText.lacks {keyword : String} (member : keyword ∈ ["and", "order", "limit", "offset"])
    (stated : TestText q c cs) : Lacks keyword cs := by
  have known : keyword ∈ keywords := (by decide : ["and", "order", "limit", "offset"] ⊆ keywords) member
  cases stated with
  | compare name ahead behind bound => exact lacks_comparison known name ahead behind bound.name
  | hasAncestor opened spaced bound =>
      have phrases : ∀ word ∈ ["has", "ancestor"], word ∈ keywords ∧
          ∀ other ∈ ["and", "order", "limit", "offset"], word ≠ other := by decide
      have apart (word : String) (inside : word ∈ ["has", "ancestor"]) : word ∈ keywords ∧ word ≠ keyword :=
        (phrases word inside).imp_right fun others => others keyword member
      have opening := opened.lacks known apart (name_keyProperty.lacks known)
      refine opening.append known (by simp) ?_ (bound.name.lacks known)
      intro d inside
      rcases List.mem_append.mp inside with blank | sign
      · exact isWord_of_isBlank (spaced.blanks d blank)
      · exact List.mem_singleton.mp sign ▸ isWord_at

end Tests

/-- No comma is part of a word or of white space. -/
theorem comma_notMem {cs : List Char} (plain : ∀ c ∈ cs, isWord c = true ∨ isBlank c = true) : ',' ∉ cs := by
  intro member
  have apart : isWord ',' = false ∧ isBlank ',' = false := by decide +kernel
  rcases plain ',' member with word | blank
  · simp [apart.1] at word
  · simp [apart.2] at blank

section Orders

variable {o : Order} {cs : List Char}

/-- An order is a name alone, or a name and a direction with white space between them. -/
theorem OrderText.parts (stated : OrderText o cs) :
    Name cs ∨ ∃ property gap spelled, ∃ keyword ∈ ["asc", "desc"],
      Name property ∧ Gap gap ∧ Spells keyword spelled ∧ cs = property ++ gap ++ spelled := by
  have directed {first word : List Char} {direction : String} (known : direction ∈ ["asc", "desc"])
      (name : Name first) (opened : Keywords [direction] word) : ∃ property gap spelled, ∃ keyword ∈ ["asc", "desc"],
        Name property ∧ Gap gap ∧ Spells keyword spelled ∧ first ++ word = property ++ gap ++ spelled := by
    obtain ⟨gap, spelled, spaced, spells, rfl⟩ := opened.alone
    exact ⟨first, gap, spelled, direction, known, name, spaced, spells, (List.append_assoc ..).symm⟩
  cases stated with
  | plain name => exact Or.inl name
  | ascending name opened => exact Or.inr (directed (by decide) name opened)
  | descending name opened => exact Or.inr (directed (by decide) name opened)

theorem OrderText.solid (stated : OrderText o cs) : Solid cs := by
  have known : ["asc", "desc"] ⊆ keywords := by decide
  rcases stated.parts with name | ⟨property, gap, spelled, keyword, direct, name, -, spells, rfl⟩
  · exact name.solid
  · exact name.solid.append gap (spells.word (known direct)).solid

theorem OrderText.lacks {other : String} (member : other ∈ ["limit", "offset"]) (stated : OrderText o cs) :
    Lacks other cs := by
  have known : other ∈ keywords := (by decide : ["limit", "offset"] ⊆ keywords) member
  have direction : ∀ keyword ∈ ["asc", "desc"], keyword ∈ keywords ∧ keyword ∉ ["limit", "offset"] := by decide
  rcases stated.parts with name | ⟨property, gap, spelled, keyword, direct, name, spaced, spells, rfl⟩
  · exact name.lacks known
  · obtain ⟨reserved, apart⟩ := direction keyword direct
    have word : Lacks other spelled := lacks_of_word (spells.word reserved).chars fun also =>
      apart (Spells.unique spells also ▸ member)
    exact (name.lacks known).append known spaced.nonempty (fun c inside => isWord_of_isBlank (spaced.blanks c inside))
      word

theorem OrderText.single (stated : OrderText o cs) : ',' ∉ cs := by
  have known : ["asc", "desc"] ⊆ keywords := by decide
  refine comma_notMem fun c member => ?_
  rcases stated.parts with name | ⟨property, gap, spelled, keyword, direct, name, spaced, spells, rfl⟩
  · exact Or.inl (name.chars c member)
  · simp only [List.mem_append] at member
    rcases member with (inside | blank) | inside
    · exact Or.inl (name.chars c inside)
    · exact Or.inr (spaced.blanks c blank)
    · exact Or.inl ((spells.word (known direct)).chars c inside)

end Orders

theorem NameText.plain {name : String} {cs : List Char} (stated : NameText name cs) : Solid cs ∧ ',' ∉ cs := by
  obtain ⟨name⟩ := stated
  exact ⟨name.solid, comma_notMem fun c member => Or.inl (name.chars c member)⟩

section Items

variable {α : Type} {separator : List Char → Prop} {item : α → List Char → Prop} {items : List α} {text : List Char}

theorem Separated.solid (listed : Separated separator item items text) (solid : ∀ a cs, item a cs → Solid cs) :
    Solid text := by
  induction listed with
  | one stated => exact solid _ _ stated
  | more stated apart follow ih => exact (solid _ _ stated).append _ ih

theorem Separated.lacks {keyword : String} (listed : Separated separator item items text)
    (lacks : ∀ a cs, item a cs → Lacks keyword cs)
    (between : ∀ cs first second, separator cs → Lacks keyword first → Lacks keyword second →
      Lacks keyword (first ++ cs ++ second)) : Lacks keyword text := by
  induction listed with
  | one stated => exact lacks _ _ stated
  | more stated apart follow ih => exact between _ _ _ apart (lacks _ _ stated) ih

theorem Comma.lacks {keyword : String} (known : keyword ∈ keywords) {cs first second : List Char} (apart : Comma cs)
    (left : Lacks keyword first) (right : Lacks keyword second) : Lacks keyword (first ++ cs ++ second) := by
  cases apart with
  | sign ahead behind =>
      refine left.append known (by simp) ?_ right
      intro d inside
      rcases List.mem_append.mp inside with blank | later
      · exact isWord_of_isBlank (ahead d blank)
      · rcases List.mem_cons.mp later with rfl | blank
        · decide +kernel
        · exact isWord_of_isBlank (behind d blank)

theorem Conjunction.nonempty {cs : List Char} (joined : Conjunction cs) : cs ≠ [] := by
  obtain ⟨-, spaced⟩ := joined
  exact List.append_ne_nil_of_right_ne_nil _ spaced.nonempty

theorem Conjunction.loose_append {cs : List Char} (joined : Conjunction cs) (tail : List Char) :
    Loose (cs ++ tail) := by
  obtain ⟨opened, -⟩ := joined
  rw [List.append_assoc]
  exact opened.loose_append _

theorem Conjunction.lacks {keyword : String} (known : keyword ∈ keywords) (other : "and" ≠ keyword)
    {cs first second : List Char} (apart : Conjunction cs) (left : Lacks keyword first)
    (right : Lacks keyword second) : Lacks keyword (first ++ cs ++ second) := by
  cases apart with
  | word opened spaced =>
      have opening := opened.lacks known (fun word inside => by
        rw [List.mem_singleton.mp inside]
        exact ⟨by decide, other⟩) left
      have joined := opening.append known spaced.nonempty (fun d member => isWord_of_isBlank (spaced.blanks d member))
        right
      rwa [← List.append_assoc]

end Items

end EntityStore.Gql
