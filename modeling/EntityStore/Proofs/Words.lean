import EntityStore.Gql.Clauses

/-!
Words in a query text.  White space, words and signs are made of different characters, and keywords are words.  So a
keyword is read only where it stands as a word of its own, between white space.
-/

set_option autoImplicit false

namespace EntityStore.Text

/-- What holds for all characters of a text is decided along the text, not along the alphabet. -/
instance decidableForallChars (p : Char → Prop) [DecidablePred p] (cs : List Char) : Decidable (∀ c ∈ cs, p c) :=
  List.decidableBAll p cs

theorem exists_range_of_covers {ranges : List (Nat × Nat)} {n : Nat} (covered : covers ranges n = true) :
    ∃ range ∈ ranges, range.1 ≤ n ∧ n ≤ range.2 := by
  induction ranges with
  | nil => cases covered
  | cons range rest ih =>
      obtain ⟨low, high⟩ := range
      unfold covers at covered
      split at covered
      · cases covered
      · next above =>
          split at covered
          · next below => exact ⟨(low, high), List.mem_cons_self, Nat.le_of_not_lt above, below⟩
          · obtain ⟨range, member, within⟩ := ih covered
            exact ⟨range, List.mem_cons_of_mem _ member, within⟩

/-- All code points of white space. -/
def blankPoints : List Nat := blankRanges.flatMap fun range => List.range' range.1 (range.2 + 1 - range.1)

theorem mem_blankPoints {c : Char} (blank : isBlank c = true) : c.toNat ∈ blankPoints := by
  obtain ⟨range, member, low, high⟩ := exists_range_of_covers blank
  refine List.mem_flatMap.mpr ⟨range, member, ?_⟩
  rw [List.mem_range'_1]
  omega

/-- White space is no part of words. -/
theorem isWord_of_isBlank {c : Char} (blank : isBlank c = true) : isWord c = false := by
  have apart : ∀ n ∈ blankPoints, covers wordRanges n = false := by decide +kernel
  exact apart _ (mem_blankPoints blank)

theorem isBlank_of_isWord {c : Char} (word : isWord c = true) : isBlank c = false := by
  cases blank : isBlank c with
  | false => rfl
  | true => exact absurd word (by simp [isWord_of_isBlank blank])

/-- White space is no digit. -/
theorem isDecimal_of_isBlank {c : Char} (blank : isBlank c = true) : isDecimal c = false := by
  have apart : ∀ n ∈ blankPoints, (zeros.find? fun first => first ≤ n && n ≤ first + 9) = none := by decide +kernel
  rw [isDecimal, digitValue?, apart _ (mem_blankPoints blank)]
  rfl

/-- Capital and small letters, digits and the underscore, as code points. -/
def IsPlain (n : Nat) : Prop := 48 ≤ n ∧ n ≤ 57 ∨ 65 ≤ n ∧ n ≤ 90 ∨ n = 95 ∨ 97 ≤ n ∧ n ≤ 122

instance (n : Nat) : Decidable (IsPlain n) := inferInstanceAs (Decidable (_ ∨ _))

theorem isWord_of_plain {c : Char} (plain : IsPlain c.toNat) : isWord c = true := by
  have covered : ∀ n < 123, IsPlain n → covers wordRanges n = true := by decide +kernel
  refine covered _ ?_ plain
  unfold IsPlain at plain
  omega

/-- Every spelling of a letter in a keyword is a part of words. -/
theorem isWord_of_foldCase {c k : Char} (folded : foldCase c = k) (plain : IsPlain k.toNat) : isWord c = true := by
  unfold foldCase at folded
  split at folded
  · next same => exact same ▸ by decide +kernel
  · split at folded
    · next same =>
        rcases same with rfl | rfl
        · decide +kernel
        · decide +kernel
    · split at folded
      · next same => exact same ▸ by decide +kernel
      · refine isWord_of_plain ?_
        unfold Char.toLower at folded
        split at folded
        · next capital =>
            obtain ⟨low, high⟩ := capital
            exact Or.inr (Or.inl ⟨UInt32.le_iff_toNat_le.mp low, UInt32.le_iff_toNat_le.mp high⟩)
        · exact folded ▸ plain

/-- The text is a word in any letter case. -/
def Spells (word : String) (cs : List Char) : Prop := cs.map foldCase = word.toList

instance (word : String) (cs : List Char) : Decidable (Spells word cs) :=
  inferInstanceAs (Decidable (cs.map foldCase = word.toList))

theorem keyword?_eq_some_iff {word cs rest : List Char} :
    keyword? word cs = some rest ↔ ∃ spelled, cs = spelled ++ rest ∧ spelled.map foldCase = word := by
  induction word generalizing cs with
  | nil => simp [keyword?, eq_comm]
  | cons k ks ih =>
      cases cs with
      | nil => simp [keyword?]
      | cons c cs =>
          rw [keyword?]
          split
          · next folded =>
              rw [ih]
              constructor
              · rintro ⟨spelled, rfl, rfl⟩
                exact ⟨c :: spelled, rfl, by rw [List.map_cons, folded]⟩
              · rintro ⟨spelled, split, mapped⟩
                cases spelled with
                | nil => cases mapped
                | cons d spelled =>
                    rw [List.cons_append, List.cons.injEq] at split
                    rw [List.map_cons, List.cons.injEq] at mapped
                    exact ⟨spelled, split.2, mapped.2⟩
          · next unfolded =>
              refine iff_of_false nofun ?_
              rintro ⟨spelled, split, mapped⟩
              cases spelled with
              | nil => cases mapped
              | cons d spelled =>
                  rw [List.cons_append, List.cons.injEq] at split
                  rw [List.map_cons, List.cons.injEq] at mapped
                  exact unfolded (split.1 ▸ mapped.1)

theorem isKeyword_iff {word : String} {cs : List Char} : isKeyword word cs = true ↔ Spells word cs := by
  rw [isKeyword, beq_iff_eq, keyword?_eq_some_iff]
  simp [Spells]

/-- White space, any number of characters. -/
def Blanks (cs : List Char) : Prop := ∀ c ∈ cs, isBlank c = true

/-- White space, one or more characters. -/
structure Gap (cs : List Char) : Prop where
  nonempty : cs ≠ []
  blanks : Blanks cs

/-- One or more word characters. -/
structure Word (cs : List Char) : Prop where
  nonempty : cs ≠ []
  chars : ∀ c ∈ cs, isWord c = true

/-- A text that does not start with white space. -/
def Flush (cs : List Char) : Prop := ∀ c ∈ cs.head?, isBlank c = false

/-- A text that does not start with a word. -/
def Bare (cs : List Char) : Prop := ∀ c ∈ cs.head?, isWord c = false

/-- A text that is empty or starts with white space. -/
def Loose (cs : List Char) : Prop := ∀ c ∈ cs.head?, isBlank c = true

/-- A text with something in it and without white space at either end. -/
structure Solid (cs : List Char) : Prop where
  nonempty : cs ≠ []
  start : Flush cs
  stop : Flush cs.reverse

instance (cs : List Char) : Decidable (Blanks cs) := inferInstanceAs (Decidable (∀ c ∈ cs, isBlank c = true))

instance (cs : List Char) : Decidable (Gap cs) :=
  decidable_of_iff (cs ≠ [] ∧ Blanks cs) ⟨fun both => ⟨both.1, both.2⟩, fun gap => ⟨gap.1, gap.2⟩⟩

instance (cs : List Char) : Decidable (Word cs) :=
  decidable_of_iff (cs ≠ [] ∧ ∀ c ∈ cs, isWord c = true) ⟨fun both => ⟨both.1, both.2⟩, fun word => ⟨word.1, word.2⟩⟩

theorem flush_cons {c : Char} {rest : List Char} : Flush (c :: rest) ↔ isBlank c = false := by simp [Flush]

theorem bare_cons {c : Char} {rest : List Char} : Bare (c :: rest) ↔ isWord c = false := by simp [Bare]

theorem bare_nil : Bare [] := by simp [Bare]

theorem blanks_nil : Blanks [] := List.forall_mem_nil _

theorem Loose.bare {cs : List Char} (loose : Loose cs) : Bare cs := fun c first =>
  isWord_of_isBlank (loose c first)

theorem Blanks.loose {cs : List Char} (blanks : Blanks cs) : Loose cs := fun c first =>
  blanks c (List.mem_of_mem_head? first)

theorem Gap.loose_append {gap : List Char} (spaced : Gap gap) (cs : List Char) : Loose (gap ++ cs) := by
  cases gap with
  | nil => exact absurd rfl spaced.nonempty
  | cons c rest =>
      intro d first
      obtain rfl : c = d := by simpa using first
      exact spaced.blanks c List.mem_cons_self

theorem Blanks.bare_append {before rest : List Char} {sign : Char} (blanks : Blanks before)
    (apart : isWord sign = false) : Bare (before ++ sign :: rest) := by
  cases before with
  | nil => exact bare_cons.mpr apart
  | cons b more => exact bare_cons.mpr (isWord_of_isBlank (blanks b List.mem_cons_self))

theorem Flush.append {cs : List Char} (flush : Flush cs) (nonempty : cs ≠ []) (rest : List Char) :
    Flush (cs ++ rest) := by
  cases cs with
  | nil => exact absurd rfl nonempty
  | cons c _ => exact flush_cons.mpr (flush_cons.mp flush)

theorem Word.solid {cs : List Char} (word : Word cs) : Solid cs where
  nonempty := word.nonempty
  start c first := isBlank_of_isWord (word.chars c (List.mem_of_mem_head? first))
  stop c last := isBlank_of_isWord (word.chars c (List.mem_reverse.mp (List.mem_of_mem_head? last)))

theorem Solid.append {first second : List Char} (left : Solid first) (middle : List Char) (right : Solid second) :
    Solid (first ++ middle ++ second) where
  nonempty := by simp [left.nonempty]
  start := by
    rw [List.append_assoc]
    exact left.start.append left.nonempty _
  stop := by
    rw [List.reverse_append]
    exact right.stop.append (by simp [right.nonempty]) _

theorem trimStart_of_flush {cs : List Char} (flush : Flush cs) : trimStart cs = cs := by
  cases cs with
  | nil => rfl
  | cons c rest => exact List.dropWhile_cons_of_neg (by simp [flush_cons.mp flush])

theorem trimStart_append {blanks cs : List Char} (spaces : Blanks blanks) (flush : Flush cs) :
    trimStart (blanks ++ cs) = cs := by
  rw [trimStart, List.dropWhile_append_of_pos spaces]
  exact trimStart_of_flush flush

/-- White space around a text is trimmed, and nothing else. -/
theorem trim_padded {before cs after : List Char} (left : Blanks before) (solid : Solid cs) (right : Blanks after) :
    trim (before ++ cs ++ after) = cs := by
  have backwards : Blanks after.reverse := fun c member => right c (List.mem_reverse.mp member)
  have front : trimStart (before ++ cs ++ after) = cs ++ after := by
    rw [List.append_assoc]
    exact trimStart_append left (solid.start.append solid.nonempty after)
  rw [trim, front, trimEnd, List.reverse_append, List.dropWhile_append_of_pos backwards]
  rw [show cs.reverse.dropWhile isBlank = cs.reverse from trimStart_of_flush solid.stop, List.reverse_reverse]

theorem trim_of_solid {cs : List Char} (solid : Solid cs) : trim cs = cs := by
  have padded : trim ([] ++ cs ++ []) = cs := trim_padded blanks_nil solid blanks_nil
  rwa [List.nil_append, List.append_nil] at padded

/-- The words of a text, and nothing where two other characters are next to each other. -/
def words (cs : List Char) : List (List Char) := cs.splitOnP (!isWord ·)

theorem words_of_word {cs : List Char} (chars : ∀ c ∈ cs, isWord c = true) : words cs = [cs] :=
  List.splitOnP_eq_singleton fun c member => by simp [chars c member]

theorem words_append_cons {c : Char} (sign : isWord c = false) (first second : List Char) :
    words (first ++ c :: second) = words first ++ words second :=
  List.splitOnP_append_cons first second (by simp [sign])

theorem mem_words {before gap word after : List Char} (spaced : Gap gap) (chars : ∀ c ∈ word, isWord c = true)
    (bare : Bare after) : word ∈ words (before ++ gap ++ word ++ after) := by
  have last : word ∈ words (word ++ after) := by
    cases after with
    | nil => simp [words_of_word chars]
    | cons c rest => simp [words_append_cons (bare_cons.mp bare), words_of_word chars]
  obtain ⟨init, c, rfl⟩ : ∃ init c, gap = init ++ [c] :=
    ⟨gap.dropLast, gap.getLast spaced.nonempty, (List.dropLast_concat_getLast spaced.nonempty).symm⟩
  have blank : isBlank c = true := spaced.blanks c (by simp)
  have split : before ++ (init ++ [c]) ++ word ++ after = (before ++ init) ++ c :: (word ++ after) := by simp
  rw [split, words_append_cons (isWord_of_isBlank blank)]
  exact List.mem_append_right _ last

/-- The words of the query language, which are no names. -/
def keywords : List String :=
  ["select", "from", "where", "and", "has", "ancestor", "order", "by", "asc", "desc", "limit", "offset"]

theorem plain_of_keyword {keyword : String} (known : keyword ∈ keywords) :
    keyword.toList ≠ [] ∧ ∀ k ∈ keyword.toList, IsPlain k.toNat := by
  have all : ∀ word ∈ keywords, word.toList ≠ [] ∧ ∀ k ∈ word.toList, IsPlain k.toNat := by decide
  exact all keyword known

theorem Spells.chars {word : String} {cs : List Char} (spells : Spells word cs)
    (plain : ∀ k ∈ word.toList, IsPlain k.toNat) : ∀ c ∈ cs, isWord c = true := by
  intro c member
  refine isWord_of_foldCase rfl (plain _ ?_)
  rw [← show cs.map foldCase = word.toList from spells]
  exact List.mem_map_of_mem member

theorem Spells.word {keyword : String} {cs : List Char} (known : keyword ∈ keywords) (spells : Spells keyword cs) :
    Word cs := by
  obtain ⟨nonempty, plain⟩ := plain_of_keyword known
  refine ⟨?_, spells.chars plain⟩
  rintro rfl
  exact nonempty spells.symm

/-- A text in which a keyword does not stand as a word. -/
def Lacks (keyword : String) (cs : List Char) : Prop := ∀ word ∈ words cs, ¬ Spells keyword word

theorem lacks_of_word {keyword : String} {cs : List Char} (chars : ∀ c ∈ cs, isWord c = true)
    (other : ¬ Spells keyword cs) : Lacks keyword cs := by
  intro word member
  rw [words_of_word chars, List.mem_singleton] at member
  exact member ▸ other

/-- Words with other characters between them. -/
theorem Lacks.append {keyword : String} (known : keyword ∈ keywords) {first signs second : List Char}
    (left : Lacks keyword first) (nonempty : signs ≠ []) (apart : ∀ c ∈ signs, isWord c = false)
    (right : Lacks keyword second) : Lacks keyword (first ++ signs ++ second) := by
  induction signs generalizing first with
  | nil => exact absurd rfl nonempty
  | cons c rest ih =>
      have sign := apart c List.mem_cons_self
      have alone : Lacks keyword (first ++ [c]) := by
        intro word member
        rw [words_append_cons sign, List.mem_append] at member
        rcases member with earlier | none
        · exact left word earlier
        · rw [words_of_word (List.forall_mem_nil _), List.mem_singleton] at none
          intro spells
          exact (spells.word known).nonempty none
      cases rest with
      | nil =>
          intro word member
          rw [List.append_assoc, List.singleton_append, words_append_cons sign, List.mem_append] at member
          exact member.elim (left word) (right word)
      | cons d more =>
          have later := ih alone (List.cons_ne_nil d more) fun x member => apart x (List.mem_cons_of_mem c member)
          rwa [List.append_assoc first, List.singleton_append] at later

end EntityStore.Text
