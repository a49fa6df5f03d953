import EntityStore.Proofs.Words
import Mathlib.Data.List.TakeWhile

/-!
The layout of a query text, and that its clauses are read as they are laid out.  The reader looks for the shortest
selection, the shortest conditions and the shortest orders after which the rest can be read.  That finds the right
ends, because no earlier place is followed by white space, the next keyword and white space.
-/

set_option autoImplicit false

namespace EntityStore.Gql

open Text

theorem skipBlanks?_gap {gap cs : List Char} (spaced : Gap gap) (flush : Flush cs) :
    skipBlanks? (gap ++ cs) = some cs := by
  cases gap with
  | nil => exact absurd rfl spaced.nonempty
  | cons c rest =>
      have later : Blanks rest := fun d member => spaced.blanks d (List.mem_cons_of_mem c member)
      rw [List.cons_append, skipBlanks?, if_pos (spaced.blanks c List.mem_cons_self), trimStart_append later flush]

theorem skipBlanks?_of_flush {cs : List Char} (flush : Flush cs) : skipBlanks? cs = none := by
  cases cs with
  | nil => rfl
  | cons c rest =>
      rw [skipBlanks?, flush_cons.mp flush]
      rfl

theorem gap_of_skipBlanks? {cs rest : List Char} (skipped : skipBlanks? cs = some rest) :
    ∃ gap, Gap gap ∧ cs = gap ++ rest := by
  cases cs with
  | nil => cases skipped
  | cons c more =>
      rw [skipBlanks?] at skipped
      split at skipped
      · next blank =>
          cases skipped
          refine ⟨c :: more.takeWhile isBlank, ⟨List.cons_ne_nil _ _, ?_⟩, ?_⟩
          · intro d member
            rcases List.mem_cons.mp member with rfl | later
            · exact blank
            · exact List.mem_takeWhile_imp later
          · rw [List.cons_append, trimStart, List.takeWhile_append_dropWhile]
      · cases skipped

/-- A keyword is read after white space, if it is there. -/
theorem skipKeyword?_eq_some_iff {keyword : String} (known : keyword ∈ keywords) {cs rest : List Char} :
    skipKeyword? keyword cs = some rest ↔
      ∃ gap spelled, Gap gap ∧ Spells keyword spelled ∧ cs = gap ++ (spelled ++ rest) := by
  unfold skipKeyword?
  rw [Option.bind_eq_some_iff]
  constructor
  · rintro ⟨text, skipped, read⟩
    obtain ⟨gap, spaced, rfl⟩ := gap_of_skipBlanks? skipped
    obtain ⟨spelled, rfl, spells⟩ := keyword?_eq_some_iff.mp read
    exact ⟨gap, spelled, spaced, spells, rfl⟩
  · rintro ⟨gap, spelled, spaced, spells, rfl⟩
    have word := (spells.word known).solid
    exact ⟨spelled ++ rest, skipBlanks?_gap spaced (word.start.append word.nonempty rest),
      keyword?_eq_some_iff.mpr ⟨spelled, rfl, spells⟩⟩

theorem skipKeyword?_of_blanks {keyword : String} (known : keyword ∈ keywords) {cs : List Char}
    (blanks : Blanks cs) : skipKeyword? keyword cs = none := by
  refine Option.eq_none_iff_forall_ne_some.mpr fun rest read => ?_
  obtain ⟨gap, spelled, -, spells, rfl⟩ := (skipKeyword?_eq_some_iff known).mp read
  obtain ⟨nonempty, chars⟩ := spells.word known
  obtain ⟨c, member⟩ := List.exists_mem_of_ne_nil spelled nonempty
  have blank := blanks c (by simp [member])
  simp [isBlank_of_isWord (chars c member)] at blank

/-- Another keyword is not read in place of one that starts otherwise. -/
theorem skipKeyword?_of_other {keyword other : String} (known : other ∈ keywords)
    (apart : ¬ keyword.toList <+: other.toList ∧ ¬ other.toList <+: keyword.toList) {gap spelled : List Char}
    (spaced : Gap gap) (spells : Spells other spelled) (rest : List Char) :
    skipKeyword? keyword (gap ++ (spelled ++ rest)) = none := by
  have word := (spells.word known).solid
  rw [skipKeyword?, skipBlanks?_gap spaced (word.start.append word.nonempty rest), Option.bind_some]
  refine Option.eq_none_iff_forall_ne_some.mpr fun after read => ?_
  obtain ⟨wrong, split, mapped⟩ := keyword?_eq_some_iff.mp read
  have ahead : keyword.toList <+: (spelled ++ rest).map foldCase := by
    rw [split, List.map_append, mapped]
    exact List.prefix_append _ _
  have also : other.toList <+: (spelled ++ rest).map foldCase := by
    rw [List.map_append, show spelled.map foldCase = other.toList from spells]
    exact List.prefix_append _ _
  exact (List.prefix_or_prefix_of_prefix ahead also).elim apart.1 apart.2

/-- A keyword followed by white space is not read inside a text in which it is no word of its own.  What follows
the text does not go on with a word. -/
theorem unread_of_lacks {keyword : String} (known : keyword ∈ keywords) {before cs tail : List Char}
    (lacks : Lacks keyword (before ++ cs)) (nonempty : cs ≠ []) (stop : Flush cs.reverse) (bare : Bare tail) :
    (skipKeyword? keyword (cs ++ tail)).bind skipBlanks? = none := by
  refine Option.eq_none_iff_forall_ne_some.mpr fun rest read => ?_
  obtain ⟨text, skipped, further⟩ := Option.bind_eq_some_iff.mp read
  obtain ⟨gap, spelled, spaced, spells, split⟩ := (skipKeyword?_eq_some_iff known).mp skipped
  obtain ⟨blanks, between, rfl⟩ := gap_of_skipBlanks? further
  have chars := (spells.word known).chars
  have standsAlone (after : List Char) (apart : Bare after) : cs ≠ gap ++ spelled ++ after := by
    rintro rfl
    have member : spelled ∈ words (before ++ gap ++ spelled ++ after) := mem_words spaced chars apart
    rw [List.append_assoc, List.append_assoc, ← List.append_assoc gap] at member
    exact lacks spelled member spells
  rw [← List.append_assoc] at split
  rcases List.append_eq_append_iff.mp split with ⟨more, ends, starts⟩ | ⟨after, ends, starts⟩
  · cases more with
    | nil => exact standsAlone [] bare_nil (by rw [List.append_nil, ends, List.append_nil])
    | cons c more =>
        -- The keyword would go on behind the text.
        rcases List.append_eq_append_iff.mp ends with ⟨part, -, letters⟩ | ⟨part, spaces, -⟩
        · have letter := chars c (by simp [letters])
          have sign := bare c (by simp [starts])
          simp [letter] at sign
        · obtain ⟨last, init, backwards⟩ := List.exists_cons_of_ne_nil (List.reverse_ne_nil_iff.mpr nonempty)
          have inside : last ∈ cs := List.mem_reverse.mp (by simp [backwards])
          have blank := spaced.blanks last (by simp [spaces, inside])
          rw [backwards, flush_cons, blank] at stop
          cases stop
  · refine standsAlone after ?_ ends
    cases after with
    | nil => exact bare_nil
    | cons c after =>
        cases blanks with
        | nil => exact absurd rfl between.nonempty
        | cons d blanks =>
            obtain ⟨rfl, -⟩ := List.cons.inj starts
            exact bare_cons.mpr (isWord_of_isBlank (between.blanks d List.mem_cons_self))

section Search

variable {α : Type} {read : List Char → Option α}

theorem afterBlanks?_gap {gap cs : List Char} {a : α} (spaced : Gap gap) (flush : Flush cs)
    (reads : read cs = some a) : afterBlanks? read (gap ++ cs) = some a := by
  obtain ⟨nonempty, blanks⟩ := spaced
  induction gap with
  | nil => exact absurd rfl nonempty
  | cons c rest ih =>
      have blank := blanks c List.mem_cons_self
      rw [List.cons_append, afterBlanks?, if_pos blank]
      cases rest with
      | nil =>
          have none : afterBlanks? read cs = none := by
            cases cs with
            | nil => rfl
            | cons d more =>
                rw [afterBlanks?, flush_cons.mp flush]
                rfl
          rw [List.nil_append, none, reads]
          rfl
      | cons d more =>
          rw [ih (List.cons_ne_nil d more) fun x member => blanks x (List.mem_cons_of_mem c member)]
          rfl

/-- Nothing can be read from any place inside a text on. -/
def Passes (read : List Char → Option α) (body tail : List Char) : Prop :=
  ∀ before cs, body = before ++ cs → cs ≠ [] → read (cs ++ tail) = none

theorem shortest?_of_passes {body tail : List Char} {a : α} (nonempty : body ≠ []) (passed : Passes read body tail)
    (reads : read tail = some a) : shortest? read (body ++ tail) = some (body, a) := by
  induction body with
  | nil => exact absurd rfl nonempty
  | cons c rest ih =>
      rw [List.cons_append, shortest?]
      cases rest with
      | nil => rw [List.nil_append, reads]
      | cons d more =>
          have later : Passes read (d :: more) tail := fun before cs split =>
            passed (c :: before) cs (by rw [split, List.cons_append])
          rw [passed [c] (d :: more) rfl (List.cons_ne_nil d more), ih (List.cons_ne_nil d more) later]
          rfl

/-- What is read between white space and the rest of a text. -/
theorem between_of_passes {gap body tail : List Char} {a : α} (spaced : Gap gap) (solid : Solid body)
    (passed : Passes read body tail) (reads : read tail = some a) :
    afterBlanks? (shortest? read) (gap ++ (body ++ tail)) = some (body, a) :=
  afterBlanks?_gap spaced (solid.start.append solid.nonempty tail)
    (shortest?_of_passes solid.nonempty passed reads)

end Search

theorem run?_append {p : Char → Bool} {cs rest : List Char} (nonempty : cs ≠ []) (all : ∀ c ∈ cs, p c = true)
    (stop : ∀ c ∈ rest.head?, p c = false) : run? p (cs ++ rest) = some (cs, rest) := by
  have start : (cs ++ rest).takeWhile p = cs := by
    rw [List.takeWhile_append_of_pos all]
    cases rest with
    | nil => simp
    | cons c more => simp [stop c rfl]
  have stops : (cs ++ rest).dropWhile p = rest := by
    rw [List.dropWhile_append_of_pos all]
    cases rest with
    | nil => rfl
    | cons c more => simp [stop c rfl]
  rw [run?, start, stops, if_neg (by simpa using nonempty)]

/-- Some keywords, each after white space. -/
inductive Keywords : List String → List Char → Prop where
  | nil : Keywords [] []
  | cons {keyword : String} {more : List String} {gap spelled later : List Char} (spaced : Gap gap)
      (spells : Spells keyword spelled) (follow : Keywords more later) :
      Keywords (keyword :: more) (gap ++ spelled ++ later)

/-- A clause that may be missing: keywords, white space and a text. -/
inductive Clause (phrase : List String) : Option (List Char) → List Char → Prop where
  | absent : Clause phrase none []
  | present {opening gap body : List Char} (opened : Keywords phrase opening) (spaced : Gap gap) :
      Clause phrase (some body) (opening ++ gap ++ body)

/-- The layout of a text: a selection from a kind, and the clauses that may follow.  White space stands between
words, and any amount of it at either end. -/
inductive Layout (c : Clauses) : List Char → Prop where
  | text {lead select gap source space wheres orders limit offset trail : List Char} (ahead : Blanks lead)
      (selects : Spells "select" select) (spaced : Gap gap) (sourced : Keywords ["from"] source) (apart : Gap space)
      (conditioned : Clause ["where"] c.conditions? wheres) (ordered : Clause ["order", "by"] c.orders? orders)
      (limited : Clause ["limit"] c.limit? limit) (skipped : Clause ["offset"] c.offset? offset)
      (behind : Blanks trail) :
      Layout c (lead ++ select ++ gap ++ c.selected ++ source ++ space ++ c.kind ++ wheres ++ orders ++ limit ++
        offset ++ trail)

section Reading

variable {keyword other : String} {phrase : List String} {body? : Option (List Char)} {cs tail : List Char}

theorem Keywords.skip (known : keyword ∈ keywords) (opened : Keywords (keyword :: phrase) cs) :
    ∃ later, Keywords phrase later ∧ ∀ tail, skipKeyword? keyword (cs ++ tail) = some (later ++ tail) := by
  cases opened with
  | cons spaced spells follow =>
      refine ⟨_, follow, fun tail => (skipKeyword?_eq_some_iff known).mpr ⟨_, _, spaced, spells, ?_⟩⟩
      simp only [List.append_assoc]

theorem Keywords.skip_alone (known : keyword ∈ keywords) (opened : Keywords [keyword] cs) (tail : List Char) :
    skipKeyword? keyword (cs ++ tail) = some tail := by
  obtain ⟨later, none, skip⟩ := opened.skip known
  cases none
  exact skip tail

theorem Keywords.loose_append (opened : Keywords (keyword :: phrase) cs) (tail : List Char) : Loose (cs ++ tail) := by
  cases opened with
  | cons spaced spells follow =>
      simp only [List.append_assoc]
      exact spaced.loose_append _

theorem Clause.loose_append (clause : Clause (keyword :: phrase) body? cs) (loose : Loose tail) :
    Loose (cs ++ tail) := by
  cases clause with
  | absent => exact loose
  | present opened spaced =>
      simp only [List.append_assoc]
      exact opened.loose_append _

/-- Where a clause can be missing, no other keyword is read in place of its first one. -/
theorem Clause.skipKeyword?_other (clause : Clause (other :: phrase) body? cs) (known : other ∈ keywords)
    (apart : ¬ keyword.toList <+: other.toList ∧ ¬ other.toList <+: keyword.toList)
    (later : skipKeyword? keyword tail = none) : skipKeyword? keyword (cs ++ tail) = none := by
  cases clause with
  | absent => exact later
  | present opened spaced =>
      cases opened with
      | cons opens spells follow =>
          simp only [List.append_assoc]
          exact skipKeyword?_of_other known apart opens spells _

/-- One or more decimal digits. -/
structure Digits (cs : List Char) : Prop where
  nonempty : cs ≠ []
  chars : ∀ c ∈ cs, isDecimal c = true

theorem Digits.flush {digits : List Char} (number : Digits digits) : Flush digits := by
  intro c first
  have decimal := number.chars c (List.mem_of_mem_head? first)
  cases blank : isBlank c with
  | false => rfl
  | true => simp [isDecimal_of_isBlank blank] at decimal

theorem ending?_of_blanks (blanks : Blanks cs) : ending? cs = some () := if_pos (List.all_eq_true.mpr blanks)

theorem ending?_of_stop (nonempty : cs ≠ []) (stop : Flush cs.reverse) : ending? (cs ++ tail) = none := by
  obtain ⟨last, init, backwards⟩ := List.exists_cons_of_ne_nil (List.reverse_ne_nil_iff.mpr nonempty)
  have inside : last ∈ cs := List.mem_reverse.mp (by simp [backwards])
  rw [backwards, flush_cons] at stop
  refine if_neg fun all => ?_
  have blank := List.all_eq_true.mp all last (List.mem_append_left _ inside)
  simp [stop] at blank

theorem Clause.number (known : keyword ∈ keywords) {digits : List Char}
    (clause : Clause [keyword] (some digits) cs) (number : Digits digits) (loose : Loose tail) :
    numberClause? keyword (cs ++ tail) = some (digits, tail) := by
  cases clause with
  | present opened spaced =>
      have stop : ∀ c ∈ tail.head?, isDecimal c = false := fun c first => isDecimal_of_isBlank (loose c first)
      rw [List.append_assoc, List.append_assoc, numberClause?, opened.skip_alone known]
      simp only [Option.bind_eq_bind, Option.bind_some]
      rw [skipBlanks?_gap spaced (number.flush.append number.nonempty tail), Option.bind_some]
      exact run?_append number.nonempty number.chars stop

theorem numberClause?_of_unread (unread : (skipKeyword? keyword cs).bind skipBlanks? = none) :
    numberClause? keyword cs = none := by
  show ((skipKeyword? keyword cs).bind fun after => (skipBlanks? after).bind (run? isDecimal)) = none
  rw [← Option.bind_assoc, unread, Option.bind_none]

theorem numberClause?_of_none (none : skipKeyword? keyword cs = none) : numberClause? keyword cs = .none :=
  numberClause?_of_unread (by rw [none, Option.bind_none])

variable {digits? limit? offset? : Option (List Char)}

theorem offset?_of_clause (clause : Clause ["offset"] offset? cs) (number : ∀ digits ∈ offset?, Digits digits)
    (behind : Blanks tail) : Gql.offset? (cs ++ tail) = some offset? := by
  have known : "offset" ∈ keywords := by decide
  cases clause with
  | absent =>
      have none := numberClause?_of_none (skipKeyword?_of_blanks known behind)
      simp only [Gql.offset?, List.nil_append, none, ending?_of_blanks behind]
      rfl
  | present opened spaced =>
      have found := (Clause.present opened spaced).number known (number _ rfl) behind.loose
      simp only [Gql.offset?, found, Option.bind_eq_bind, Option.bind_some, ending?_of_blanks behind]
      rfl

theorem window_of_clause (clause : Clause ["limit"] limit? cs) (number : ∀ digits ∈ limit?, Digits digits)
    (loose : Loose tail) (none : skipKeyword? "limit" tail = none) (later : Gql.offset? tail = some offset?) :
    Window.read? (cs ++ tail) = some ⟨limit?, offset?⟩ := by
  cases clause with
  | absent =>
      simp only [Window.read?, List.nil_append, numberClause?_of_none none, later]
      rfl
  | present opened spaced =>
      have found := (Clause.present opened spaced).number (by decide) (number _ rfl) loose
      simp only [Window.read?, found, Option.bind_eq_bind, Option.bind_some, later]
      rfl

theorem arrangement_of_clause {orders? : Option (List Char)} {window : Window}
    (clause : Clause ["order", "by"] orders? cs)
    (body : ∀ orders ∈ orders?, Solid orders ∧ Passes Window.read? orders tail)
    (none : skipKeyword? "order" tail = none) (later : Window.read? tail = some window) :
    Arrangement.read? (cs ++ tail) = some ⟨window, orders?⟩ := by
  cases clause with
  | absent =>
      simp only [Arrangement.read?, List.nil_append, none, later]
      rfl
  | @present _ gap orders opened spaced =>
      obtain ⟨solid, passed⟩ := body orders rfl
      obtain ⟨second, opened, first⟩ := opened.skip (by decide)
      rw [List.append_assoc, List.append_assoc]
      simp only [Arrangement.read?, first, Option.bind_eq_bind, Option.bind_some, opened.skip_alone (by decide),
        between_of_passes spaced solid passed later]
      rfl

theorem source_of_clause {conditions? : Option (List Char)} {arrangement : Arrangement}
    {source space kind : List Char} (sourced : Keywords ["from"] source) (apart : Gap space) (word : Word kind)
    (clause : Clause ["where"] conditions? cs)
    (body : ∀ conditions ∈ conditions?, Solid conditions ∧ Passes Arrangement.read? conditions tail)
    (loose : Loose tail) (none : skipKeyword? "where" tail = none)
    (later : Arrangement.read? tail = some arrangement) :
    Source.read? (source ++ (space ++ (kind ++ (cs ++ tail)))) = some ⟨arrangement, kind, conditions?⟩ := by
  have bare : Bare (cs ++ tail) := (clause.loose_append loose).bare
  have flush : Flush (kind ++ (cs ++ tail)) := word.solid.start.append word.nonempty _
  simp only [Source.read?, sourced.skip_alone (by decide), skipBlanks?_gap apart flush, Option.bind_eq_bind,
    Option.bind_some, run?_append word.nonempty word.chars bare]
  cases clause with
  | absent =>
      simp only [List.nil_append, none, later]
      rfl
  | @present _ gap conditions opened spaced =>
      obtain ⟨solid, passed⟩ := body conditions rfl
      rw [List.append_assoc, List.append_assoc]
      simp only [opened.skip_alone (by decide), Option.bind_some, between_of_passes spaced solid passed later]
      rfl

end Reading

section Passing

variable {body tail : List Char}

theorem Passes.of_unread {α : Type} {read : List Char → Option α} (words : List String)
    (known : ∀ keyword ∈ words, keyword ∈ keywords) (solid : Solid body)
    (lacks : ∀ keyword ∈ words, Lacks keyword body) (bare : Bare tail)
    (fails : ∀ cs, ending? cs = none → (∀ keyword ∈ words, (skipKeyword? keyword cs).bind skipBlanks? = none) →
      read cs = none) : Passes read body tail := by
  intro before cs split nonempty
  have stop : Flush cs.reverse := by
    obtain ⟨last, init, backwards⟩ := List.exists_cons_of_ne_nil (List.reverse_ne_nil_iff.mpr nonempty)
    have whole := solid.stop
    rw [split, List.reverse_append, backwards, List.cons_append, flush_cons] at whole
    rwa [backwards, flush_cons]
  refine fails _ (ending?_of_stop nonempty stop) fun keyword member => ?_
  exact unread_of_lacks (known keyword member) (split ▸ lacks keyword member) nonempty stop bare

theorem Window.fails {cs : List Char} (ending : ending? cs = none)
    (unread : ∀ keyword ∈ ["limit", "offset"], (skipKeyword? keyword cs).bind skipBlanks? = none) :
    Window.read? cs = none := by
  simp only [List.forall_mem_cons, List.not_mem_nil, false_implies, implies_true, and_true] at unread
  simp only [Window.read?, Gql.offset?, numberClause?_of_unread unread.1, numberClause?_of_unread unread.2, ending]
  rfl

theorem Arrangement.fails {cs : List Char} (ending : ending? cs = none)
    (unread : ∀ keyword ∈ ["order", "limit", "offset"], (skipKeyword? keyword cs).bind skipBlanks? = none) :
    Arrangement.read? cs = none := by
  obtain ⟨order, window⟩ := List.forall_mem_cons.mp unread
  have unordered : (skipKeyword? "order" cs).bind (skipKeyword? "by") = none := by
    show (skipKeyword? "order" cs).bind (fun after => (skipBlanks? after).bind (keyword? "by".toList)) = none
    rw [← Option.bind_assoc, order, Option.bind_none]
  simp only [Arrangement.read?, Window.fails ending window, Option.bind_eq_bind]
  rw [← Option.bind_assoc, unordered]
  rfl

theorem Source.fails {cs : List Char}
    (unread : ∀ keyword ∈ ["from"], (skipKeyword? keyword cs).bind skipBlanks? = none) : Source.read? cs = none := by
  have sourceless := unread "from" List.mem_cons_self
  unfold Source.read?
  simp only [Option.bind_eq_bind]
  rw [← Option.bind_assoc, sourceless]
  rfl

end Passing

/-- Clauses that can be told apart: no text has white space at an end, and the keywords of the clauses that may
follow it are no words in it. -/
structure Readable (c : Clauses) : Prop where
  selected : Solid c.selected ∧ ∀ keyword ∈ ["from"], Lacks keyword c.selected
  kind : Word c.kind
  conditions : ∀ conditions ∈ c.conditions?,
    Solid conditions ∧ ∀ keyword ∈ ["order", "limit", "offset"], Lacks keyword conditions
  orders : ∀ orders ∈ c.orders?, Solid orders ∧ ∀ keyword ∈ ["limit", "offset"], Lacks keyword orders
  limit : ∀ digits ∈ c.limit?, Digits digits
  offset : ∀ digits ∈ c.offset?, Digits digits

/-- The clauses of a text are read as they are laid out. -/
theorem ofText?_of_layout {c : Clauses} {text : List Char} (layout : Layout c text) (readable : Readable c) :
    Clauses.ofText? text = some c := by
  obtain @⟨lead, select, gap, source, space, wheres, orders, limit, offset, trail, ahead, selects, spaced, sourced,
    apart, conditioned, ordered, limited, skipped, behind⟩ := layout
  have looseOffset : Loose (offset ++ trail) := skipped.loose_append behind.loose
  have looseWindow : Loose (limit ++ (offset ++ trail)) := limited.loose_append looseOffset
  have looseOrders : Loose (orders ++ (limit ++ (offset ++ trail))) := ordered.loose_append looseWindow
  have beforeOffset {keyword : String} (known : keyword ∈ keywords)
      (other : ¬ keyword.toList <+: "offset".toList ∧ ¬ "offset".toList <+: keyword.toList) :
      skipKeyword? keyword (offset ++ trail) = none :=
    skipped.skipKeyword?_other (by decide) other (skipKeyword?_of_blanks known behind)
  have unordered : skipKeyword? "order" (limit ++ (offset ++ trail)) = none :=
    limited.skipKeyword?_other (by decide) (by decide) (beforeOffset (by decide) (by decide))
  have unconditioned : skipKeyword? "where" (orders ++ (limit ++ (offset ++ trail))) = none :=
    ordered.skipKeyword?_other (by decide) (by decide)
      (limited.skipKeyword?_other (by decide) (by decide) (beforeOffset (by decide) (by decide)))
  have window := window_of_clause limited readable.limit looseOffset (beforeOffset (by decide) (by decide))
    (offset?_of_clause skipped readable.offset behind)
  have arrangement := arrangement_of_clause ordered (fun text given => by
    obtain ⟨solid, lacks⟩ := readable.orders text given
    exact ⟨solid, Passes.of_unread _ (by decide) solid lacks looseWindow.bare fun _ => Window.fails⟩) unordered window
  have sources := source_of_clause sourced apart readable.kind conditioned (fun text given => by
    obtain ⟨solid, lacks⟩ := readable.conditions text given
    exact ⟨solid, Passes.of_unread _ (by decide) solid lacks looseOrders.bare fun _ => Arrangement.fails⟩) looseOrders
    unconditioned arrangement
  obtain ⟨solid, lacks⟩ := readable.selected
  have passed : Passes Source.read? c.selected
      (source ++ (space ++ (c.kind ++ (wheres ++ (orders ++ (limit ++ (offset ++ trail))))))) :=
    Passes.of_unread _ (by decide) solid lacks (sourced.loose_append _).bare fun _ _ => Source.fails
  have word := (selects.word (by decide)).solid
  simp only [List.append_assoc]
  rw [Clauses.ofText?, trimStart_append ahead (word.start.append word.nonempty _),
    keyword?_eq_some_iff.mpr ⟨select, rfl, selects⟩]
  simp only [Option.bind_eq_bind, Option.bind_some, between_of_passes spaced solid passed sources]
  rfl

end EntityStore.Gql
