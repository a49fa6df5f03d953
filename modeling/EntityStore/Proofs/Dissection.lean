import EntityStore.Proofs.Grammar
import Mathlib.Data.Option.Basic

set_option autoImplicit false

namespace EntityStore.Gql

open Text

section Reading

variable {α : Type} {read : List Char → Option α} {p : Char → Bool} {keyword : String} {cs first rest : List Char}

theorem eq_append_of_run? (ran : run? p cs = some (first, rest)) :
    cs = first ++ rest ∧ first ≠ [] ∧ ∀ c ∈ first, p c = true := by
  unfold run? at ran
  split at ran
  · cases ran
  · next some =>
      obtain ⟨rfl, rfl⟩ := Prod.mk.inj (Option.some.inj ran)
      refine ⟨List.takeWhile_append_dropWhile.symm, by simpa using some, fun c member => ?_⟩
      exact List.mem_takeWhile_imp member

theorem gap_of_afterBlanks? {a : α} (found : afterBlanks? read cs = some a) :
    ∃ gap rest, Gap gap ∧ cs = gap ++ rest ∧ read rest = some a := by
  induction cs with
  | nil => cases found
  | cons c more ih =>
      rw [afterBlanks?] at found
      split at found
      · next blank =>
          rcases (Option.orElse_eq_some _ _ _).mp found with later | ⟨-, here⟩
          · obtain ⟨gap, rest, spaced, rfl, reads⟩ := ih later
            have wider : Gap (c :: gap) := ⟨List.cons_ne_nil c gap, List.forall_mem_cons.mpr ⟨blank, spaced.blanks⟩⟩
            exact ⟨c :: gap, rest, wider, rfl, reads⟩
          · exact ⟨[c], more, ⟨List.cons_ne_nil c [], List.forall_mem_singleton.mpr blank⟩, rfl, here⟩
      · cases found

theorem eq_append_of_shortest? {a : α} (found : shortest? read cs = some (first, a)) :
    ∃ rest, cs = first ++ rest ∧ first ≠ [] ∧ read rest = some a := by
  induction cs generalizing first with
  | nil => cases found
  | cons c more ih =>
      rw [shortest?] at found
      split at found
      · next reads =>
          cases found
          exact ⟨more, rfl, List.cons_ne_nil c [], reads⟩
      · obtain ⟨⟨body, b⟩, later, same⟩ := Option.map_eq_some_iff.mp found
        cases same
        obtain ⟨rest, rfl, -, reads⟩ := ih later
        exact ⟨rest, rfl, List.cons_ne_nil c body, reads⟩

theorem keywords_of_skipKeyword? (known : keyword ∈ keywords) (skipped : skipKeyword? keyword cs = some rest) :
    ∃ opening, Keywords [keyword] opening ∧ cs = opening ++ rest := by
  obtain ⟨gap, spelled, spaced, spells, rfl⟩ := (skipKeyword?_eq_some_iff known).mp skipped
  exact ⟨_, .cons spaced spells .nil, by simp only [List.append_nil, List.append_assoc]⟩

theorem clause_of_numberClause? (known : keyword ∈ keywords) (found : numberClause? keyword cs = some (first, rest)) :
    ∃ clause, cs = clause ++ rest ∧ Clause [keyword] (some first) clause ∧ Digits first := by
  obtain ⟨after, skipped, found⟩ := Option.bind_eq_some_iff.mp found
  obtain ⟨number, spaced, ran⟩ := Option.bind_eq_some_iff.mp found
  obtain ⟨opening, opened, rfl⟩ := keywords_of_skipKeyword? known skipped
  obtain ⟨gap, apart, rfl⟩ := gap_of_skipBlanks? spaced
  obtain ⟨rfl, nonempty, digits⟩ := eq_append_of_run? ran
  exact ⟨opening ++ gap ++ first, by simp only [List.append_assoc], .present opened apart, nonempty, digits⟩

theorem blanks_of_ending? (ended : ending? cs = some ()) : Blanks cs := by
  unfold ending? at ended
  split at ended
  · next all => exact List.all_eq_true.mp all
  · cases ended

end Reading

section Layouts

variable {cs : List Char}

theorem layout_of_offset? {digits? : Option (List Char)} (found : Gql.offset? cs = some digits?) :
    ∃ offset trail, cs = offset ++ trail ∧ Clause ["offset"] digits? offset ∧ (∀ digits ∈ digits?, Digits digits) ∧
      Blanks trail := by
  rcases (Option.orElse_eq_some _ _ _).mp found with given | ⟨-, unskipped⟩
  · obtain ⟨⟨digits, rest⟩, number, given⟩ := Option.bind_eq_some_iff.mp given
    obtain ⟨⟨⟩, ended, same⟩ := Option.bind_eq_some_iff.mp given
    cases same
    obtain ⟨offset, rfl, clause, plain⟩ := clause_of_numberClause? (by decide) number
    refine ⟨offset, rest, rfl, clause, ?_, blanks_of_ending? ended⟩
    rintro _ ⟨⟩
    exact plain
  · obtain ⟨⟨⟩, ended, rfl⟩ := Option.map_eq_some_iff.mp unskipped
    exact ⟨[], cs, rfl, .absent, nofun, blanks_of_ending? ended⟩

/-- The clauses at the end of a text, as they are laid out. -/
structure WindowLayout (w : Window) (cs : List Char) : Prop where
  parts : ∃ limit offset trail, cs = limit ++ offset ++ trail ∧ Clause ["limit"] w.limit? limit ∧
    Clause ["offset"] w.offset? offset ∧ Blanks trail
  limit : ∀ digits ∈ w.limit?, Digits digits
  offset : ∀ digits ∈ w.offset?, Digits digits

theorem layout_of_window {w : Window} (found : Window.read? cs = some w) : WindowLayout w cs := by
  rcases (Option.orElse_eq_some _ _ _).mp found with given | ⟨-, unlimited⟩
  · obtain ⟨⟨digits, rest⟩, number, given⟩ := Option.bind_eq_some_iff.mp given
    obtain ⟨offset?, skipped, same⟩ := Option.bind_eq_some_iff.mp given
    cases same
    obtain ⟨limit, rfl, clause, plain⟩ := clause_of_numberClause? (by decide) number
    obtain ⟨offset, trail, rfl, also, digits, blanks⟩ := layout_of_offset? skipped
    refine ⟨⟨limit, offset, trail, (List.append_assoc ..).symm, clause, also, blanks⟩, ?_, digits⟩
    rintro _ ⟨⟩
    exact plain
  · obtain ⟨offset?, skipped, rfl⟩ := Option.map_eq_some_iff.mp unlimited
    obtain ⟨offset, trail, rfl, also, digits, blanks⟩ := layout_of_offset? skipped
    exact ⟨⟨[], offset, trail, rfl, .absent, also, blanks⟩, nofun, digits⟩

/-- The orders and the clauses behind them, as they are laid out. -/
structure ArrangementLayout (a : Arrangement) (cs : List Char) : Prop where
  parts : ∃ orders rest, cs = orders ++ rest ∧ Clause ["order", "by"] a.orders? orders ∧ WindowLayout a.toWindow rest
  nonempty : ∀ orders ∈ a.orders?, orders ≠ []

theorem layout_of_arrangement {a : Arrangement} (found : Arrangement.read? cs = some a) : ArrangementLayout a cs := by
  rcases (Option.orElse_eq_some _ _ _).mp found with given | ⟨-, unordered⟩
  · obtain ⟨after, ordered, given⟩ := Option.bind_eq_some_iff.mp given
    obtain ⟨rest, directed, given⟩ := Option.bind_eq_some_iff.mp given
    obtain ⟨⟨orders, window⟩, between, same⟩ := Option.bind_eq_some_iff.mp given
    cases same
    obtain ⟨gap, spelled, spaced, spells, rfl⟩ := (skipKeyword?_eq_some_iff (by decide)).mp ordered
    obtain ⟨opening, opened, rfl⟩ := keywords_of_skipKeyword? (by decide) directed
    obtain ⟨space, body, apart, rfl, reads⟩ := gap_of_afterBlanks? between
    obtain ⟨tail, rfl, nonempty, windowed⟩ := eq_append_of_shortest? reads
    refine ⟨⟨gap ++ spelled ++ opening ++ space ++ orders, tail, by simp only [List.append_assoc],
      .present (.cons spaced spells opened) apart, layout_of_window windowed⟩, ?_⟩
    rintro _ ⟨⟩
    exact nonempty
  · obtain ⟨window, windowed, rfl⟩ := Option.map_eq_some_iff.mp unordered
    exact ⟨⟨[], cs, rfl, .absent, layout_of_window windowed⟩, nofun⟩

/-- What follows the selection, as it is laid out. -/
structure SourceLayout (s : Source) (cs : List Char) : Prop where
  parts : ∃ source space wheres rest, cs = source ++ space ++ s.kind ++ wheres ++ rest ∧ Keywords ["from"] source ∧
    Gap space ∧ Clause ["where"] s.conditions? wheres ∧ ArrangementLayout s.toArrangement rest
  kind : Word s.kind

theorem layout_of_source {s : Source} (found : Source.read? cs = some s) : SourceLayout s cs := by
  obtain ⟨after, sourced, further⟩ := Option.bind_eq_some_iff.mp found
  obtain ⟨more, spaced, further⟩ := Option.bind_eq_some_iff.mp further
  obtain ⟨⟨kind, rest⟩, ran, tested⟩ := Option.bind_eq_some_iff.mp further
  obtain ⟨source, opened, rfl⟩ := keywords_of_skipKeyword? (by decide) sourced
  obtain ⟨space, apart, rfl⟩ := gap_of_skipBlanks? spaced
  obtain ⟨rfl, nonempty, word⟩ := eq_append_of_run? ran
  rcases (Option.orElse_eq_some _ _ _).mp tested with given | ⟨-, unconditioned⟩
  · obtain ⟨after, conditioned, given⟩ := Option.bind_eq_some_iff.mp given
    obtain ⟨⟨conditions, arrangement⟩, between, same⟩ := Option.bind_eq_some_iff.mp given
    cases same
    obtain ⟨opening, opens, rfl⟩ := keywords_of_skipKeyword? (by decide) conditioned
    obtain ⟨gap, body, separate, rfl, reads⟩ := gap_of_afterBlanks? between
    obtain ⟨tail, rfl, -, arranged⟩ := eq_append_of_shortest? reads
    exact ⟨⟨source, space, opening ++ gap ++ conditions, tail, by simp only [List.append_assoc], opened, apart,
      .present opens separate, layout_of_arrangement arranged⟩, nonempty, word⟩
  · obtain ⟨arrangement, arranged, rfl⟩ := Option.map_eq_some_iff.mp unconditioned
    exact ⟨⟨source, space, [], rest, by simp only [List.append_assoc, List.nil_append], opened, apart, .absent,
      layout_of_arrangement arranged⟩, nonempty, word⟩

/-- The clauses of a text are read where they are laid out. -/
theorem layout_of_ofText? {c : Clauses} (found : Clauses.ofText? cs = some c) :
    Layout c cs ∧ Word c.kind ∧ (∀ digits ∈ c.limit?, Digits digits) ∧ ∀ digits ∈ c.offset?, Digits digits := by
  obtain ⟨rest, selects, found⟩ := Option.bind_eq_some_iff.mp found
  obtain ⟨⟨selected, source⟩, between, same⟩ := Option.bind_eq_some_iff.mp found
  cases same
  obtain ⟨select, split, spells⟩ := keyword?_eq_some_iff.mp selects
  obtain ⟨gap, body, spaced, rfl, reads⟩ := gap_of_afterBlanks? between
  obtain ⟨tail, rfl, -, sourced⟩ := eq_append_of_shortest? reads
  obtain ⟨⟨from?, space, wheres, more, rfl, opened, apart, conditioned, arranged⟩, kind⟩ := layout_of_source sourced
  obtain ⟨⟨orders, last, rfl, ordered, windowed⟩, -⟩ := arranged
  obtain ⟨⟨limit, offset, trail, rfl, limited, skipped, blanks⟩, limits, offsets⟩ := windowed
  have lead : cs.takeWhile isBlank ++ trimStart cs = cs := List.takeWhile_append_dropWhile
  have laid : Layout ⟨source, selected⟩ (cs.takeWhile isBlank ++ trimStart cs) := by
    rw [split]
    have ahead : Blanks (cs.takeWhile isBlank) := fun c member => List.mem_takeWhile_imp member
    have text := Layout.text (c := ⟨source, selected⟩) ahead spells spaced opened apart conditioned ordered limited
      skipped blanks
    simpa only [List.append_assoc] using text
  exact ⟨lead ▸ laid, kind, limits, offsets⟩

end Layouts

section Lists

variable {α β : Type} {separator : List Char → Prop} {item : α → List Char → Prop} {a : α} {cs text : List Char}

theorem flush_trimStart (cs : List Char) : Flush (trimStart cs) := by
  intro c first
  have stop := List.head?_dropWhile_not isBlank cs
  rw [show (cs.dropWhile isBlank).head? = some c from first] at stop
  simpa using stop

theorem trim_between (cs : List Char) :
    ∃ before after, Blanks before ∧ Blanks after ∧ cs = before ++ trim cs ++ after := by
  refine ⟨cs.takeWhile isBlank, ((trimStart cs).reverse.takeWhile isBlank).reverse, fun c member => ?_,
    fun c member => ?_, ?_⟩
  · exact List.mem_takeWhile_imp member
  · exact List.mem_takeWhile_imp (List.mem_reverse.mp member)
  · rw [trim, trimEnd, List.append_assoc, ← List.reverse_append, List.takeWhile_append_dropWhile, List.reverse_reverse,
      trimStart, List.takeWhile_append_dropWhile]

theorem infix_trim (cs : List Char) : trim cs <:+: cs := by
  obtain ⟨before, after, -, -, split⟩ := trim_between cs
  exact ⟨before, after, split.symm⟩

theorem eq_nil_of_flush {after : List Char} (behind : Blanks after) (stop : Flush (cs ++ after).reverse) :
    after = [] := by
  rw [List.reverse_append] at stop
  by_contra more
  obtain ⟨last, init, backwards⟩ := List.exists_cons_of_ne_nil (List.reverse_ne_nil_iff.mpr more)
  rw [backwards, List.cons_append, flush_cons] at stop
  simp [behind last (List.mem_reverse.mp (by simp [backwards]))] at stop

theorem flush_reverse_trim (cs : List Char) : Flush (trim cs).reverse := by
  rw [trim, trimEnd, List.reverse_reverse]
  exact flush_trimStart _

theorem flush_trim (cs : List Char) : Flush (trim cs) := by
  have split : trimStart cs = trim cs ++ ((trimStart cs).reverse.takeWhile isBlank).reverse := by
    rw [trim, trimEnd, ← List.reverse_append, List.takeWhile_append_dropWhile, List.reverse_reverse]
  have flush := flush_trimStart cs
  rw [split] at flush
  exact fun c first => flush c (List.mem_head?_append_of_mem_head? first)

theorem mem_of_mem_trim {c : Char} (member : c ∈ trim cs) : c ∈ cs := by
  obtain ⟨before, after, -, -, split⟩ := trim_between cs
  rw [split]
  exact List.mem_append_left _ (List.mem_append_right _ member)

theorem Padded.alone (stated : item a cs) : Padded item a cs := by
  simpa only [List.nil_append, List.append_nil] using Padded.text blanks_nil stated blanks_nil

theorem Padded.of_trim (padded : Padded item a (trim cs)) : Padded item a cs := by
  obtain ⟨before, after, ahead, behind, split⟩ := trim_between cs
  generalize trim cs = trimmed at padded split
  obtain @⟨lead, body, trail, leads, given, trails⟩ := padded
  have outer : Padded item a ((before ++ lead) ++ body ++ (trail ++ after)) :=
    .text (List.forall_mem_append.mpr ⟨ahead, leads⟩) given (List.forall_mem_append.mpr ⟨trails, behind⟩)
  rw [split]
  simpa only [List.append_assoc] using outer

/-- One more character at the start belongs to the first piece. -/
theorem Separated.cons {first : List Char} {more : List (List Char)}
    (split : Separated separator Eq (first :: more) text) (c : Char) :
    Separated separator Eq ((c :: first) :: more) (c :: text) := by
  cases split with
  | one same =>
      subst same
      exact .one rfl
  | @more _ _ _ between later same apart follow =>
      subst same
      show Separated separator Eq _ ((c :: first) ++ between ++ later)
      exact .more rfl apart follow

/-- The pieces between the commas make up the text. -/
theorem separated_splitCommas (cs : List Char) : Separated Comma Eq (splitCommas cs) cs := by
  induction cs with
  | nil => exact .one rfl
  | cons c rest ih =>
      rw [splitCommas]
      generalize splitCommas rest = pieces at ih
      cases pieces with
      | nil => cases ih
      | cons first more =>
          simp only
          split
          · next comma =>
              subst comma
              show Separated Comma Eq _ ([] ++ ([] ++ [',']) ++ rest)
              exact .more rfl (.sign blanks_nil blanks_nil) ih
          · exact ih.cons c

theorem comma_notMem_splitCommas : ∀ piece ∈ splitCommas cs, ',' ∉ piece := by
  induction cs with
  | nil => simp [splitCommas]
  | cons c rest ih =>
      rw [splitCommas]
      cases parts : splitCommas rest with
      | nil =>
          have split := separated_splitCommas rest
          rw [parts] at split
          cases split
      | cons first more =>
          rw [parts] at ih
          obtain ⟨here, later⟩ := List.forall_mem_cons.mp ih
          simp only
          split
          · exact List.forall_mem_cons.mpr ⟨List.not_mem_nil, ih⟩
          · next other =>
              exact List.forall_mem_cons.mpr ⟨List.not_mem_cons_of_ne_of_not_mem (Ne.symm other) here, later⟩

theorem conjunction_of_skipAnd? {rest : List Char} (skipped : skipAnd? cs = some rest) :
    ∃ between, Conjunction between ∧ cs = between ++ rest := by
  obtain ⟨after, word, spaced⟩ := Option.bind_eq_some_iff.mp skipped
  obtain ⟨opening, opened, rfl⟩ := keywords_of_skipKeyword? (by decide) word
  obtain ⟨gap, apart, rfl⟩ := gap_of_skipBlanks? spaced
  exact ⟨opening ++ gap, .word opened apart, (List.append_assoc ..).symm⟩

/-- The pieces between the words AND make up the text. -/
theorem separated_splitAnd (rounds : Nat) (cs : List Char) : Separated Conjunction Eq (splitAnd rounds cs) cs := by
  induction rounds generalizing cs with
  | zero => exact .one rfl
  | succ rounds ih =>
      cases cs with
      | nil => exact .one rfl
      | cons c rest =>
          rw [splitAnd]
          split
          · next after skipped =>
              obtain ⟨between, joined, split⟩ := conjunction_of_skipAnd? skipped
              rw [split]
              show Separated Conjunction Eq _ ([] ++ between ++ after)
              exact .more rfl joined (ih after)
          · have later := ih rest
            generalize splitAnd rounds rest = pieces at later
            cases pieces with
            | nil => cases later
            | cons first more => exact later.cons c

theorem Comma.padded {before after : List Char} (ahead : Blanks before) (sign : Comma cs) (behind : Blanks after) :
    Comma (before ++ cs ++ after) := by
  obtain @⟨space, gap, left, right⟩ := sign
  have wider : Comma ((before ++ space) ++ ',' :: (gap ++ after)) :=
    .sign (List.forall_mem_append.mpr ⟨ahead, left⟩) (List.forall_mem_append.mpr ⟨right, behind⟩)
  simpa only [List.append_assoc, List.cons_append] using wider

theorem Conjunction.padded {before after : List Char} (ahead : Blanks before) (joined : Conjunction cs)
    (behind : Blanks after) : Conjunction (before ++ cs ++ after) := by
  obtain @⟨opening, gap, opened, spaced⟩ := joined
  obtain ⟨space, spelled, apart, spells, rfl⟩ := opened.alone
  have left : Gap (before ++ space) :=
    ⟨List.append_ne_nil_of_right_ne_nil _ apart.nonempty, List.forall_mem_append.mpr ⟨ahead, apart.blanks⟩⟩
  have right : Gap (gap ++ after) :=
    ⟨List.append_ne_nil_of_left_ne_nil spaced.nonempty _, List.forall_mem_append.mpr ⟨spaced.blanks, behind⟩⟩
  have wider := Conjunction.word (.cons left spells .nil) right
  simpa only [List.append_assoc, List.append_nil] using wider

/-- If each piece of a text is read, the text is a list of what is read. -/
theorem Separated.read {pieces : List (List Char)} {items : List α} (split : Separated separator Eq pieces text)
    (absorbs : ∀ before cs after, Blanks before → separator cs → Blanks after → separator (before ++ cs ++ after))
    (read : List.Forall₂ (fun cs a => Padded item a cs) (pieces.map trim) items) :
    Padded (Separated separator item) items text := by
  refine Separated.padded absorbs ?_
  replace read := List.forall₂_map_left_iff.mp read
  induction split generalizing items with
  | one same =>
      obtain ⟨a, rest, here, none, rfl⟩ := List.forall₂_cons_left_iff.mp read
      rw [List.forall₂_nil_left_iff.mp none]
      exact .one (same ▸ here.of_trim)
  | more same apart follow ih =>
      obtain ⟨a, rest, here, later, rfl⟩ := List.forall₂_cons_left_iff.mp read
      exact .more (same ▸ here.of_trim) apart (ih later)

theorem forall₂_of_mapM {ε : Type} {read : α → Except ε β} {texts : List α} {items : List β}
    (all : texts.mapM read = .ok items) : List.Forall₂ (fun text item => read text = .ok item) texts items := by
  induction texts generalizing items with
  | nil =>
      cases all
      exact .nil
  | cons text more ih =>
      rw [List.mapM_cons] at all
      obtain ⟨item, here, all⟩ := bind_eq_ok_iff.mp all
      obtain ⟨rest, later, same⟩ := bind_eq_ok_iff.mp all
      cases same
      exact .cons here (ih later)

end Lists

end EntityStore.Gql
