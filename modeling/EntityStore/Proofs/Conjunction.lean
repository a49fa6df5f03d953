import EntityStore.Proofs.Comparison
import EntityStore.Proofs.Cursors
import Mathlib

set_option autoImplicit false

namespace EntityStore

namespace Filter

/-- The part of a filter at a place.  A place says which part to go into, then which part of this one, and so on. -/
def at? (f : Filter) : List Nat → Option Filter
  | [] => some f
  | i :: place =>
    match f with
    | .condition _ => none
    | .all parts => parts[i]?.bind fun part => part.at? place

theorem at?_all (parts : List Filter) (i : Nat) (place : List Nat) :
    (all parts).at? (i :: place) = parts[i]?.bind fun part => part.at? place := rfl

/-- Whether a condition is a leaf of a filter. -/
def Tests (f : Filter) (c : Condition) : Prop := ∃ place, f.at? place = some (.condition c)

/-- Whether two filters have the same leaves, each of them wherever and how often it may occur. -/
def SameTests (f g : Filter) : Prop := ∀ c, f.Tests c ↔ g.Tests c

/-- Whether some conditions are the leaves of a filter from left to right, where each leaf counts once. -/
def ListsLeaves (f : Filter) (conditions : List Condition) : Prop :=
  ∃ places : List (List Nat), places.Pairwise (· < ·) ∧
    (∀ place, place ∈ places ↔ ∃ c, f.at? place = some (.condition c)) ∧
    List.Forall₂ (fun place c => f.at? place = some (.condition c)) places conditions

theorem listsLeaves_condition (c : Condition) : (condition c).ListsLeaves [c] := by
  refine ⟨[[]], List.pairwise_singleton _ _, ?_, .cons rfl .nil⟩
  intro place
  rw [List.mem_singleton]
  constructor
  · rintro rfl
    exact ⟨c, rfl⟩
  · rintro ⟨d, leaf⟩
    cases place with
    | nil => rfl
    | cons i rest => cases leaf

/-- The leaves of a conjunction that lie in its last parts. -/
def ListsLastLeaves (before parts : List Filter) (conditions : List Condition) : Prop :=
  ∃ places : List (List Nat), places.Pairwise (· < ·) ∧
    (∀ place, place ∈ places ↔ (∃ c, (all (before ++ parts)).at? place = some (.condition c)) ∧
      ∃ i rest, place = i :: rest ∧ before.length ≤ i) ∧
    List.Forall₂ (fun place c => (all (before ++ parts)).at? place = some (.condition c)) places conditions

theorem listsLastLeaves_nil (before : List Filter) : ListsLastLeaves before [] [] := by
  refine ⟨[], .nil, ?_, .nil⟩
  intro place
  constructor
  · exact nofun
  · rintro ⟨⟨c, leaf⟩, i, rest, rfl, behind⟩
    rw [List.append_nil, at?_all, List.getElem?_eq_none behind] at leaf
    cases leaf

theorem listsLastLeaves_cons {before parts : List Filter} {f : Filter} {conditions more : List Condition}
    (here : f.ListsLeaves conditions) (later : ListsLastLeaves (before ++ [f]) parts more) :
    ListsLastLeaves before (f :: parts) (conditions ++ more) := by
  obtain ⟨places, ascending, leaves, each⟩ := here
  obtain ⟨others, othersAscending, otherLeaves, otherEach⟩ := later
  rw [List.append_assoc, List.singleton_append] at otherLeaves otherEach
  have enter (place : List Nat) :
      (all (before ++ f :: parts)).at? (before.length :: place) = f.at? place := by
    rw [at?_all, List.getElem?_append_right (Nat.le_refl _), Nat.sub_self]
    rfl
  refine ⟨places.map (before.length :: ·) ++ others, ?_, ?_, ?_⟩
  · refine List.pairwise_append.mpr ⟨?_, othersAscending, ?_⟩
    · exact List.pairwise_map.mpr (ascending.imp fun less => List.cons_lt_cons_iff.mpr (Or.inr ⟨rfl, less⟩))
    · intro place inFirst other inOthers
      obtain ⟨rest, -, rfl⟩ := List.mem_map.mp inFirst
      obtain ⟨-, i, otherRest, rfl, behind⟩ := (otherLeaves other).mp inOthers
      rw [List.length_append, List.length_singleton] at behind
      exact List.cons_lt_cons_iff.mpr (Or.inl behind)
  · intro place
    rw [List.mem_append, List.mem_map, otherLeaves]
    constructor
    · rintro (⟨rest, member, rfl⟩ | ⟨leaf, i, rest, rfl, behind⟩)
      · obtain ⟨c, leaf⟩ := (leaves rest).mp member
        exact ⟨⟨c, (enter rest).trans leaf⟩, before.length, rest, rfl, Nat.le_refl _⟩
      · rw [List.length_append] at behind
        exact ⟨leaf, i, rest, rfl, Nat.le_of_add_right_le behind⟩
    · rintro ⟨⟨c, leaf⟩, i, rest, rfl, behind⟩
      rcases Nat.eq_or_lt_of_le behind with rfl | beyond
      · exact Or.inl ⟨rest, (leaves rest).mpr ⟨c, (enter rest).symm.trans leaf⟩, rfl⟩
      · refine Or.inr ⟨⟨c, leaf⟩, i, rest, rfl, ?_⟩
        rw [List.length_append, List.length_singleton]
        exact beyond
  · refine List.rel_append ?_ otherEach
    exact List.forall₂_map_left_iff.mpr (each.imp fun place c leaf => (enter place).trans leaf)

theorem listsLeaves_all {parts : List Filter} {conditions : List Condition}
    (last : ListsLastLeaves [] parts conditions) : (all parts).ListsLeaves conditions := by
  obtain ⟨places, ascending, leaves, each⟩ := last
  refine ⟨places, ascending, ?_, each⟩
  intro place
  rw [leaves]
  constructor
  · exact And.left
  · rintro ⟨c, leaf⟩
    cases place with
    | nil => cases leaf
    | cons i rest => exact ⟨⟨c, leaf⟩, i, rest, rfl, Nat.zero_le i⟩

mutual

/-- The conditions of a filter are its leaves from left to right, none of them left out and none listed twice. -/
theorem listsLeaves : ∀ f : Filter, f.ListsLeaves f.conditions
  | .condition c => listsLeaves_condition c
  | .all parts => listsLeaves_all (listsLastLeaves parts [])

theorem listsLastLeaves : ∀ parts before : List Filter, ListsLastLeaves before parts (conditionsOf parts)
  | [], before => listsLastLeaves_nil before
  | f :: rest, before => listsLastLeaves_cons (listsLeaves f) (listsLastLeaves rest (before ++ [f]))

end

theorem tests_iff (f : Filter) (c : Condition) : f.Tests c ↔ c ∈ f.conditions := by
  obtain ⟨places, -, leaves, each⟩ := f.listsLeaves
  constructor
  · rintro ⟨place, leaf⟩
    obtain ⟨d, member, same⟩ := exists_mem_of_forall₂ each ((leaves place).mpr ⟨c, leaf⟩)
    cases leaf.symm.trans same
    exact member
  · intro member
    obtain ⟨place, -, leaf⟩ := exists_mem_of_forall₂ each.flip member
    exact ⟨place, leaf⟩

theorem sameTests_iff {f g : Filter} : f.SameTests g ↔ ∀ c, c ∈ f.conditions ↔ c ∈ g.conditions := by
  simp only [SameTests, tests_iff]

theorem sameTests_assoc (f g h : Filter) : (all [all [f, g], h]).SameTests (all [f, all [g, h]]) := by
  rw [sameTests_iff]
  intro c
  simp only [conditions, conditionsOf, List.append_nil, List.append_assoc]

theorem sameTests_comm (f g : Filter) : (all [f, g]).SameTests (all [g, f]) := by
  rw [sameTests_iff]
  intro c
  simp only [conditions, conditionsOf, List.append_nil, List.mem_append]
  exact Or.comm

theorem sameTests_self (f : Filter) : (all [f, f]).SameTests f := by
  rw [sameTests_iff]
  intro c
  simp only [conditions, conditionsOf, List.append_nil, List.mem_append, or_self]

end Filter

theorem Condition.forM_check {conditions : List Condition} (accepted : ∀ c ∈ conditions, c.check = .ok ()) :
    conditions.forM check = .ok () := by
  induction conditions with
  | nil => rfl
  | cons c rest ih =>
      obtain ⟨here, later⟩ := List.forall_mem_cons.mp accepted
      rw [List.forM_eq_forM, List.forM_cons, here]
      exact ih later

namespace StructuredQuery

/-- The query with another filter. -/
def filtering (q : StructuredQuery) (f : Filter) : StructuredQuery := { q with filter := some f }

variable {q : StructuredQuery} {f g : Filter}

theorem selects_filtering (q : StructuredQuery) (same : f.SameTests g) :
    (q.filtering f).selects = (q.filtering g).selects := by
  funext e
  have met : (q.filtering f).conditions.all (·.holds e) = (q.filtering g).conditions.all (·.holds e) := by
    rw [Bool.eq_iff_iff, List.all_eq_true, List.all_eq_true]
    exact forall_congr' fun c => imp_congr_left (Filter.sameTests_iff.mp same c)
  rw [selects, selects, met]
  rfl

theorem select_filtering (q : StructuredQuery) (same : f.SameTests g) (entities : List Entity) :
    (q.filtering f).select entities = (q.filtering g).select entities := by
  rw [select_eq, select_eq, q.selects_filtering same]
  rfl

theorem check_filtering (same : f.SameTests g) (accepted : (q.filtering f).check = .ok ()) :
    (q.filtering g).check = .ok () := by
  have first : (q.filtering f).conditions.forM Condition.check = .ok () :=
    Condition.forM_check (check_conditions accepted)
  have second : (q.filtering g).conditions.forM Condition.check = .ok () :=
    Condition.forM_check fun c member => check_conditions accepted c ((Filter.sameTests_iff.mp same c).mpr member)
  rw [check, first] at accepted
  rw [check, second]
  exact accepted

theorem mem_scopes_filtering (q : StructuredQuery) (same : f.SameTests g) (k : Key) :
    k ∈ (q.filtering f).scopes ↔ k ∈ (q.filtering g).scopes := by
  rw [mem_scopes, mem_scopes]
  exact Filter.sameTests_iff.mp same (.hasAncestor k)

end StructuredQuery

/-- Whether two transactions see the same, have read the same keys and have queried below the same keys. -/
structure OpenTransaction.SameRecord (t u : OpenTransaction) : Prop where
  snapshot : u.snapshot = t.snapshot
  version : u.version = t.version
  reads : u.reads = t.reads
  scopes : ∀ k, k ∈ t.scopes ↔ k ∈ u.scopes

theorem OpenTransaction.SameRecord.refl (t : OpenTransaction) : t.SameRecord t := ⟨rfl, rfl, rfl, fun _ => Iff.rfl⟩

/-- Transactions under the same handles with the same records. -/
def SameOpen (first second : Bindings Handle OpenTransaction) : Prop :=
  List.Forall₂ (fun a b => a.1 = b.1 ∧ a.2.SameRecord b.2) first second

theorem SameOpen.refl (transactions : Bindings Handle OpenTransaction) : SameOpen transactions transactions :=
  List.forall₂_same.mpr fun entry _ => ⟨rfl, .refl entry.2⟩

theorem SameOpen.put (transactions : Bindings Handle OpenTransaction) (h : Handle) {t u : OpenTransaction}
    (same : t.SameRecord u) : SameOpen (transactions.put h t) (transactions.put h u) := by
  induction transactions with
  | nil => exact .cons ⟨rfl, same⟩ .nil
  | cons entry rest ih =>
      obtain ⟨other, open?⟩ := entry
      by_cases here : other = h
      · rw [Bindings.put, Bindings.put, if_pos here, if_pos here]
        exact .cons ⟨rfl, same⟩ (SameOpen.refl rest)
      · rw [Bindings.put, Bindings.put, if_neg here, if_neg here]
        exact .cons ⟨rfl, .refl open?⟩ ih

namespace Store

/-- Whether two stores are the same but for the order in which their transactions remember keys below which they have
queried. -/
structure SameRecords (s t : Store) : Prop where
  rest : t = { s with transactions := t.transactions }
  records : SameOpen s.transactions t.transactions

theorem sameRecords_recording (s : Store) (handle? : Option Handle) (keys : List Key) {scopes others : List Key}
    (same : ∀ k, k ∈ scopes ↔ k ∈ others) :
    (s.recording handle? keys scopes).SameRecords (s.recording handle? keys others) := by
  cases handle? with
  | none => exact ⟨rfl, SameOpen.refl s.transactions⟩
  | some h =>
      cases found : s.transactions.at? h with
      | none =>
          simp only [recording, found]
          exact ⟨rfl, SameOpen.refl s.transactions⟩
      | some t =>
          simp only [recording, found]
          refine ⟨rfl, SameOpen.put s.transactions h ⟨rfl, rfl, rfl, fun k => ?_⟩⟩
          simp only [OpenTransaction.watching, OpenTransaction.reading, List.mem_append, same k]

/-- Serving a page does not look at transactions. -/
theorem serve_transactions (s : Store) (transactions : Bindings Handle OpenTransaction) (id : Nat) (token : Datum)
    (cursor : Cursor) (start : Int) :
    serve { s with transactions } id token cursor start =
      ((s.serve id token cursor start).1, { (s.serve id token cursor start).2 with transactions }) := by
  unfold serve
  dsimp only
  split <;> rfl

theorem answer_filtering {q : StructuredQuery} {f g : Filter} (same : f.SameTests g)
    (accepted : (q.filtering f).check = .ok ()) (stored : Bindings Key Entity) :
    answer (q.filtering f) stored = answer (q.filtering g) stored := by
  rw [answer, answer, accepted, StructuredQuery.check_filtering same accepted,
    q.select_filtering same (stored.map Prod.snd)]
  rfl

/-- A query that is accepted is accepted with other filters that have the same leaves.  It has the same rows, and its
transaction remembers the same. -/
theorem execute_filtering {s next : Store} {q : StructuredQuery} {f g : Filter} (same : f.SameTests g)
    {handle? : Option Handle} {cursor : Cursor}
    (accepted : s.execute (.structured (q.filtering f)) handle? = .ok (cursor, next)) :
    ∃ after, s.execute (.structured (q.filtering g)) handle? = .ok (cursor, after) ∧ next.SameRecords after := by
  cases seen : s.seen? handle? with
  | none =>
      obtain ⟨e, failed⟩ := execute_of_unseen seen (.structured (q.filtering f))
      rw [failed] at accepted
      cases accepted
  | some stored =>
      obtain ⟨checked, -⟩ := (execute_eq_ok_iff rfl seen cursor).mp ⟨next, accepted⟩
      have answers := answer_filtering same checked stored
      rw [execute_of_seen seen] at accepted
      rw [execute_of_seen seen]
      cases answered : answer (q.filtering f) stored with
      | error e => simp [Query.toStructured, answered, bind, Except.bind] at accepted
      | ok found =>
          simp only [Query.toStructured, answered, bind, Except.bind, pure, Except.pure, Except.ok.injEq,
            Prod.mk.injEq] at accepted
          obtain ⟨rfl, rfl⟩ := accepted
          refine ⟨s.recording handle? found.2 (q.filtering g).scopes, ?_, ?_⟩
          · simp only [Query.toStructured, ← answers, answered, bind, Except.bind, pure, Except.pure]
          · exact sameRecords_recording s handle? found.2 (q.mem_scopes_filtering same)

/-- Its pages are the same as well. -/
theorem runQuery_filtering {s : Store} {q : StructuredQuery} {f g : Filter} (same : f.SameTests g)
    {handle? : Option Handle} {page : QueryPage}
    (served : (s.runQuery (.structured (q.filtering f)) handle? .none).1 = .ok page) :
    (s.runQuery (.structured (q.filtering g)) handle? .none).1 = .ok page ∧
      (s.runQuery (.structured (q.filtering f)) handle? .none).2.SameRecords
        (s.runQuery (.structured (q.filtering g)) handle? .none).2 := by
  cases executed : (s.noting .runQuery).execute (.structured (q.filtering f)) handle? with
  | error e =>
      rw [runQuery_of_failed executed] at served
      cases served
  | ok found =>
      obtain ⟨cursor, next⟩ := found
      obtain ⟨after, again, rest, records⟩ := execute_filtering same executed
      rw [runQuery_of_executed executed] at served ⊢
      rw [runQuery_of_executed again, rest]
      have kept : keep { next with transactions := after.transactions } cursor =
          ((next.keep cursor).1, { (next.keep cursor).2 with transactions := after.transactions }) := rfl
      dsimp only at served ⊢
      rw [kept, serve_transactions]
      refine ⟨served, rfl, ?_⟩
      obtain ⟨cursors, framed⟩ :=
        serve_frame (next.keep cursor).2 (next.queried + 1) (.int ↑(next.queried + 1)) cursor 0
      rw [framed]
      exact records

/-- Filters with the same leaves, however these are nested, ordered and repeated, give the same rows and pages and the
same record in a transaction.  The conditions of a query are these leaves, each once. -/
theorem rows_of_leaves :
    (∀ f g h : Filter,
      (Filter.all [.all [f, g], h]).SameTests (.all [f, .all [g, h]]) ∧
        (Filter.all [f, g]).SameTests (.all [g, f]) ∧ (Filter.all [f, f]).SameTests f) ∧
      (∀ (s : Store) (handle? : Option Handle) (q : StructuredQuery) (f g : Filter), f.SameTests g →
        (∀ cursor next, s.execute (.structured (q.filtering f)) handle? = .ok (cursor, next) →
          ∃ after, s.execute (.structured (q.filtering g)) handle? = .ok (cursor, after) ∧ next.SameRecords after) ∧
        ∀ page, (s.runQuery (.structured (q.filtering f)) handle? .none).1 = .ok page →
          (s.runQuery (.structured (q.filtering g)) handle? .none).1 = .ok page ∧
            (s.runQuery (.structured (q.filtering f)) handle? .none).2.SameRecords
              (s.runQuery (.structured (q.filtering g)) handle? .none).2) ∧
      ∀ (q : StructuredQuery) (f : Filter), f.ListsLeaves (q.filtering f).conditions := by
  refine ⟨fun f g h => ⟨f.sameTests_assoc g h, f.sameTests_comm g, f.sameTests_self⟩, ?_, fun q => Filter.listsLeaves⟩
  intro s handle? q f g same
  exact ⟨fun cursor next => execute_filtering same, fun page => runQuery_filtering same⟩

/-- In a transaction, two tests on an ancestor around one on a number, and one of each in the other order. -/
theorem rows_of_leaves_of_note :
    let team : Key := ⟨⟨⟨"app", by decide⟩, none, [], ⟨"Team", by decide⟩⟩, .id ⟨1, by decide⟩⟩
    let note (n : EntityId) : Key := (team.childSpace ⟨"Note", by decide⟩).withIdentifier (.id n)
    let number (n : Long) : Value := .single ⟨.long n, ⟨none, none⟩⟩
    let first : Entity := ⟨.stored, note ⟨1, by decide⟩, [("n", number ⟨3, by decide⟩)]⟩
    let second : Entity := ⟨.stored, note ⟨2, by decide⟩, [("n", number ⟨7, by decide⟩)]⟩
    let s := reached .standard
      [.commit [⟨.put, .entity (.keyed first)⟩, ⟨.put, .entity (.keyed second)⟩] none, .beginTransaction]
    let below : Filter := .condition (.hasAncestor team)
    let large : Filter := .condition (.compare "n" .greater (number ⟨5, by decide⟩))
    let f : Filter := .all [.all [below, large], below]
    let g : Filter := .all [large, below]
    let q : StructuredQuery := ⟨.full, none, some "Note", none, [], [], [], none, 0⟩
    let left := s.runQuery (.structured (q.filtering f)) (some (handle 1)) .none
    let right := s.runQuery (.structured (q.filtering g)) (some (handle 1)) .none
    f.SameTests g ∧ left.1 = .ok ⟨[.entity (.keyed second)], .full, none⟩ ∧ right.1 = left.1 ∧
      left.2.SameRecords right.2 ∧
      (left.2.transactions.at? (handle 1)).map (·.scopes) = some [team, team] ∧
      (right.2.transactions.at? (handle 1)).map (·.scopes) = some [team] := by
  intro team note number first second s below large f g q left right
  have same : f.SameTests g := by
    rw [Filter.sameTests_iff]
    intro c
    simp only [f, g, below, large, Filter.conditions, Filter.conditionsOf, List.append_nil, List.mem_append,
      List.mem_singleton]
    tauto
  have served : left.1 = .ok ⟨[.entity (.keyed second)], .full, none⟩ := by
    subst left right q f g large below s second first number note team
    cbv
  have remembered : (left.2.transactions.at? (handle 1)).map (·.scopes) = some [team, team] ∧
      (right.2.transactions.at? (handle 1)).map (·.scopes) = some [team] := by
    subst left right q f g large below s second first number note team
    cbv
  obtain ⟨again, records⟩ := (rows_of_leaves.2.1 s (some (handle 1)) q f g same).2 _ served
  exact ⟨same, served, again.trans served.symm, records, remembered.1, remembered.2⟩

end Store

end EntityStore
