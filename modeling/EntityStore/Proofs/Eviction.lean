import EntityStore.Proofs.Paging
import Mathlib

/-!
Which unfinished queries a store still serves.  They are kept in the order in which they were started, and when a
new one is kept the oldest makes room for it if there are too many.  The new query counts even if all its rows
are on its first page, since it is kept before that page is served.
-/

set_option autoImplicit false

namespace EntityStore

namespace Bindings

theorem mem_names_iff {κ ν : Type} [DecidableEq κ] (b : Bindings κ ν) (key : κ) :
    key ∈ b.names ↔ ∃ value, b.at? key = some value := by
  rw [← not_iff_not, ← at?_eq_none_iff]
  cases b.at? key <;> simp

end Bindings

namespace Store

variable {s next : Store} {request : Request} {event : Event} {id : Nat}

/-- Whether pages of the query with a number are served to whoever asks for them. -/
def Usable (s : Store) (id : Nat) : Prop :=
  ∀ query handle? stop, ∃ page, (s.runQuery query handle? (pageToken id stop)).1 = .ok page

/-- The unfinished queries that were started after the one with a number. -/
def younger (s : Store) (id : Nat) : List Nat := s.cursors.names.filter (id < ·)

/-- What a first page says about the query that was started. -/
inductive Opens (s : Store) (page : QueryPage) (next : Store) : Prop where
  | more (token : page.next? = some (pageToken (s.queried + 1) s.limits.pageSize))
      (usable : next.Usable (s.queried + 1))
      (younger : ∀ id, s.Usable id → next.younger id = s.younger id ++ [s.queried + 1])
  | last (token : page.next? = none) (unusable : ¬ next.Usable (s.queried + 1))

/-- The call neither fetches the last page of the query with a number nor starts a query when there is no room
for one behind it. -/
def Spares (s : Store) (id : Nat) (request : Request) : Prop :=
  (s.perform request).1.finishes id = false ∧
    ((s.perform request).1.opened?.isSome = true → (s.younger id).length + 1 < s.limits.maxCursors)

theorem usable_iff (s : Store) (id : Nat) : s.Usable id ↔ id ∈ s.cursors.names := by
  rw [Bindings.mem_names_iff]
  constructor
  · intro usable
    obtain ⟨page, served⟩ := usable (.bare .unknown none) none 0
    cases kept : s.cursors.at? id with
    | some cursor => exact ⟨cursor, rfl⟩
    | none =>
        rw [runQuery_of_dropped kept] at served
        cases served
  · rintro ⟨cursor, kept⟩ query handle? stop
    rw [runQuery_of_kept kept]
    exact ⟨_, rfl⟩

theorem length_filter_lt {names : List Nat} (member : id ∈ names) :
    (names.filter (id < ·)).length < names.length :=
  List.length_filter_lt_length_iff_exists.mpr ⟨id, member, by simp⟩

/-- Unfinished queries are kept in the order in which they were started, and not too many of them. -/
structure Queued (s : Store) : Prop where
  numbered : s.CursorsNumbered
  ordered : s.cursors.names.Pairwise (· < ·)
  few : s.cursors.names.length ≤ s.limits.maxCursors

theorem queried_le_of_run (s : Store) (requests : List Request) : s.queried ≤ (s.run requests).2.queried := by
  induction requests generalizing s with
  | nil => exact Nat.le_refl _
  | cons request rest ih => exact Nat.le_trans (s.tends_of_perform request).queried_le (ih _)

theorem queued_empty (limits : StoreLimits) : (empty limits).Queued :=
  ⟨cursorsNumbered_empty limits, List.Pairwise.nil, Nat.zero_le _⟩

namespace Queued

theorem keep (queued : s.Queued) (cursor : Cursor) : (s.keep cursor).2.Queued := by
  refine ⟨queued.numbered.keep cursor, ?_, ?_⟩
  · rw [queued.numbered.names_keep]
    have ordered : (s.cursors.names ++ [s.queried + 1]).Pairwise (· < ·) := by
      refine List.pairwise_append.mpr ⟨queued.ordered, List.pairwise_singleton _ _, ?_⟩
      intro id member last newest
      have bounded := queued.numbered.bounded id member
      rw [List.mem_singleton.mp newest]
      omega
    exact ordered.sublist (List.drop_sublist _ _)
  · rw [queued.numbered.names_keep, List.length_drop, List.length_append, List.length_singleton]
    have size : s.cursors.names.length = s.cursors.length := List.length_map _
    show _ ≤ s.limits.maxCursors
    omega

theorem remove (queued : s.Queued) {id : Nat} (cursors : next.cursors = s.cursors.remove id)
    (queried : next.queried = s.queried) (limits : next.limits = s.limits) : next.Queued := by
  have names : next.cursors.names = s.cursors.names.filter (· ≠ id) := by
    rw [cursors, Bindings.names_remove]
  refine ⟨queued.numbered.remove cursors queried, ?_, ?_⟩
  · rw [names]
    exact queued.ordered.filter _
  · rw [names, limits]
    exact Nat.le_trans (List.length_filter_le _ _) queued.few

theorem of_tends (queued : s.Queued) (tends : Tends s request event next) (limits : next.limits = s.limits) :
    next.Queued := by
  cases tends with
  | idle cursors queried =>
      refine ⟨⟨cursors ▸ queued.numbered.distinct, cursors ▸ queried ▸ queued.numbered.bounded⟩, ?_, ?_⟩
      · exact cursors ▸ queued.ordered
      · exact cursors ▸ limits ▸ queued.few
  | finished other fetched cursors queried => exact queued.remove cursors queried limits
  | started cursor starts more cursors queried =>
      have kept := queued.keep cursor
      refine ⟨⟨cursors ▸ kept.numbered.distinct, cursors ▸ queried ▸ kept.numbered.bounded⟩, ?_, ?_⟩
      · exact cursors ▸ kept.ordered
      · exact cursors ▸ limits ▸ kept.few
  | answered cursor starts all cursors queried => exact (queued.keep cursor).remove cursors queried limits

theorem perform (queued : s.Queued) (request : Request) : (s.perform request).2.Queued :=
  queued.of_tends (s.tends_of_perform request) (s.limits_of_perform request)

theorem run (queued : s.Queued) (requests : List Request) : (s.run requests).2.Queued := by
  induction requests generalizing s with
  | nil => exact queued
  | cons request rest ih => exact ih (queued.perform request)

/-- A new query is kept behind all others, of which the oldest is dropped if there is no room for one more. -/
theorem names_keep (queued : s.Queued) (cursor : Cursor) :
    (s.cursors.names.length < s.limits.maxCursors ∧
        (s.keep cursor).2.cursors.names = s.cursors.names ++ [s.queried + 1]) ∨
      ∃ oldest rest, s.cursors.names = oldest :: rest ∧ rest.length + 1 = s.limits.maxCursors ∧
        (s.keep cursor).2.cursors.names = rest ++ [s.queried + 1] := by
  have few := queued.few
  have positive := s.limits.maxCursors_pos
  have size : s.cursors.length = s.cursors.names.length := (List.length_map _).symm
  rw [queued.numbered.names_keep, size]
  by_cases room : s.cursors.names.length < s.limits.maxCursors
  · refine Or.inl ⟨room, ?_⟩
    rw [show s.cursors.names.length + 1 - s.limits.maxCursors = 0 by omega, List.drop_zero]
  · cases names : s.cursors.names with
    | nil =>
        rw [names, List.length_nil] at room
        omega
    | cons oldest rest =>
        rw [names, List.length_cons] at few room
        refine Or.inr ⟨oldest, rest, rfl, by omega, ?_⟩
        rw [List.length_cons, show rest.length + 1 + 1 - s.limits.maxCursors = 1 by omega]
        rfl

/-- The oldest query is not younger than another. -/
theorem filter_oldest (queued : s.Queued) {oldest : Nat} {rest : List Nat}
    (split : s.cursors.names = oldest :: rest) (kept : id ∈ s.cursors.names) :
    s.younger id = rest.filter (id < ·) := by
  have ordered := queued.ordered
  rw [split] at ordered kept
  have early : ¬ id < oldest := by
    rcases List.mem_cons.mp kept with rfl | later
    · exact Nat.lt_irrefl id
    · have := (List.pairwise_cons.mp ordered).1 id later
      omega
  rw [younger, split, List.filter_cons_of_neg (by simpa using early)]

/-- A new query pushes out the one that has as many younger ones as there is room for behind it. -/
theorem mem_names_keep (queued : s.Queued) (kept : id ∈ s.cursors.names) (cursor : Cursor) :
    id ∈ (s.keep cursor).2.cursors.names ↔ (s.younger id).length + 1 < s.limits.maxCursors := by
  rcases queued.names_keep cursor with ⟨room, names⟩ | ⟨oldest, rest, split, full, names⟩
  · have fewer : (s.younger id).length < s.cursors.names.length := length_filter_lt kept
    rw [names]
    exact ⟨fun _ => by omega, fun _ => List.mem_append_left _ kept⟩
  · have ordered := queued.ordered
    rw [names, queued.filter_oldest split kept]
    rw [split] at ordered
    obtain ⟨behind, -⟩ := List.pairwise_cons.mp ordered
    by_cases later : id ∈ rest
    · have fewer := length_filter_lt later
      exact ⟨fun _ => by omega, fun _ => List.mem_append_left _ later⟩
    · have oldestOne : id = oldest := by simpa [split, later] using kept
      have all : rest.filter (id < ·) = rest :=
        List.filter_eq_self.mpr fun other member => decide_eq_true (oldestOne ▸ behind other member)
      have bounded := queued.numbered.bounded id kept
      have newest : id ≠ s.queried + 1 := by omega
      rw [all, full]
      simp [later, newest]

/-- A new query comes behind the younger ones of each that was kept, whether that is pushed out or not. -/
theorem younger_keep (queued : s.Queued) (kept : id ∈ s.cursors.names) (cursor : Cursor) :
    (s.keep cursor).2.younger id = s.younger id ++ [s.queried + 1] := by
  have bounded := queued.numbered.bounded id kept
  have newest : [s.queried + 1].filter (id < ·) = [s.queried + 1] := by
    refine List.filter_eq_self.mpr fun other last => ?_
    rw [List.mem_singleton.mp last, decide_eq_true_eq]
    omega
  rcases queued.names_keep cursor with ⟨-, names⟩ | ⟨oldest, rest, split, -, names⟩
  · rw [younger, names, List.filter_append, newest, younger]
  · rw [queued.filter_oldest split kept, younger, names, List.filter_append, newest]

theorem mem_names_iff (queued : s.Queued) (tends : Tends s request event next) (kept : id ∈ s.cursors.names) :
    id ∈ next.cursors.names ↔ event.finishes id = false ∧
      (event.opened?.isSome = true → (s.younger id).length + 1 < s.limits.maxCursors) := by
  cases tends with
  | idle cursors queried unopened unfinished =>
      rw [cursors, unfinished, unopened]
      simp [kept]
  | finished other fetched cursors queried unopened finishes =>
      rw [cursors, Bindings.names_remove, List.mem_filter, unopened, ← Bool.not_eq_true, finishes]
      simp [kept]
  | started cursor starts more cursors queried opened unfinished =>
      rw [cursors, queued.mem_names_keep kept, unfinished, opened]
      simp
  | answered cursor starts all cursors queried opened unfinished =>
      have bounded := queued.numbered.bounded id kept
      have other : id ≠ s.queried + 1 := by omega
      rw [cursors, Bindings.names_remove, List.mem_filter, queued.mem_names_keep kept, unfinished, opened]
      simp [other]

theorem opens (queued : s.Queued) (tends : Tends s request event next) {page : QueryPage}
    (opened : event.opened? = some page) : s.Opens page next := by
  cases tends with
  | idle cursors queried unopened unfinished =>
      rw [unopened] at opened
      cases opened
  | finished other fetched cursors queried unopened finishes =>
      rw [unopened] at opened
      cases opened
  | started cursor starts more cursors queried first unfinished =>
      rw [first] at opened
      cases opened
      refine Opens.more ?_ ?_ fun id usable => ?_
      · unfold firstPage pageToken
        dsimp only
        rw [Int.zero_add, if_pos (by omega)]
      · have newest := (Holds.newest queued.numbered cursor).at?_eq (queued.numbered.keep cursor)
        rw [usable_iff, cursors, Bindings.mem_names_iff]
        exact ⟨cursor, newest⟩
      · rw [younger, cursors]
        exact queued.younger_keep ((s.usable_iff id).mp usable) cursor
  | answered cursor starts all cursors queried first unfinished =>
      rw [first] at opened
      cases opened
      refine Opens.last ?_ ?_
      · unfold firstPage
        dsimp only
        rw [Int.zero_add, if_neg (by omega)]
      · rw [usable_iff, cursors, Bindings.names_remove, List.mem_filter]
        simp

theorem spares_iff (queued : s.Queued) (usable : s.Usable id) (request : Request) :
    (s.perform request).2.Usable id ↔ s.Spares id request := by
  rw [usable_iff]
  exact queued.mem_names_iff (s.tends_of_perform request) ((s.usable_iff id).mp usable)

/-- A query that is not kept any more is never kept again. -/
theorem usable_of_perform (queued : s.Queued) (used : id ≤ s.queried)
    (usable : (s.perform request).2.Usable id) : s.Usable id := by
  rw [usable_iff, Bindings.mem_names_iff] at usable ⊢
  obtain ⟨cursor, kept⟩ := usable
  rcases (s.tends_of_perform request).at?_eq queued.numbered used with same | gone
  · exact ⟨cursor, same.symm.trans kept⟩
  · rw [gone] at kept
    cases kept

theorem usable_of_run (queued : s.Queued) (used : id ≤ s.queried) {later : List Request}
    (usable : (s.run later).2.Usable id) : s.Usable id := by
  induction later generalizing s with
  | nil => exact usable
  | cons request rest ih =>
      have usedNext := Nat.le_trans used (s.tends_of_perform request).queried_le
      exact queued.usable_of_perform used (ih (queued.perform request) usedNext usable)

/-- A query is kept in a run exactly if each call of it spares it. -/
theorem usable_run_iff (queued : s.Queued) (usable : s.Usable id) (later : List Request) :
    (s.run later).2.Usable id ↔ ∀ earlier request rest, later = earlier ++ request :: rest →
      (s.run earlier).2.Spares id request := by
  constructor
  · rintro last earlier request rest rfl
    rw [run_append] at last
    have used : id ≤ (s.run earlier).2.queried :=
      Nat.le_trans (queued.numbered.bounded id ((s.usable_iff id).mp usable)) (s.queried_le_of_run earlier)
    have here := (queued.run earlier).usable_of_run used last
    have usedNext := Nat.le_trans used ((s.run earlier).2.tends_of_perform request).queried_le
    have next := ((queued.run earlier).perform request).usable_of_run usedNext last
    exact ((queued.run earlier).spares_iff here request).mp next
  · intro spared
    induction later generalizing s with
    | nil => exact usable
    | cons request rest ih =>
        have next := (queued.spares_iff usable request).mpr (spared [] request rest rfl)
        refine ih (queued.perform request) next ?_
        rintro earlier other later rfl
        exact spared (request :: earlier) other later rfl

end Queued

/-- An unfinished query is served until its last page is fetched, or until a query is started while as many younger ones
are kept as there is room for, even if the first page of that query is all. -/
theorem usable_until_crowded (limits : StoreLimits) (requests : List Request) :
    let s := reached limits requests
    (∀ ids : List Nat, ids.Nodup → (∀ id ∈ ids, s.Usable id) → ids.length ≤ limits.maxCursors) ∧
      (∀ id, (s.younger id).Nodup ∧ ∀ other, other ∈ s.younger id ↔ id < other ∧ s.Usable other) ∧
      (∀ request page, (s.perform request).1.opened? = some page → s.Opens page (s.perform request).2) ∧
      ∀ id, s.Usable id → ∀ later, (s.run later).2.Usable id ↔
        ∀ earlier request rest, later = earlier ++ request :: rest → (s.run earlier).2.Spares id request := by
  intro s
  have queued : s.Queued := (queued_empty limits).run requests
  refine ⟨fun ids distinct usable => ?_, fun id => ⟨?_, fun other => ?_⟩, fun request page opened => ?_,
    fun id usable later => ?_⟩
  · have listed : ids ⊆ s.cursors.names := fun id member => (s.usable_iff id).mp (usable id member)
    have few := queued.few
    rw [limits_reached] at few
    exact Nat.le_trans (List.subperm_of_subset distinct listed).length_le few
  · exact queued.numbered.distinct.filter _
  · rw [younger, List.mem_filter, usable_iff, decide_eq_true_eq, and_comm]
  · exact queued.opens (s.tends_of_perform request) opened
  · exact queued.usable_run_iff usable later

/-- A store that keeps two queries serves the first one after a second one was answered at once. -/
theorem usable_beside_answered :
    let key (n : EntityId) : Key := ⟨⟨⟨"app", by decide⟩, none, [], ⟨"Task", by decide⟩⟩, .id n⟩
    let first := key ⟨1, by decide⟩
    let second := key ⟨2, by decide⟩
    let query (limit? : Option Nat) : Query :=
      .structured ⟨.keyOnly, none, some "Task", none, [], [], [], limit?, 0⟩
    let s := reached ⟨1, 2, by decide, by decide⟩
      [.commit [⟨.put, .entity (.keyed ⟨.stored, first, []⟩)⟩,
        ⟨.put, .entity (.keyed ⟨.stored, second, []⟩)⟩] none, .runQuery (query none) none .none]
    let later : List Request := [.runQuery (query (some 1)) none .none]
    s.Usable 1 ∧ (∀ earlier request rest, later = earlier ++ request :: rest →
      (s.run earlier).2.Spares 1 request) ∧ (s.run later).2.Usable 1 := by
  intro key first second query s later
  have names : s.cursors.names = [1] := by
    subst later s query second first key
    cbv
  have unfinished : (s.perform (.runQuery (query (some 1)) none .none)).1.finishes 1 = false := by
    subst later s query second first key
    cbv
  have usable : s.Usable 1 := by
    rw [usable_iff, names]
    exact List.mem_singleton_self 1
  have spared : ∀ earlier request rest, later = earlier ++ request :: rest →
      (s.run earlier).2.Spares 1 request := by
    intro earlier request rest split
    cases earlier with
    | nil =>
        obtain ⟨rfl, -⟩ := List.cons.inj split
        refine ⟨unfinished, fun _ => ?_⟩
        have room : s.limits.maxCursors = 2 := congrArg StoreLimits.maxCursors (limits_reached _ _)
        show (s.cursors.names.filter (1 < ·)).length + 1 < s.limits.maxCursors
        rw [names, room]
        decide
    | cons other others =>
        obtain ⟨-, short⟩ := List.cons.inj split
        cases others <;> cases short
  exact ⟨usable, spared, ((usable_until_crowded _ _).2.2.2 1 usable later).mpr spared⟩

/-- A store that keeps one query drops it for a second one that is answered at once. -/
theorem pushed_out_by_answered :
    let key (n : EntityId) : Key := ⟨⟨⟨"app", by decide⟩, none, [], ⟨"Task", by decide⟩⟩, .id n⟩
    let first := key ⟨1, by decide⟩
    let second := key ⟨2, by decide⟩
    let query (limit? : Option Nat) : Query :=
      .structured ⟨.keyOnly, none, some "Task", none, [], [], [], limit?, 0⟩
    let s := reached ⟨1, 1, by decide, by decide⟩
      [.commit [⟨.put, .entity (.keyed ⟨.stored, first, []⟩)⟩,
        ⟨.put, .entity (.keyed ⟨.stored, second, []⟩)⟩] none, .runQuery (query none) none .none]
    let event := (s.perform (.runQuery (query (some 1)) none .none)).1
    let next := (s.perform (.runQuery (query (some 1)) none .none)).2
    s.Usable 1 ∧ event.finishes 1 = false ∧ event.opened?.map QueryPage.next? = some none ∧
      s.younger 1 = [] ∧ next.younger 1 = [] ∧ ¬ next.Usable 1 := by
  intro key first second query s event next
  have names : s.cursors.names = [1] := by
    subst next event s query second first key
    cbv
  have none_left : next.cursors.names = [] := by
    subst next event s query second first key
    cbv
  have page : event.finishes 1 = false ∧ event.opened?.map QueryPage.next? = some none := by
    subst next event s query second first key
    cbv
  rw [usable_iff, usable_iff, younger, younger, names, none_left]
  exact ⟨List.mem_singleton_self 1, page.1, page.2, rfl, rfl, List.not_mem_nil⟩

end Store

end EntityStore
