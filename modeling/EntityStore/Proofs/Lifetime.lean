import EntityStore.Proofs.Records

set_option autoImplicit false

namespace EntityStore

/-- A transaction from its beginning to a moment before its end, among the calls of any clients. -/
structure Lifetime where
  limits : StoreLimits
  before : List Request
  during : List Request
  stagedBefore : ∀ request ∈ before, request.IsStaged
  stagedDuring : ∀ request ∈ during, request.IsStaged
  unended : ∀ request ∈ during,
    request.ends (Store.reached limits before).beginTransaction.1 = false

namespace Lifetime

/-- The store when the transaction began. -/
def opening (life : Lifetime) : Store := Store.reached life.limits life.before

def handle (life : Lifetime) : Handle := life.opening.beginTransaction.1

/-- What happened since. -/
def events (life : Lifetime) : List Event := (life.opening.beginTransaction.2.run life.during).1

/-- The store now. -/
def live (life : Lifetime) : Store := (life.opening.beginTransaction.2.run life.during).2

variable (life : Lifetime)

/-- The transaction looked up a key. -/
def LookedUp (k : Key) : Prop :=
  ∃ keys found, Event.lookup keys (some life.handle) (.ok found) ∈ life.events ∧ k ∈ keys

/-- The transaction was served the first page of a query. -/
def Queried (q : StructuredQuery) : Prop :=
  ∃ query page, Event.runQuery query (some life.handle) .none (.ok page) ∈ life.events ∧
    query.toStructured = .ok q

/-- A query of the transaction selects the entity that was stored under a key. -/
def Selected (k : Key) : Prop :=
  ∃ q e, life.Queried q ∧ life.opening.entities.at? k = some e ∧ q.selects e = true

/-- A query of the transaction asks for entities at or below an ancestor of a key, or the key itself. -/
def Watched (k : Key) : Prop :=
  ∃ q ancestor, life.Queried q ∧ .hasAncestor ancestor ∈ q.conditions ∧ k.isWithin ancestor = true

/-- A commit that succeeded since the transaction began stored or deleted a key. -/
def Written (k : Key) : Prop :=
  ∃ mutations handle? made, Event.commit mutations handle? (.ok ⟨made, none⟩) ∈ life.events ∧
    (k ∈ namedKeys mutations ∨ k ∈ made)

theorem mem_written (k : Key) : k ∈ life.events.flatMap Event.written ↔ life.Written k := by
  rw [List.mem_flatMap]
  constructor
  · rintro ⟨e, happened, member⟩
    obtain ⟨mutations, handle?, made, rfl, written⟩ := (e.mem_written k).mp member
    exact ⟨mutations, handle?, made, happened, written⟩
  · rintro ⟨mutations, handle?, made, happened, written⟩
    exact ⟨_, happened, (Event.mem_written _ k).mpr ⟨mutations, handle?, made, rfl, written⟩⟩

theorem sound_opening : life.opening.Sound := Store.sound_reached life.limits life.stagedBefore

theorem numbered_opening : life.opening.Numbered :=
  Store.numbered_of_run (Store.numbered_empty life.limits) life.before

/-- What was stored and given out since the transaction began. -/
theorem changes : Store.Changes life.opening life.live (life.events.flatMap Event.written)
    (life.events.flatMap Event.issued) := by
  have beginning : Request.beginTransaction.IsStaged := trivial
  exact (life.opening.changes_of_perform beginning).append
    (life.opening.beginTransaction.2.changes_of_run life.stagedDuring)

theorem sound_live : life.live.Sound := life.changes.sound life.sound_opening

/-- The record of the transaction when it began. -/
def blank : OpenTransaction := ⟨life.opening.entities, life.opening.version, [], []⟩

/-- The record of the transaction now. -/
def record : OpenTransaction := life.events.foldl (OpenTransaction.after life.handle) life.blank

theorem numbered_begun : life.opening.beginTransaction.2.Numbered :=
  Store.numbered_of_perform life.numbered_opening .beginTransaction

theorem begun : life.opening.beginTransaction.2.transactions.at? life.handle = some life.blank :=
  Bindings.at?_put_self _ _ _

theorem opened : life.live.transactions.at? life.handle = some life.record :=
  Store.opened_of_run life.numbered_begun life.begun life.unended

theorem isFrom_opening :
    ∀ e ∈ life.events, e.IsFrom life.opening.limits life.opening.entities life.handle :=
  Store.isFrom_of_run life.numbered_begun life.stagedDuring life.begun life.unended

theorem record_eq : life.record =
    { life.blank with
      reads := life.events.flatMap (Event.reads life.handle life.opening.entities)
      scopes := life.events.flatMap (Event.scopes life.handle) } :=
  OpenTransaction.foldl_after life.handle life.events life.blank

theorem mem_reads (k : Key) : k ∈ life.record.reads ↔ life.LookedUp k ∨ life.Selected k := by
  rw [record_eq, List.mem_flatMap]
  constructor
  · rintro ⟨e, happened, member⟩
    rcases List.mem_append.mp member with looked | selected
    · obtain ⟨keys, found, rfl, own⟩ := (e.mem_lookedUp life.handle k).mp looked
      exact Or.inl ⟨keys, found, happened, own⟩
    · obtain ⟨q, served, chosen⟩ := List.mem_flatMap.mp selected
      obtain ⟨query, page, rfl, structured⟩ :=
        (e.query?_eq_some life.handle q).mp (Option.mem_toList.mp served)
      obtain ⟨entity, stored, selects⟩ := (q.mem_selected_keys life.sound_opening.filed k).mp chosen
      exact Or.inr ⟨q, entity, ⟨query, page, happened, structured⟩, stored, selects⟩
  · rintro (⟨keys, found, happened, own⟩ | ⟨q, entity, ⟨query, page, happened, structured⟩, chosen⟩)
    · refine ⟨_, happened, List.mem_append_left _ ?_⟩
      exact (Event.mem_lookedUp _ life.handle k).mpr ⟨keys, found, rfl, own⟩
    · refine ⟨_, happened, List.mem_append_right _ (List.mem_flatMap.mpr ⟨q, ?_, ?_⟩)⟩
      · exact Option.mem_toList.mpr
          ((Event.query?_eq_some _ life.handle q).mpr ⟨query, page, rfl, structured⟩)
      · exact (q.mem_selected_keys life.sound_opening.filed k).mpr ⟨entity, chosen⟩

theorem mem_scopes (scope : Key) :
    scope ∈ life.record.scopes ↔ ∃ q, life.Queried q ∧ .hasAncestor scope ∈ q.conditions := by
  rw [record_eq, List.mem_flatMap]
  constructor
  · rintro ⟨e, happened, member⟩
    obtain ⟨q, served, asked⟩ := List.mem_flatMap.mp member
    obtain ⟨query, page, rfl, structured⟩ :=
      (e.query?_eq_some life.handle q).mp (Option.mem_toList.mp served)
    exact ⟨q, ⟨query, page, happened, structured⟩, (q.mem_scopes scope).mp asked⟩
  · rintro ⟨q, ⟨query, page, happened, structured⟩, asked⟩
    refine ⟨_, happened, List.mem_flatMap.mpr ⟨q, ?_, (q.mem_scopes scope).mpr asked⟩⟩
    exact Option.mem_toList.mpr
      ((Event.query?_eq_some _ life.handle q).mpr ⟨query, page, rfl, structured⟩)

/-- The keys whose versions are newer than the snapshot are those written since it was taken. -/
theorem newer_iff (k : Key) :
    life.record.version < life.live.versionOf (.complete k) ↔ life.Written k := by
  have stamped := life.changes.stamped k life.opening.version (Nat.le_refl _)
  have bounded := life.sound_opening.bounded (.complete k)
  rw [record_eq, ← mem_written]
  refine stamped.trans ⟨?_, Or.inr⟩
  rintro (newer | written)
  · exact absurd newer (Nat.not_lt.mpr bounded)
  · exact written

/-- What was not written since the transaction began is stored as it was then. -/
theorem kept {k : Key} (unwritten : ¬ life.Written k) :
    life.live.entities.at? k = life.opening.entities.at? k :=
  life.changes.frame k fun written => unwritten ((life.mem_written k).mp written)

end Lifetime

end EntityStore
