import EntityStore.Proofs.Staging
import EntityStore.Proofs.Application

set_option autoImplicit false

namespace EntityStore

/-- The partial key that a datum is, if it is one. -/
def Datum.space? : Datum → Option PartialKey
  | .key (.incomplete space) => some space
  | _ => Option.none

/-- A call of a client. -/
inductive Request where
  | lookup (keys : List Key) (handle? : Option Handle)
  | runQuery (query : Query) (handle? : Option Handle) (token : Datum)
  | commit (mutations : List Mutation) (handle? : Option Handle)
  | beginTransaction
  | rollback (handle : Handle)
  | allocateIds (keys : List Datum)

/-- A call together with its answer. -/
inductive Event where
  | lookup (keys : List Key) (handle? : Option Handle) (found : Except Error (List (Option Entity)))
  | runQuery (query : Query) (handle? : Option Handle) (token : Datum) (page : Except Error QueryPage)
  | commit (mutations : List Mutation) (handle? : Option Handle)
      (response : Except Error CommitResponse)
  | beginTransaction (handle : Handle)
  | rollback (handle : Handle)
  | allocateIds (keys : List Datum) (made : Except Error (List Key))

namespace Request

/-- Whether a commit is one of mutations that can be staged. -/
def IsStaged : Request → Prop
  | commit mutations _ => Staged mutations
  | _ => True

instance (request : Request) : Decidable request.IsStaged :=
  match request with
  | commit mutations _ => inferInstanceAs (Decidable (Staged mutations))
  | lookup .. | runQuery .. | beginTransaction | rollback _ | allocateIds _ => isTrue trivial

/-- Whether the call is the end of a transaction, whatever its answer. -/
def ends (h : Handle) : Request → Bool
  | commit _ handle? => handle? = some h
  | rollback other => other = h
  | _ => false

end Request

namespace Event

/-- The keys that were stored or deleted, which only a commit without a rejection does. -/
def written : Event → List Key
  | commit mutations _ (.ok ⟨made, none⟩) => namedKeys mutations ++ made
  | _ => []

/-- The keys that were given out. -/
def issued : Event → List Key
  | commit _ _ (.ok response) => response.assigned
  | allocateIds _ (.ok made) => made
  | _ => []

/-- The handle that was given to a transaction. -/
def begun? : Event → Option Handle
  | beginTransaction h => some h
  | _ => none

/-- The keys that the call names. -/
def named : Event → List Key
  | commit mutations _ _ => namedKeys mutations
  | _ => []

/-- The partial keys for which keys were asked, if the call was not refused. -/
def requested : Event → List PartialKey
  | commit mutations _ (.ok ⟨_, none⟩) => requestedSpaces mutations
  | allocateIds keys (.ok _) => keys.filterMap Datum.space?
  | _ => []

/-- The keys that a transaction looked up. -/
def lookedUp (h : Handle) : Event → List Key
  | lookup keys handle? (.ok _) => if handle? = some h then keys else []
  | _ => []

/-- The query of a transaction of which the first page was served. -/
def query? (h : Handle) : Event → Option StructuredQuery
  | runQuery query handle? .none (.ok _) =>
    if handle? = some h then query.toStructured.toOption else none
  | _ => none

/-- The keys that a transaction saw: those it looked up, and those of the entities that its query selected
from a snapshot. -/
def reads (h : Handle) (snapshot : Bindings Key Entity) (e : Event) : List Key :=
  e.lookedUp h ++ (e.query? h).toList.flatMap fun q =>
    (q.select (snapshot.map Prod.snd)).map Entity.key

/-- The keys below which a transaction queried. -/
def scopes (h : Handle) (e : Event) : List Key := (e.query? h).toList.flatMap StructuredQuery.scopes

theorem mem_written (e : Event) (k : Key) :
    k ∈ e.written ↔ ∃ mutations handle? made, e = commit mutations handle? (.ok ⟨made, none⟩) ∧
      (k ∈ namedKeys mutations ∨ k ∈ made) := by
  constructor
  · intro member
    unfold written at member
    split at member
    · next mutations handle? made => exact ⟨mutations, handle?, made, rfl, List.mem_append.mp member⟩
    · cases member
  · rintro ⟨mutations, handle?, made, rfl, member⟩
    exact List.mem_append.mpr member

theorem mem_lookedUp (e : Event) (h : Handle) (k : Key) :
    k ∈ e.lookedUp h ↔ ∃ keys found, e = lookup keys (some h) (.ok found) ∧ k ∈ keys := by
  constructor
  · intro member
    unfold lookedUp at member
    split at member
    · next keys handle? found =>
        split at member
        · next own => exact ⟨keys, found, own ▸ rfl, member⟩
        · cases member
    · cases member
  · rintro ⟨keys, found, rfl, member⟩
    simpa [lookedUp] using member

theorem query?_eq_some (e : Event) (h : Handle) (q : StructuredQuery) :
    e.query? h = some q ↔ ∃ query page, e = runQuery query (some h) .none (.ok page) ∧
      query.toStructured = .ok q := by
  constructor
  · intro served
    unfold query? at served
    split at served
    · next query handle? page =>
        split at served
        · next own =>
            cases structured : query.toStructured with
            | error error => simp [structured, Except.toOption] at served
            | ok found =>
                simp only [structured, Except.toOption, Option.some.injEq] at served
                exact ⟨query, page, own ▸ rfl, by rw [structured, served]⟩
        · cases served
    · cases served
  · rintro ⟨query, page, rfl, structured⟩
    simp [query?, structured, Except.toOption]

end Event

/-- A transaction after an event. -/
def OpenTransaction.after (h : Handle) (t : OpenTransaction) (e : Event) : OpenTransaction :=
  (t.reading (e.reads h t.snapshot)).watching (e.scopes h)

namespace Store

/-- One call of a client. -/
def perform (s : Store) : Request → Event × Store
  | .lookup keys handle? => (s.lookup keys handle?).map (.lookup keys handle?) id
  | .runQuery query handle? token =>
    (s.runQuery query handle? token).map (.runQuery query handle? token) id
  | .commit mutations handle? => (s.commit mutations handle?).map (.commit mutations handle?) id
  | .beginTransaction => s.beginTransaction.map .beginTransaction id
  | .rollback h => (.rollback h, s.rollback h)
  | .allocateIds keys => (s.allocateIds keys).map (.allocateIds keys) id

/-- The calls of any number of clients in the order in which the store takes them. -/
def run (s : Store) : List Request → List Event × Store
  | [] => ([], s)
  | request :: rest =>
    let (event, next) := s.perform request
    let (later, last) := next.run rest
    (event :: later, last)

theorem run_cons (s : Store) (request : Request) (rest : List Request) :
    s.run (request :: rest) =
      ((s.perform request).1 :: ((s.perform request).2.run rest).1, ((s.perform request).2.run rest).2) := rfl

theorem run_append (s : Store) (first second : List Request) :
    (s.run (first ++ second)).2 = ((s.run first).2.run second).2 := by
  induction first generalizing s with
  | nil => rfl
  | cons request rest ih => exact ih (s.perform request).2

/-- The store that some calls lead to from an empty one. -/
def reached (limits : StoreLimits) (requests : List Request) : Store :=
  ((empty limits).run requests).2

end Store

end EntityStore
