import EntityStore.Store.Allocation

/-!
Commits.  The mutations are applied in order to a copy of the entities, and only if all of them can be
applied the copy takes the place of the entities.  A transaction can only commit if nothing that it has
read or writes changed since it began.
-/

set_option autoImplicit false

namespace EntityStore

/-- Why the store in memory refuses a commit. -/
inductive Refusal where
  | unknownTransaction
  | conflict (key : Key)
  | incomplete (mutation : Mutation)
  | present (key : Key)
  | absent (key : Key)

namespace Refusal

def code : Refusal → ErrorCode
  | unknownTransaction => .failedPrecondition
  | conflict _ => .aborted
  | incomplete _ => .invalidArgument
  | present _ => .alreadyExists
  | absent _ => .notFound

def message : Refusal → String
  | unknownTransaction => "Unknown or finished transaction"
  | conflict key => "Concurrent modification of " ++ key.text
  | incomplete mutation => mutation.text ++ " requires a complete key"
  | present key => "Entity already exists: " ++ key.text
  | absent key => "No entity to update: " ++ key.text

/-- The refusal as the answer to a commit. -/
def response (r : Refusal) : CommitResponse := ⟨[], some ⟨r.code, r.message⟩⟩

end Refusal

/-- Why a list of mutations is not applied to its end. -/
inductive Halt where
  | refused (r : Refusal)
  | failed (e : Error)

/-- A commit under way: the entities as they will be, the ids given out, the keys made, and the keys
named so far. -/
structure Progress where
  entities : Bindings Key Entity
  counters : Counters
  assigned : List Key
  touched : List AnyKey

namespace Progress

/-- Stores an entity under its key. -/
def store (p : Progress) (e : Entity) : Progress :=
  { p with entities := p.entities.put e.key e, touched := p.touched ++ [.complete e.key] }

/-- Applies one mutation.  Keys that are stored, or named anywhere in the commit, are not given to
entities that come without one. -/
def apply (reserved : List Key) (p : Progress) (m : Mutation) : Except Halt Progress :=
  match m.kind, m.key with
  | .delete, .incomplete space => .ok { p with touched := p.touched ++ [.incomplete space] }
  | .delete, .complete k =>
    .ok { p with entities := p.entities.remove k, touched := p.touched ++ [.complete k] }
  | .add, .incomplete space =>
    match p.counters.allocate (reserved ++ p.entities.names) space with
    | .error e => .error (.failed e)
    | .ok (k, counters) =>
      .ok ({ p with counters, assigned := p.assigned ++ [k] }.store ⟨.stored, k, m.properties⟩)
  | .put, .incomplete _ => .error (.refused (.incomplete m))
  | .update, .incomplete _ => .error (.refused (.incomplete m))
  | .add, .complete k =>
    if p.entities.binds k then .error (.refused (.present k))
    else .ok (p.store ⟨m.shape, k, m.properties⟩)
  | .update, .complete k =>
    if p.entities.binds k then .ok (p.store ⟨m.shape, k, m.properties⟩)
    else .error (.refused (.absent k))
  | .put, .complete k => .ok (p.store ⟨m.shape, k, m.properties⟩)

/-- Applies mutations in order up to the first one that cannot be applied. -/
def applyAll (reserved : List Key) : Progress → List Mutation → Progress × Except Halt Unit
  | p, [] => (p, .ok ())
  | p, m :: rest =>
    match p.apply reserved m with
    | .ok next => applyAll reserved next rest
    | .error halt => (p, .error halt)

end Progress

/-- The complete keys that mutations name. -/
def namedKeys (mutations : List Mutation) : List Key := mutations.filterMap (·.key.key?)

/-- A key that the transaction has read or now writes and that changed since it began, or one at or below which it has
queried and something changed.  Which of several it is, here the first in the list, only the message shows. -/
def OpenTransaction.conflict? (t : OpenTransaction) (s : Store) (mutations : List Mutation) :
    Option Key :=
  ((t.reads ++ namedKeys mutations).find? fun k => t.version < s.versionOf (.complete k)) <|>
  t.scopes.find? fun scope => s.versions.any fun e => t.version < e.2 && e.1.isWithin scope

namespace Store

/-- The versions after a commit that named some keys. -/
def touching (s : Store) (touched : List AnyKey) : Store :=
  { s with
    version := s.version + 1
    versions := touched.foldl (fun versions k => versions.put k (s.version + 1)) s.versions }

/-- Applies mutations, all or none.  In the end the keys that they name get the new version, and their ids are counted
as given out.  The keys are a set, but settled here in the order of the mutations, which shows only if a key without an
id or name was to be deleted: then it fails when this key and those before it have their versions. -/
def applyMutations (s : Store) (mutations : List Mutation) :
    Except Error CommitResponse × Store :=
  let reserved := s.entities.names ++ namedKeys mutations
  match Progress.applyAll reserved ⟨s.entities, s.counters, [], []⟩ mutations with
  | (p, .error (.refused r)) => (.ok r.response, { s with counters := p.counters })
  | (p, .error (.failed e)) => (.error e, { s with counters := p.counters })
  | (p, .ok ()) =>
    if p.touched.all AnyKey.isComplete then
      (.ok ⟨p.assigned, none⟩,
        { s.touching p.touched with
          entities := p.entities
          counters := (p.touched.filterMap AnyKey.key?).foldl Counters.reserve p.counters })
    else
      let settled := p.touched.takeWhile AnyKey.isComplete
      (.error (.failure .incompleteDelete),
        { s.touching (p.touched.take (settled.length + 1)) with
          counters := (settled.filterMap AnyKey.key?).foldl Counters.reserve p.counters })

/-- Commits mutations, on their own or for a transaction, which is then at its end. -/
def commit (s : Store) (mutations : List Mutation) (handle? : Option Handle) :
    Except Error CommitResponse × Store :=
  let s := s.noting .commit
  match handle? with
  | none => s.applyMutations mutations
  | some h =>
    match s.transactions.at? h with
    | none => (.ok Refusal.unknownTransaction.response, s)
    | some t =>
      let s := { s with transactions := s.transactions.remove h }
      match t.conflict? s mutations with
      | some k => (.ok (Refusal.conflict k).response, s)
      | none => s.applyMutations mutations

end Store

end EntityStore
