import EntityStore.Key.Create
import EntityStore.Store.Remote

set_option autoImplicit false

namespace EntityStore

/-- What a scripted store does when mutations are committed. -/
inductive PreparedCommit where
  | answer (response : CommitResponse)
  | failure (code : ErrorCode)

/-- A scripted store: the answers that are left, and the calls so far. -/
structure Script where
  commits : List PreparedCommit
  pages : List QueryPage
  calls : List StoreCall

namespace Script

def noting (s : Script) (call : StoreCall) : Script := { s with calls := s.calls ++ [call] }

/-- The next prepared commit; when all are used up nothing is assigned and nothing fails. -/
def commit (s : Script) : Except Error CommitResponse × Script :=
  let s := s.noting .commit
  match s.commits with
  | [] => (.ok ⟨[], none⟩, s)
  | .answer response :: rest => (.ok response, { s with commits := rest })
  | .failure code :: rest => (.error (.remote code "scripted"), { s with commits := rest })

/-- The next prepared page; when all are used up an empty last one. -/
def page (s : Script) : QueryPage × Script :=
  let s := s.noting .runQuery
  match s.pages with
  | [] => (⟨[], .full, none⟩, s)
  | page :: rest => (page, { s with pages := rest })

/-- Keys with the ids 1, 2 and so on. -/
def numbered : Nat → List Datum → Except Error (List Key)
  | _, [] => .ok []
  | n, .key k :: rest => do
    let id ← EntityId.create (.int (n + 1 : Nat))
    return k.toPartialKey.withIdentifier (.id id) :: (← numbered (n + 1) rest)
  | _, _ :: _ => .error (.failure .argumentType)

/-- The scripted store as a store that clients can talk to. -/
def remote : Remote Script where
  lookup keys _ s := (.ok (keys.map fun _ => none), s.noting .lookup)
  runQuery _ _ _ s := s.page.map .ok id
  commit _ _ s := s.commit
  beginTransaction s := (⟨"scripted"⟩, s.noting .beginTransaction)
  rollback _ s := ((), s.noting .rollback)
  allocateIds keys s := (numbered 0 keys, s.noting .allocateIds)
  pagesLeft s := s.pages.length + 1

end Script

end EntityStore
