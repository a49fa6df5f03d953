import EntityStore.Store.Commit
import EntityStore.Store.Read

set_option autoImplicit false

namespace EntityStore.Store

/-- The number of rows that unfinished queries still have, and one page more. -/
def pagesLeft (s : Store) : Nat := s.cursors.foldr (fun entry count => entry.2.rows.length + count) 0 + 1

/-- The store in memory. -/
def remote : Remote Store where
  lookup keys handle? s := s.lookup keys handle?
  runQuery query handle? token s := s.runQuery query handle? token
  commit mutations handle? s := s.commit mutations handle?
  beginTransaction s := s.beginTransaction
  rollback h s := ((), s.rollback h)
  allocateIds keys s := s.allocateIds keys
  pagesLeft := pagesLeft

end EntityStore.Store
