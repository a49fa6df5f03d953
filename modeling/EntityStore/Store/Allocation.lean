import EntityStore.Key.Create
import EntityStore.Store.Basic

set_option autoImplicit false

namespace EntityStore

/-- The id that a key has in a space. -/
def Key.idIn? (k : Key) (space : PartialKey) : Option Nat :=
  match k.identifier with
  | .id n => if k.toPartialKey = space then some n.value else none
  | .name _ => none

/-- The first number from a given one on that is not used; at most a given number of them are passed
over. -/
def firstFree (used : List Nat) : Nat → Nat → Nat
  | 0, n => n
  | rounds + 1, n => if used.contains n then firstFree used rounds (n + 1) else n

/-- The ids that some keys have in a space. -/
def usedIds (taken : List Key) (space : PartialKey) : List Nat := taken.filterMap (·.idIn? space)

/-- The ids given out in each space. -/
abbrev Counters := Bindings PartialKey Nat

namespace Counters

/-- A key in a space with the first id past those given out that none of some keys has.  As many
numbers are passed over as there are such keys, at most. -/
def allocate (counters : Counters) (taken : List Key) (space : PartialKey) :
    Except Error (Key × Counters) :=
  let used := usedIds taken space
  let n := firstFree used used.length ((counters.at? space).getD 0 + 1)
  match EntityId.ofInt? n with
  | some id => .ok (space.withIdentifier (.id id), counters.put space n)
  | none => .error (KeyFault.idRange n).error

/-- Counts the id of a key as given out, and all smaller ones. -/
def reserve (counters : Counters) (k : Key) : Counters :=
  match k.identifier with
  | .id n =>
    if (counters.at? k.toPartialKey).getD 0 < n.value then counters.put k.toPartialKey n.value
    else counters
  | .name _ => counters

/-- A key for each of some spaces, in order.  The ids found before one is missing stay given out. -/
def allocateAll (taken : List Key) :
    Counters → List PartialKey → Except Error (List Key) × Counters
  | counters, [] => (.ok [], counters)
  | counters, space :: rest =>
    match counters.allocate taken space with
    | .error e => (.error e, counters)
    | .ok (key, counters) =>
      let (keys, counters) := allocateAll taken counters rest
      (keys.map (key :: ·), counters)

end Counters

/-- Ids are allocated for partial keys only. -/
def PartialKey.checkAll : List Datum → Except Error (List PartialKey)
  | [] => .ok []
  | .key (.incomplete space) :: rest => (space :: ·) <$> checkAll rest
  | d :: _ => .error (CallFault.allocateKey d.describe).error

namespace Store

/-- Allocates a key for each of some partial keys. -/
def allocateIds (s : Store) (keys : List Datum) : Except Error (List Key) × Store :=
  match PartialKey.checkAll keys with
  | .error e => (.error e, s)
  | .ok spaces =>
    let s := s.noting .allocateIds
    let (made, counters) := Counters.allocateAll s.entities.names s.counters spaces
    (made, { s with counters })

end Store

end EntityStore
