import EntityStore.Key.Order
import EntityStore.Query.Basic

/-!
Index entries: what conditions and orders see of a value.  An entry has a rank for its sort of payloads,
and only entries of one rank are compared by payload.  Integers and moments share a rank, and so do the
two sorts of byte strings.
-/

set_option autoImplicit false

namespace EntityStore

inductive IndexEntry where
  | null
  /-- An integer, or the microseconds of a moment. -/
  | integer (n : Int)
  | boolean (b : Bool)
  | bytes (b : List UInt8)
  | text (s : String)
  | double (x : Double)
  | key (place : KeyPlace)

namespace IndexEntry

def rank : IndexEntry → Nat
  | null => 0
  | integer _ => 1
  | boolean _ => 2
  | bytes _ => 3
  | text _ => 4
  | double _ => 5
  | key _ => 6

/-- Equality of payloads of one rank; entries of different ranks are not equal. -/
def same : IndexEntry → IndexEntry → Bool
  | null, null => true
  | integer m, integer n => m = n
  | boolean a, boolean b => a = b
  | bytes a, bytes b => a = b
  | text a, text b => a = b
  | double x, double y => x.same y
  | key p, key q => p = q
  | _, _ => false

/-- The strict order of payloads of one rank. -/
def payloadBelow : IndexEntry → IndexEntry → Bool
  | integer m, integer n => m < n
  | boolean a, boolean b => !a && b
  | bytes a, bytes b => a < b
  | text a, text b => a < b
  | double x, double y => x.below y
  | key p, key q => KeyPlace.cmp p q = .lt
  | _, _ => false

/-- The strict order of entries, by rank and then by payload. -/
def below (a b : IndexEntry) : Bool := a.rank < b.rank || (a.rank == b.rank && a.payloadBelow b)

/-- Whether the entry is ordered with regard to all others: a not-a-number is not. -/
def isComparable : IndexEntry → Bool
  | double x => !x.isNaN
  | _ => true

/-- The first of the smallest entries. -/
def smallest (first : IndexEntry) (more : List IndexEntry) : IndexEntry :=
  more.foldl (fun best e => if e.below best then e else best) first

/-- The first of the largest entries. -/
def largest (first : IndexEntry) (more : List IndexEntry) : IndexEntry :=
  more.foldl (fun best e => if best.below e then e else best) first

end IndexEntry

/-- Whether two payloads of one rank stand in a relation. -/
def Comparison.holds (r : Comparison) (a b : IndexEntry) : Bool :=
  match r with
  | less => a.payloadBelow b
  | lessOrEqual => a.payloadBelow b || a.same b
  | greater => b.payloadBelow a
  | greaterOrEqual => b.payloadBelow a || a.same b
  | equal => a.same b

end EntityStore
