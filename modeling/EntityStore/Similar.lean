import EntityStore.Number.Rounding

set_option autoImplicit false

namespace EntityStore.Similar

variable {α : Type} [BEq α]

/-- An item of the sequence that is searched.  A frequent one starts no run but may extend one. -/
structure Indexed (α : Type) where
  item : α
  frequent : Bool

/-- A long sequence has frequent items: those that make up more than one hundredth of it. -/
def indexed (items : List α) : List (Indexed α) :=
  let size := items.length
  items.map fun c => ⟨c, 200 ≤ size && size / 100 + 1 < items.count c⟩

/-- A common run: where it starts in either sequence, and its length. -/
structure Run where
  left : Nat
  right : Nat
  size : Nat

/-- The lengths of the runs that end at one item of the first sequence and each item of the second, from
the lengths for the item before it. -/
def runLengths (c : α) : List (Indexed α) → Nat → List Nat → List Nat
  | [], _, _ => []
  | d :: ds, diagonal, lengths =>
    (if c == d.item && !d.frequent then diagonal + 1 else 0) ::
      runLengths c ds (lengths.headD 0) lengths.tail

/-- The longer of a run and the best one that ends at a given item of the first sequence; the earlier
one wins a tie. -/
def longer (left : Nat) : List Nat → Nat → Run → Run
  | [], _, best => best
  | size :: rest, right, best =>
    longer left rest (right + 1)
      (if best.size < size then ⟨left + 1 - size, right + 1 - size, size⟩ else best)

/-- The longest common run without frequent items. -/
def longestRun (b : List (Indexed α)) : List α → Nat → List Nat → Run → Run
  | [], _, _, best => best
  | c :: rest, left, lengths, best =>
    let next := runLengths c b 0 lengths
    longestRun b rest (left + 1) next (longer left next 0 best)

/-- Whether on one side of their longest common run both sequences have items left. -/
def goesOn (a : List α) (b : List (Indexed α)) : Bool :=
  let run := longestRun b a 0 [] ⟨0, 0, 0⟩
  (0 < run.left && 0 < run.right) ||
    (run.left + run.size < a.length && run.right + run.size < b.length)

/-- The number of equal items at the start of two sequences. -/
def commonStart : List α → List (Indexed α) → Nat
  | c :: cs, d :: ds => if c == d.item then commonStart cs ds + 1 else 0
  | _, _ => 0

/-- The longest common run, extended by equal items at both ends. -/
def matchingRun (a : List α) (b : List (Indexed α)) : Run :=
  let run := longestRun b a 0 [] ⟨0, 0, 0⟩
  let before := commonStart (a.take run.left).reverse (b.take run.right).reverse
  let after := commonStart (a.drop (run.left + run.size)) (b.drop (run.right + run.size))
  ⟨run.left - before, run.right - before, before + run.size + after⟩

/-- The number of items in matching blocks.  Each block takes an item of the first sequence, so as many
rounds as it has items are enough. -/
def matchedWithin : Nat → List α → List (Indexed α) → Nat
  | 0, _, _ => 0
  | rounds + 1, a, b =>
    let run := matchingRun a b
    if run.size = 0 then 0
    else run.size + matchedWithin rounds (a.take run.left) (b.take run.right) +
      matchedWithin rounds (a.drop (run.left + run.size)) (b.drop (run.right + run.size))

/-- The number of items that two sequences share, wherever they stand. -/
def shared : List α → List α → Nat
  | [], _ => 0
  | c :: cs, b => if b.contains c then shared cs (b.erase c) + 1 else shared cs b

/-- A degree of resemblance: twice the number of items counted as alike, over that of all items. -/
structure Resemblance where
  doubled : Nat
  total : Nat
deriving DecidableEq

namespace Resemblance

/-- How well a candidate resembles a name: by the items in matching blocks. -/
def of (name candidate : List α) : Resemblance :=
  ⟨2 * matchedWithin candidate.length candidate (indexed name), name.length + candidate.length⟩

/-- The resemblance of two sequences of which nothing but the items is known. -/
def ofItems (name candidate : List α) : Resemblance :=
  ⟨2 * shared candidate name, name.length + candidate.length⟩

/-- The resemblance of two sequences of which nothing but the lengths is known. -/
def ofSizes (m n : Nat) : Resemblance := ⟨2 * min m n, m + n⟩

/-- At least three fifths of the items match; two empty sequences match wholly. -/
def isClose (r : Resemblance) : Bool := r.total = 0 || 3 * r.total ≤ 5 * r.doubled

/-- The ratio of one is below that of the other. -/
def below (r s : Resemblance) : Bool :=
  if r.total = 0 then false
  else if s.total = 0 then r.doubled < r.total
  else r.doubled * s.total < s.doubled * r.total

end Resemblance

/-- The better candidate comes first, of equally good ones the greater text. -/
def precedes (x y : Resemblance × String) : Bool :=
  y.1.below x.1 || (!x.1.below y.1 && y.2 ≤ x.2)

/-- At most three texts among rated ones, the closest first. -/
def best (rated : List (Resemblance × String)) : List String :=
  (((rated.filter (·.1.isClose)).mergeSort precedes).take 3).map Prod.snd

/-- At most three of the known names, the closest first. -/
def closeTo (name : String) (known : List String) : List String :=
  best (known.map fun candidate => (Resemblance.of name.toList candidate.toList, candidate))

end EntityStore.Similar
