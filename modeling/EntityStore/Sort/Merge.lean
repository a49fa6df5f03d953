import EntityStore.Sort.Run

/-!
Merging two runs.  The shorter one is set aside, and items are taken from either run, starting at the end
where the shorter one lies.  Once a run has been ahead often enough in a row, the merge leaps: it searches
with doubling strides for the place up to which items can be taken at once.
-/

set_option autoImplicit false

namespace EntityStore.Sort

variable {α : Type}

/-- Tests items at doubling strides; answers the last place that passes and the first place that is not
known to pass. -/
def stride (passes : α → Bool) (items : List α) : Nat → Nat → Nat → Nat × Nat
  | 0, last, _ => (last, items.length)
  | rounds + 1, last, next =>
    match items[next]? with
    | none => (last, items.length)
    | some x => if passes x then stride passes items rounds next (2 * next + 1) else (last, next)

/-- How many items at the start pass a test, as far as strides and halving find out. -/
def leading (side : Side) (passes : α → Bool) (items : List α) : Nat :=
  if items.head?.any passes then
    let (last, next) := stride passes items items.length 0 1
    endWithin side passes items (last + 1) next
  else 0

/-- A merge under way: the items taken, the last one first, and what is left of the run set aside and of
the other one. -/
structure Merging (α : Type) where
  taken : List α
  aside : List α
  other : List α

namespace Merging

/-- Whether the order of the items left is settled: at most one is left aside, or no other. -/
def settled (m : Merging α) : Bool := m.aside.length ≤ 1 || m.other.isEmpty

/-- The merged items in the order in which they are taken. -/
def items (m : Merging α) : List α := m.taken.reverse ++ m.other ++ m.aside

def takeAside (m : Merging α) (count : Nat) : Merging α :=
  ⟨(m.aside.take count).reverse ++ m.taken, m.aside.drop count, m.other⟩

def takeOther (m : Merging α) (count : Nat) : Merging α :=
  ⟨(m.other.take count).reverse ++ m.taken, m.aside, m.other.drop count⟩

/-- Takes one item after the other until one run has been ahead a number of times in a row. -/
def alternate (below : α → α → Bool) (limit : Nat) :
    Nat → Nat → Nat → Merging α → Merging α
  | 0, _, _, m => m
  | rounds + 1, asideWins, otherWins, m =>
    if m.settled || limit ≤ asideWins || limit ≤ otherWins then m
    else
      match m.aside, m.other with
      | x :: _, y :: _ =>
        if below y x then alternate below limit rounds 0 (otherWins + 1) (m.takeOther 1)
        else alternate below limit rounds (asideWins + 1) 0 (m.takeAside 1)
      | _, _ => m

/-- Takes all items set aside that the next other item is not below, and then that one; says whether there
were many. -/
def leapAside (side : Side) (below : α → α → Bool) (m : Merging α) : Bool × Merging α :=
  match m.other with
  | [] => (false, m)
  | y :: _ =>
    let count := leading side (fun x => !below y x) m.aside
    let m := m.takeAside count
    (7 ≤ count, if m.settled then m else m.takeOther 1)

/-- Takes all other items that are below the next item set aside, and then that one; says whether there
were many. -/
def leapOther (side : Side) (below : α → α → Bool) (m : Merging α) : Bool × Merging α :=
  match m.aside with
  | [] => (false, m)
  | x :: _ =>
    let count := leading side (fun y => below y x) m.other
    let m := m.takeOther count
    (7 ≤ count, if m.settled then m else m.takeAside 1)

/-- Leaps in both runs. -/
def leap (side : Side) (below : α → α → Bool) (m : Merging α) : Bool × Merging α :=
  let (first, second) := match side with
    | .front => (leapAside side below, leapOther side below)
    | .back => (leapOther side below, leapAside side below)
  let (many, m) := first m
  if m.settled then (many, m)
  else
    let (more, m) := second m
    (many || more, m)

/-- Merges to the end, in a number of rounds at most.  A merge that gains by leaping starts to leap
sooner, one that does not starts later; the number of wins that it takes is answered as well. -/
def finish (side : Side) (below : α → α → Bool) : Nat → Bool → Nat → Merging α → Merging α × Nat
  | 0, _, limit, m => (m, limit)
  | rounds + 1, true, limit, m =>
    let (many, m) := leap side below m
    if m.settled then (m, limit)
    else if many then finish side below rounds true (max 1 (limit - 1)) m
    else finish side below rounds false (limit + 1) m
  | rounds + 1, false, limit, m =>
    let m := alternate below limit (m.aside.length + m.other.length) 0 0 m
    if m.settled then (m, limit) else finish side below rounds true limit m

end Merging

/-- Merges a shorter run that is set aside with the other one, whose first item is known to come first.
Each round takes an item and every second one may only prepare for it. -/
def mergeAside (side : Side) (below : α → α → Bool) (limit : Nat) (aside other : List α) :
    List α × Nat :=
  let start : Merging α := (Merging.mk [] aside other).takeOther 1
  let (m, limit) := start.finish side below (2 * (aside.length + other.length)) false limit
  (m.items, limit)

/-- Merges two neighbouring runs.  Items of the left run that belong before the right one, and items of
the right run that belong behind the left one, stay where they are. -/
def mergeRuns (below : α → α → Bool) (limit : Nat) (left right : List α) : List α × Nat :=
  let before := match right with
    | [] => left.length
    | y :: _ => leading .front (fun x => !below y x) left
  let middle := left.drop before
  let behind := match middle.getLast? with
    | none => right.length
    | some x => leading .back (fun y => !below y x) right.reverse
  let inner := right.take (right.length - behind)
  let (merged, limit) :=
    if inner.isEmpty then (middle, limit)
    else if middle.length ≤ inner.length then mergeAside .front below limit middle inner
    else
      let (merged, limit) :=
        mergeAside .back (fun x y => below y x) limit inner.reverse middle.reverse
      (merged.reverse, limit)
  (left.take before ++ merged ++ right.drop (right.length - behind), limit)

end EntityStore.Sort
