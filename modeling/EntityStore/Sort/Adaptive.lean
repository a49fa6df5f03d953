import EntityStore.Sort.Merge

/-!
Sorting by merging the runs of a list.  Runs are stacked, and a run is merged with its neighbour as soon as
the boundary between them lies deeper in the halved list than the next one.  For an order in which all
items compare this is one of the stable sorts; in other cases the outcome depends on which items are
compared, and this procedure fixes it.
-/

set_option autoImplicit false

namespace EntityStore.Sort

variable {α : Type}

/-- How deep a boundary lies: the number of times a list has to be halved until the middles of the two
runs next to the boundary, here doubled, fall into different parts. -/
def depth (size : Nat) : Nat → Nat → Nat → Nat
  | 0, _, _ => 0
  | rounds + 1, left, right =>
    if size ≤ left then depth size rounds (2 * (left - size)) (2 * (right - size)) + 1
    else if size ≤ right then 1
    else depth size rounds (2 * left) (2 * right) + 1

/-- A run on the stack: where it starts, its items, and how deep the boundary behind it lies. -/
structure Stacked (α : Type) where
  start : Nat
  items : List α
  depth : Nat

/-- A stack of runs, the last one first, and the number of wins after which merges leap. -/
structure Stack (α : Type) where
  runs : List (Stacked α)
  limit : Nat

variable (below : α → α → Bool)

/-- The run made of a run and the one on top of it. -/
def Stacked.merge (limit : Nat) (under top : Stacked α) : Stacked α × Nat :=
  let (items, limit) := mergeRuns below limit under.items top.items
  (⟨under.start, items, top.depth⟩, limit)

/-- Merges the run on top with those under it whose boundary lies deeper than a new one. -/
def collapse (boundary : Nat) : List (Stacked α) → Stacked α → Nat → Stack α
  | [], top, limit => ⟨[{ top with depth := boundary }], limit⟩
  | under :: rest, top, limit =>
    if boundary < under.depth then
      let (merged, limit) := under.merge below limit top
      collapse boundary rest merged limit
    else ⟨{ top with depth := boundary } :: under :: rest, limit⟩

/-- The stack with a further run of a list of some size. -/
def push (size : Nat) (stack : Stack α) (run : List α) : Stack α :=
  match stack.runs with
  | [] => { stack with runs := [⟨0, run, 0⟩] }
  | top :: rest =>
    let left := 2 * top.start + top.items.length
    let boundary := depth size size left (left + top.items.length + run.length)
    let stack := collapse below boundary rest top stack.limit
    { stack with runs := ⟨top.start + top.items.length, run, 0⟩ :: stack.runs }

/-- Merges all runs, those next to the top first unless the run below is shorter than the top.  Each round
leaves a run less. -/
def mergeAll : Nat → Nat → List (Stacked α) → List α
  | _, _, [] => []
  | _, _, [run] => run.items
  | 0, _, runs => runs.reverse.flatMap Stacked.items
  | rounds + 1, limit, [top, under] =>
    mergeAll rounds limit [(under.merge below limit top).1]
  | rounds + 1, limit, top :: middle :: under :: rest =>
    if under.items.length < top.items.length then
      let (merged, limit) := under.merge below limit middle
      mergeAll rounds limit (top :: merged :: rest)
    else
      let (merged, limit) := middle.merge below limit top
      mergeAll rounds limit (merged :: under :: rest)

/-- The items of a list in order. -/
def adaptive (items : List α) : List α :=
  let stack := (runs below items).foldl (push below items.length) ⟨[], 7⟩
  mergeAll below stack.runs.length stack.limit stack.runs

end EntityStore.Sort
