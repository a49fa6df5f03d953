set_option autoImplicit false

namespace EntityStore.Sort

/-- The end of a run that a search starts from. -/
inductive Side where
  | front | back
deriving DecidableEq

/-- The middle of a stretch of places.  Places count from the side on which the search starts; of two
middle ones the later one in the run itself is taken. -/
def Side.middle : Side → Nat → Nat → Nat
  | front, low, high => low + (high - low) / 2
  | back, low, high => high - 1 - (high - low) / 2

theorem Side.le_middle (side : Side) {low high : Nat} (h : low < high) :
    low ≤ side.middle low high := by
  cases side <;> simp only [middle] <;> omega

theorem Side.middle_lt (side : Side) {low high : Nat} (h : low < high) :
    side.middle low high < high := by
  cases side <;> simp only [middle] <;> omega

variable {α : Type}

/-- The place between two others up to which items pass a test, found by halving. -/
def endWithin (side : Side) (passes : α → Bool) (items : List α) (low high : Nat) : Nat :=
  if h : low < high then
    match items[side.middle low high]? with
    | none => low
    | some x =>
      have := side.le_middle h
      have := side.middle_lt h
      if passes x then endWithin side passes items (side.middle low high + 1) high
      else endWithin side passes items low (side.middle low high)
  else low
termination_by high - low

variable (below : α → α → Bool)

/-- How many items fall strictly, one below the other, from a given one on. -/
def falling (x : α) : List α → Nat
  | [] => 0
  | y :: rest => if below y x then falling y rest + 1 else 0

/-- How many items follow a given one without falling. -/
def rising (x : α) : List α → Nat
  | [] => 0
  | y :: rest => if below y x then 0 else rising y rest + 1

/-- The first run in order, and the items after it. -/
def firstRun : List α → List α × List α
  | [] => ([], [])
  | x :: rest =>
    if falling below x rest = 0 then
      let size := rising below x rest
      (x :: rest.take size, rest.drop size)
    else
      let size := falling below x rest
      ((x :: rest.take size).reverse, rest.drop size)

/-- A run with one more item. -/
def insert (run : List α) (x : α) : List α :=
  let place := endWithin .front (fun y => !below x y) run 0 run.length
  run.take place ++ x :: run.drop place

/-- The shortest run that is worth merging: the whole list if it is short, and else a stretch that
divides the list into about a power of two of equal parts. -/
def leastSize (carry n : Nat) : Nat :=
  if n < 64 then n + carry else leastSize (max carry (n % 2)) (n / 2)
termination_by n

/-- The runs of a list in order, none but the last shorter than a given size.  Each run takes an item,
so as many rounds as there are items are enough. -/
def runsWithin (least : Nat) : Nat → List α → List (List α)
  | 0, _ => []
  | _ + 1, [] => []
  | rounds + 1, x :: items =>
    let (run, rest) := firstRun below (x :: items)
    let missing := least - run.length
    (rest.take missing).foldl (insert below) run :: runsWithin least rounds (rest.drop missing)

/-- The runs that a list is sorted from. -/
def runs (items : List α) : List (List α) :=
  runsWithin below (leastSize 0 items.length) items.length items

end EntityStore.Sort
