import EntityStore.Sort.Keyed
import Mathlib.Data.List.Forall2

/-!
Sorting looks at nothing but how items compare.  Items that are replaced one by one end up in the same places, as
long as the ones in their stead compare as they did; so lists with the same keys are sorted alike, whatever the
items are.
-/

set_option autoImplicit false

namespace EntityStore.Sort

variable {α β κ : Type}

section Replaced

variable (f : α → β)

theorem endWithin_map (side : Side) (passes : β → Bool) (items : List α) (low high : Nat) :
    endWithin side passes (items.map f) low high = endWithin side (fun x => passes (f x)) items low high := by
  fun_induction endWithin side (fun x => passes (f x)) items low high with
  | case1 low high inside none =>
      rw [endWithin, dif_pos inside, List.getElem?_map, none]
      rfl
  | case2 low high inside x found _ _ passed ih =>
      rw [endWithin, dif_pos inside, List.getElem?_map, found]
      simp only [Option.map_some, passed, ↓reduceIte, ih]
  | case3 low high inside x found _ _ failed ih =>
      rw [endWithin, dif_pos inside, List.getElem?_map, found]
      simp only [Option.map_some, failed, Bool.false_eq_true, ↓reduceIte, ih]
  | case4 low high outside => rw [endWithin, dif_neg outside]

variable (below : β → β → Bool)

theorem falling_map (x : α) (items : List α) :
    falling below (f x) (items.map f) = falling (fun a b => below (f a) (f b)) x items := by
  induction items generalizing x with
  | nil => rfl
  | cons y rest ih => rw [List.map_cons, falling, falling, ih]

theorem rising_map (x : α) (items : List α) :
    rising below (f x) (items.map f) = rising (fun a b => below (f a) (f b)) x items := by
  induction items generalizing x with
  | nil => rfl
  | cons y rest ih => rw [List.map_cons, rising, rising, ih]

theorem firstRun_map (items : List α) :
    firstRun below (items.map f) =
      (firstRun (fun a b => below (f a) (f b)) items).map (List.map f) (List.map f) := by
  cases items with
  | nil => rfl
  | cons x rest =>
      rw [List.map_cons, firstRun, firstRun, falling_map, rising_map]
      split
      · simp only [Prod.map_apply, List.map_cons, List.map_take, List.map_drop]
      · simp only [Prod.map_apply, List.map_reverse, List.map_cons, List.map_take, List.map_drop]

theorem insert_map (run : List α) (x : α) :
    insert below (run.map f) (f x) = (insert (fun a b => below (f a) (f b)) run x).map f := by
  simp only [insert, endWithin_map, List.length_map, List.map_append, List.map_take, List.map_cons, List.map_drop]

theorem foldl_insert_map (items run : List α) :
    (items.map f).foldl (insert below) (run.map f) =
      (items.foldl (insert fun a b => below (f a) (f b)) run).map f := by
  induction items generalizing run with
  | nil => rfl
  | cons x rest ih => rw [List.map_cons, List.foldl_cons, List.foldl_cons, insert_map, ih]

theorem runsWithin_map (least rounds : Nat) (items : List α) :
    runsWithin below least rounds (items.map f) =
      (runsWithin (fun a b => below (f a) (f b)) least rounds items).map (List.map f) := by
  induction rounds generalizing items with
  | zero => rfl
  | succ rounds ih =>
      cases items with
      | nil => rfl
      | cons x rest =>
          have first := firstRun_map f below (x :: rest)
          rw [List.map_cons] at first ⊢
          simp only [runsWithin, first, Prod.map_fst, Prod.map_snd, List.length_map, List.map_cons, ← List.map_take,
            ← List.map_drop, foldl_insert_map, ih]

theorem runs_map (items : List α) :
    runs below (items.map f) = (runs (fun a b => below (f a) (f b)) items).map (List.map f) := by
  rw [runs, runs, runsWithin_map, List.length_map]

theorem stride_map (passes : β → Bool) (items : List α) (rounds last next : Nat) :
    stride passes (items.map f) rounds last next = stride (fun x => passes (f x)) items rounds last next := by
  induction rounds generalizing last next with
  | zero => rw [stride, stride, List.length_map]
  | succ rounds ih =>
      rw [stride, stride, List.getElem?_map]
      cases items[next]? with
      | none => rw [Option.map_none, List.length_map]
      | some x => simp only [Option.map_some, ih]

theorem leading_map (side : Side) (passes : β → Bool) (items : List α) :
    leading side passes (items.map f) = leading side (fun x => passes (f x)) items := by
  simp only [leading, List.head?_map, Option.any_map, stride_map, endWithin_map, List.length_map]

namespace Merging

/-- A merge of the items in the stead of others. -/
def map (m : Merging α) : Merging β := ⟨m.taken.map f, m.aside.map f, m.other.map f⟩

theorem map_aside (m : Merging α) : (m.map f).aside = m.aside.map f := rfl

theorem map_other (m : Merging α) : (m.map f).other = m.other.map f := rfl

theorem settled_map (m : Merging α) : (m.map f).settled = m.settled := by
  simp only [settled, map, List.length_map, List.isEmpty_map]

theorem items_map (m : Merging α) : (m.map f).items = m.items.map f := by
  simp only [items, map, List.map_append, List.map_reverse]

theorem takeAside_map (m : Merging α) (count : Nat) :
    (m.map f).takeAside count = (m.takeAside count).map f := by
  simp only [takeAside, map, List.map_append, List.map_reverse, List.map_take, List.map_drop]

theorem takeOther_map (m : Merging α) (count : Nat) :
    (m.map f).takeOther count = (m.takeOther count).map f := by
  simp only [takeOther, map, List.map_append, List.map_reverse, List.map_take, List.map_drop]

theorem alternate_map (limit rounds asideWins otherWins : Nat) (m : Merging α) :
    alternate below limit rounds asideWins otherWins (m.map f) =
      (alternate (fun a b => below (f a) (f b)) limit rounds asideWins otherWins m).map f := by
  induction rounds generalizing asideWins otherWins m with
  | zero => rfl
  | succ rounds ih =>
      rw [alternate, alternate, settled_map]
      split
      · rfl
      · obtain ⟨taken, aside, other⟩ := m
        cases aside with
        | nil => rfl
        | cons x aside =>
            cases other with
            | nil => rfl
            | cons y other =>
                show (if below (f y) (f x) then
                    alternate below limit rounds 0 (otherWins + 1) (((Merging.mk taken (x :: aside) (y :: other)).map
                      f).takeOther 1)
                  else alternate below limit rounds (asideWins + 1) 0 (((Merging.mk taken (x :: aside)
                    (y :: other)).map f).takeAside 1)) = _
                rw [takeOther_map, takeAside_map, ih, ih]
                exact (apply_ite (map f) _ _ _).symm

theorem leapAside_map (side : Side) (m : Merging α) :
    leapAside side below (m.map f) = (leapAside side (fun a b => below (f a) (f b)) m).map id (map f) := by
  cases next : m.other with
  | nil => simp only [leapAside, map_other, next, List.map_nil, Prod.map_apply, id_eq]
  | cons y other =>
      simp only [leapAside, map_other, map_aside, next, List.map_cons, leading_map, takeAside_map, settled_map,
        takeOther_map, ← apply_ite (map f), Prod.map_apply, id_eq]

theorem leapOther_map (side : Side) (m : Merging α) :
    leapOther side below (m.map f) = (leapOther side (fun a b => below (f a) (f b)) m).map id (map f) := by
  cases next : m.aside with
  | nil => simp only [leapOther, map_aside, next, List.map_nil, Prod.map_apply, id_eq]
  | cons x aside =>
      simp only [leapOther, map_other, map_aside, next, List.map_cons, leading_map, takeOther_map, settled_map,
        takeAside_map, ← apply_ite (map f), Prod.map_apply, id_eq]

theorem leap_map (side : Side) (m : Merging α) :
    leap side below (m.map f) = (leap side (fun a b => below (f a) (f b)) m).map id (map f) := by
  cases side with
  | front =>
      simp only [leap, leapAside_map, leapOther_map, Prod.map_fst, Prod.map_snd, id_eq, settled_map]
      split
      · rfl
      · rfl
  | back =>
      simp only [leap, leapAside_map, leapOther_map, Prod.map_fst, Prod.map_snd, id_eq, settled_map]
      split
      · rfl
      · rfl

theorem finish_map (side : Side) (rounds : Nat) (leaping : Bool) (limit : Nat) (m : Merging α) :
    finish side below rounds leaping limit (m.map f) =
      (finish side (fun a b => below (f a) (f b)) rounds leaping limit m).map (map f) id := by
  induction rounds generalizing leaping limit m with
  | zero => rfl
  | succ rounds ih =>
      cases leaping with
      | true =>
          simp only [finish, leap_map, Prod.map_fst, Prod.map_snd, id_eq, settled_map, ih]
          split
          · rfl
          · split
            · rfl
            · rfl
      | false =>
          simp only [finish, map_aside, map_other, List.length_map, alternate_map, settled_map, ih]
          split
          · rfl
          · rfl

end Merging

theorem mergeAside_map (side : Side) (limit : Nat) (aside other : List α) :
    mergeAside side below limit (aside.map f) (other.map f) =
      (mergeAside side (fun a b => below (f a) (f b)) limit aside other).map (List.map f) id := by
  have start : Merging.mk [] (aside.map f) (other.map f) = (Merging.mk [] aside other).map f := rfl
  simp only [mergeAside, start, Merging.takeOther_map, List.length_map, Merging.finish_map, Prod.map_fst,
    Prod.map_snd, id_eq, Merging.items_map, Prod.map_apply]

theorem mergeRuns_map (limit : Nat) (left right : List α) :
    mergeRuns below limit (left.map f) (right.map f) =
      (mergeRuns (fun a b => below (f a) (f b)) limit left right).map (List.map f) id := by
  cases right with
  | nil => simp [mergeRuns]
  | cons y right =>
      simp only [mergeRuns, List.map_cons, leading_map]
      simp only [← List.map_cons, ← List.map_drop, List.getLast?_map]
      generalize leading .front (fun x => !below (f y) (f x)) left = before
      generalize left.drop before = middle
      cases middle.getLast? with
      | none => simp
      | some x =>
          simp only [Option.map_some, ← List.map_reverse, leading_map, List.length_map]
          generalize leading .back (fun z => !below (f z) (f x)) (y :: right).reverse = behind
          generalize (y :: right).length - behind = stop
          simp only [← List.map_take, List.isEmpty_map, List.length_map, ← List.map_reverse,
            mergeAside_map f below, mergeAside_map f fun x y => below y x]
          split
          · simp only [Prod.map_apply, List.map_append, id_eq]
          · split
            · simp only [Prod.map_apply, List.map_append, Prod.map_fst, Prod.map_snd, id_eq]
            · simp only [Prod.map_apply, List.map_append, List.map_reverse, Prod.map_fst, Prod.map_snd, id_eq]

namespace Stacked

/-- A run of the items in the stead of others. -/
def map (run : Stacked α) : Stacked β := ⟨run.start, run.items.map f, run.depth⟩

theorem merge_map (limit : Nat) (under top : Stacked α) :
    (under.map f).merge below limit (top.map f) =
      (under.merge (fun a b => below (f a) (f b)) limit top).map (map f) id := by
  simp only [merge, map, mergeRuns_map, Prod.map_fst, Prod.map_snd, Prod.map_apply, id_eq]

end Stacked

/-- A stack of runs of the items in the stead of others. -/
def Stack.map (stack : Stack α) : Stack β := ⟨stack.runs.map (Stacked.map f), stack.limit⟩

theorem collapse_map (boundary : Nat) (rest : List (Stacked α)) (top : Stacked α) (limit : Nat) :
    collapse below boundary (rest.map (Stacked.map f)) (top.map f) limit =
      (collapse (fun a b => below (f a) (f b)) boundary rest top limit).map f := by
  induction rest generalizing top limit with
  | nil => rfl
  | cons under rest ih =>
      have depth : (under.map f).depth = under.depth := rfl
      simp only [List.map_cons, collapse, Stacked.merge_map, Prod.map_fst, Prod.map_snd, id_eq, ih, depth]
      split
      · rfl
      · rfl

theorem push_map (size : Nat) (stack : Stack α) (run : List α) :
    push below size (stack.map f) (run.map f) = (push (fun a b => below (f a) (f b)) size stack run).map f := by
  obtain ⟨runs, limit⟩ := stack
  cases runs with
  | nil => rfl
  | cons top rest =>
      have items : (top.map f).items.length = top.items.length := List.length_map f
      simp only [push, Stack.map, List.map_cons, items, List.length_map]
      rw [collapse_map]
      rfl

theorem foldl_push_map (size : Nat) (pieces : List (List α)) (stack : Stack α) :
    (pieces.map (List.map f)).foldl (push below size) (stack.map f) =
      (pieces.foldl (push (fun a b => below (f a) (f b)) size) stack).map f := by
  induction pieces generalizing stack with
  | nil => rfl
  | cons run rest ih => rw [List.map_cons, List.foldl_cons, List.foldl_cons, push_map, ih]

theorem mergeAll_map (rounds limit : Nat) (stacked : List (Stacked α)) :
    mergeAll below rounds limit (stacked.map (Stacked.map f)) =
      (mergeAll (fun a b => below (f a) (f b)) rounds limit stacked).map f := by
  induction rounds generalizing limit stacked with
  | zero =>
      match stacked with
      | [] => rfl
      | [run] => rfl
      | top :: under :: rest =>
          show ((top :: under :: rest).map (Stacked.map f)).reverse.flatMap Stacked.items =
            ((top :: under :: rest).reverse.flatMap Stacked.items).map f
          rw [← List.map_reverse, List.flatMap_map, List.map_flatMap]
          rfl
  | succ rounds ih =>
      match stacked with
      | [] => rfl
      | [run] => rfl
      | [top, under] =>
          have merged := ih limit [(under.merge (fun a b => below (f a) (f b)) limit top).1]
          simp only [List.map_cons, List.map_nil, mergeAll, Stacked.merge_map, Prod.map_fst] at merged ⊢
          exact merged
      | top :: middle :: under :: rest =>
          have length (run : Stacked α) : (run.map f).items.length = run.items.length := List.length_map f
          simp only [List.map_cons, mergeAll, Stacked.merge_map, Prod.map_fst, Prod.map_snd, id_eq, length]
          split
          · exact ih _ (top :: (under.merge (fun a b => below (f a) (f b)) limit middle).1 :: rest)
          · exact ih _ ((middle.merge (fun a b => below (f a) (f b)) limit top).1 :: under :: rest)

theorem adaptive_map (items : List α) :
    adaptive below (items.map f) = (adaptive (fun a b => below (f a) (f b)) items).map f := by
  have stack := foldl_push_map f below items.length (runs (fun a b => below (f a) (f b)) items) ⟨[], 7⟩
  simp only [adaptive, runs_map, List.length_map]
  rw [show (⟨[], 7⟩ : Stack β) = Stack.map f ⟨[], 7⟩ from rfl, stack]
  simp only [Stack.map, List.length_map, mergeAll_map]

end Replaced

section Keyed

variable (below : κ → κ → Bool) (comparable : κ → Bool)

/-- The items of keyed lists can be replaced before the sort or after it. -/
theorem ascending_map (g : α → β) (keyed : List (κ × α)) :
    ascending below comparable (keyed.map (Prod.map id g)) = (ascending below comparable keyed).map g := by
  unfold ascending
  rw [List.all_map]
  simp only [Function.comp_def, Prod.map_fst, id_eq]
  split
  · rw [← List.map_mergeSort (r := fun a b => !below b.1 a.1) fun _ _ _ _ => rfl, List.map_map, List.map_map]
    rfl
  · rw [adaptive_map (Prod.map id g), List.map_map, List.map_map]
    rfl

theorem descending_map (g : α → β) (keyed : List (κ × α)) :
    descending below comparable (keyed.map (Prod.map id g)) = (descending below comparable keyed).map g := by
  unfold descending
  rw [List.all_map]
  simp only [Function.comp_def, Prod.map_fst, id_eq]
  split
  · rw [← List.map_mergeSort (r := fun a b => !below a.1 b.1) fun _ _ _ _ => rfl, List.map_map, List.map_map]
    rfl
  · rw [← List.map_reverse, adaptive_map (Prod.map id g), ← List.map_reverse, List.map_map, List.map_map]
    rfl

end Keyed

/-- Lists of related items are the two sides of a list of related pairs. -/
theorem exists_pairs_of_forall₂ {R : α → β → Prop} {first : List α} {second : List β}
    (related : List.Forall₂ R first second) :
    ∃ pairs : List {p : α × β // R p.1 p.2}, first = pairs.map (·.1.1) ∧ second = pairs.map (·.1.2) := by
  induction related with
  | nil => exact ⟨[], rfl, rfl⟩
  | @cons a b _ _ here _ ih =>
      obtain ⟨pairs, rfl, rfl⟩ := ih
      exact ⟨⟨(a, b), here⟩ :: pairs, rfl, rfl⟩

theorem forall₂_mergeSort {R : α → β → Prop} {le : α → α → Bool} {le' : β → β → Bool}
    (agree : ∀ a b c d, R a c → R b d → le a b = le' c d) {first : List α} {second : List β}
    (related : List.Forall₂ R first second) : List.Forall₂ R (first.mergeSort le) (second.mergeSort le') := by
  obtain ⟨pairs, rfl, rfl⟩ := exists_pairs_of_forall₂ related
  rw [← List.map_mergeSort (r := fun p q => le p.1.1 q.1.1) fun _ _ _ _ => rfl,
    ← List.map_mergeSort (r := fun p q => le p.1.1 q.1.1) fun p _ q _ => agree _ _ _ _ p.2 q.2,
    List.forall₂_map_left_iff, List.forall₂_map_right_iff, List.forall₂_same]
  exact fun p _ => p.2

/-- A sort in which items can be replaced sorts lists alike that have the same keys: related items end up in the
same places. -/
theorem forall₂_of_natural {sort : {ι : Type} → List (κ × ι) → List ι}
    (natural : ∀ {ι ι' : Type} (g : ι → ι') (keyed : List (κ × ι)),
      sort (keyed.map (Prod.map id g)) = (sort keyed).map g)
    {R : α → β → Prop} {first : List (κ × α)} {second : List (κ × β)}
    (related : List.Forall₂ (fun p q => p.1 = q.1 ∧ R p.2 q.2) first second) :
    List.Forall₂ R (sort first) (sort second) := by
  -- Sort the pairs of related items instead; both lists are images of theirs.
  obtain ⟨pairs, left, right⟩ := exists_pairs_of_forall₂ related
  let keyed := pairs.map fun p => (p.1.1.1, p)
  have ofFirst : first = keyed.map (Prod.map id (·.1.1.2)) := by
    rw [left, List.map_map]
    rfl
  have ofSecond : second = keyed.map (Prod.map id (·.1.2.2)) := by
    rw [right, List.map_map]
    refine List.map_congr_left fun p _ => Prod.ext ?_ rfl
    exact p.2.1.symm
  rw [ofFirst, ofSecond, natural, natural, List.forall₂_map_left_iff, List.forall₂_map_right_iff, List.forall₂_same]
  exact fun p _ => p.2.2

end EntityStore.Sort
