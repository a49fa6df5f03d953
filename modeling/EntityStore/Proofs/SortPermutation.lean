import EntityStore.Sort.Keyed

set_option autoImplicit false

namespace EntityStore.Sort

variable {α κ : Type} (below : α → α → Bool)

theorem insert_perm (run : List α) (x : α) : (insert below run x).Perm (x :: run) := by
  unfold insert
  refine List.perm_middle.trans ?_
  rw [List.take_append_drop]

theorem foldl_insert_perm (items run : List α) :
    (items.foldl (insert below) run).Perm (run ++ items) := by
  induction items generalizing run with
  | nil => simp
  | cons x rest ih =>
      refine (ih (insert below run x)).trans ?_
      exact ((insert_perm below run x).append_right rest).trans List.perm_middle.symm

/-- The first run takes at least one item. -/
theorem firstRun_perm (x : α) (items : List α) :
    ((firstRun below (x :: items)).1 ++ (firstRun below (x :: items)).2).Perm (x :: items) ∧
      0 < (firstRun below (x :: items)).1.length := by
  rw [firstRun]
  by_cases level : falling below x items = 0
  · rw [if_pos level]
    refine ⟨?_, Nat.succ_pos _⟩
    simp only [List.cons_append, List.take_append_drop, List.Perm.refl]
  · rw [if_neg level]
    refine ⟨((List.reverse_perm _).append_right _).trans ?_, ?_⟩
    · simp only [List.cons_append, List.take_append_drop, List.Perm.refl]
    · rw [List.length_reverse]
      exact Nat.succ_pos _

/-- As many rounds as there are items are enough to take all of them. -/
theorem runsWithin_perm (least rounds : Nat) (items : List α) (enough : items.length ≤ rounds) :
    (runsWithin below least rounds items).flatten.Perm items := by
  induction rounds generalizing items with
  | zero => simp [List.length_eq_zero_iff.mp (Nat.le_zero.mp enough), runsWithin]
  | succ rounds ih =>
      cases items with
      | nil => simp [runsWithin]
      | cons x items =>
          obtain ⟨first, started⟩ := firstRun_perm below x items
          rw [runsWithin]
          generalize firstRun below (x :: items) = parts at first started
          obtain ⟨run, rest⟩ := parts
          have lengths := first.length_eq
          simp only [List.length_append, List.length_cons] at lengths enough started
          have later := ih (rest.drop (least - run.length)) (by
            simp only [List.length_drop]
            omega)
          calc
            _ = (rest.take (least - run.length)).foldl (insert below) run ++
                (runsWithin below least rounds (rest.drop (least - run.length))).flatten := by
              simp only [List.flatten_cons]
            List.Perm _ ((run ++ rest.take (least - run.length)) ++
                rest.drop (least - run.length)) := (foldl_insert_perm below _ run).append later
            _ = run ++ rest := by rw [List.append_assoc, List.take_append_drop]
            List.Perm _ (x :: items) := first

theorem runs_perm (items : List α) : (runs below items).flatten.Perm items :=
  runsWithin_perm below _ _ items (Nat.le_refl _)

namespace Merging

theorem takeAside_items (m : Merging α) (count : Nat) : (m.takeAside count).items.Perm m.items := by
  simp only [items, takeAside, List.reverse_append, List.reverse_reverse, List.append_assoc]
  refine List.Perm.append_left _ (List.perm_append_comm.trans ?_)
  rw [List.append_assoc]
  refine List.Perm.append_left _ (List.perm_append_comm.trans ?_)
  rw [List.take_append_drop]

theorem takeOther_items (m : Merging α) (count : Nat) : (m.takeOther count).items.Perm m.items := by
  simp only [items, takeOther, List.reverse_append, List.reverse_reverse, List.append_assoc]
  rw [← List.append_assoc (m.other.take count), List.take_append_drop]

theorem alternate_items (limit rounds asideWins otherWins : Nat) (m : Merging α) :
    (alternate below limit rounds asideWins otherWins m).items.Perm m.items := by
  fun_induction alternate below limit rounds asideWins otherWins m with
  | case1 => exact List.Perm.refl _
  | case2 => exact List.Perm.refl _
  | case3 _ _ _ m _ _ _ _ _ _ _ _ ih => exact ih.trans (m.takeOther_items 1)
  | case4 _ _ _ m _ _ _ _ _ _ _ _ ih => exact ih.trans (m.takeAside_items 1)
  | case5 => exact List.Perm.refl _

theorem leapAside_items (side : Side) (m : Merging α) :
    (leapAside side below m).2.items.Perm m.items := by
  unfold leapAside
  split
  · exact List.Perm.refl _
  · dsimp only
    split
    · exact m.takeAside_items _
    · exact (takeOther_items _ 1).trans (m.takeAside_items _)

theorem leapOther_items (side : Side) (m : Merging α) :
    (leapOther side below m).2.items.Perm m.items := by
  unfold leapOther
  split
  · exact List.Perm.refl _
  · dsimp only
    split
    · exact m.takeOther_items _
    · exact (takeAside_items _ 1).trans (m.takeOther_items _)

theorem leap_items (side : Side) (m : Merging α) : (leap side below m).2.items.Perm m.items := by
  cases side with
  | front =>
      simp only [leap]
      split
      · exact leapAside_items below _ m
      · exact (leapOther_items below _ _).trans (leapAside_items below _ m)
  | back =>
      simp only [leap]
      split
      · exact leapOther_items below _ m
      · exact (leapAside_items below _ _).trans (leapOther_items below _ m)

theorem finish_items (side : Side) (rounds : Nat) (leaping : Bool) (limit : Nat) (m : Merging α) :
    (finish side below rounds leaping limit m).1.items.Perm m.items := by
  induction rounds generalizing leaping limit m with
  | zero => exact List.Perm.refl _
  | succ rounds ih =>
      cases leaping with
      | true =>
          have leapt := leap_items below side m
          simp only [finish]
          split
          · exact leapt
          · split
            · exact (ih _ _ _).trans leapt
            · exact (ih _ _ _).trans leapt
      | false =>
          have alternated :=
            alternate_items below limit (m.aside.length + m.other.length) 0 0 m
          simp only [finish]
          split
          · exact alternated
          · exact (ih _ _ _).trans alternated

end Merging

theorem mergeAside_perm (side : Side) (limit : Nat) (aside other : List α) :
    (mergeAside side below limit aside other).1.Perm (aside ++ other) := by
  have merged := (Merging.finish_items below side (2 * (aside.length + other.length)) false limit
    ((Merging.mk [] aside other).takeOther 1)).trans (Merging.takeOther_items _ 1)
  exact merged.trans (by simpa [Merging.items] using List.perm_append_comm)

/-- Items may be merged in the middle while those before and behind stay. -/
theorem splice_perm (left right merged : List α) (before kept : Nat)
    (middle : merged.Perm (left.drop before ++ right.take kept)) :
    (left.take before ++ merged ++ right.drop kept).Perm (left ++ right) := by
  refine ((List.Perm.append_left _ middle).append_right _).trans ?_
  rw [← List.append_assoc, List.take_append_drop, List.append_assoc, List.take_append_drop]

theorem mergeRuns_perm (limit : Nat) (left right : List α) :
    (mergeRuns below limit left right).1.Perm (left ++ right) := by
  unfold mergeRuns
  dsimp only
  refine splice_perm _ _ _ _ _ ?_
  generalize List.drop _ left = middle
  generalize List.take _ right = inner
  split
  · next empty => rw [List.isEmpty_iff.mp empty, List.append_nil]
  · split
    · exact mergeAside_perm below .front limit _ _
    · refine (List.reverse_perm _).trans ((mergeAside_perm _ .back limit _ _).trans ?_)
      rw [← List.reverse_append]
      exact List.reverse_perm _

/-- The items of the runs on a stack. -/
def itemsOf (runs : List (Stacked α)) : List α := runs.flatMap Stacked.items

theorem itemsOf_cons (run : Stacked α) (runs : List (Stacked α)) :
    itemsOf (run :: runs) = run.items ++ itemsOf runs := rfl

theorem merge_items (limit : Nat) (under top : Stacked α) :
    (under.merge below limit top).1.items.Perm (under.items ++ top.items) :=
  mergeRuns_perm below limit under.items top.items

theorem collapse_items (boundary : Nat) (runs : List (Stacked α)) (top : Stacked α) (limit : Nat) :
    (itemsOf (collapse below boundary runs top limit).runs).Perm (top.items ++ itemsOf runs) := by
  induction runs generalizing top limit with
  | nil => exact List.Perm.refl _
  | cons under rest ih =>
      simp only [collapse]
      split
      · refine (ih _ _).trans ?_
        rw [itemsOf_cons, ← List.append_assoc]
        exact ((merge_items below limit under top).trans List.perm_append_comm).append_right _
      · exact List.Perm.refl _

theorem push_items (size : Nat) (stack : Stack α) (run : List α) :
    (itemsOf (push below size stack run).runs).Perm (run ++ itemsOf stack.runs) := by
  unfold push
  split
  · next empty => simp [itemsOf, empty]
  · next top rest split =>
      rw [split]
      exact List.Perm.append_left run (collapse_items below _ rest top stack.limit)

theorem foldl_push_items (size : Nat) (runs : List (List α)) (stack : Stack α) :
    (itemsOf (runs.foldl (push below size) stack).runs).Perm (runs.flatten ++ itemsOf stack.runs) := by
  induction runs generalizing stack with
  | nil => exact List.Perm.refl _
  | cons run rest ih =>
      refine (ih (push below size stack run)).trans ?_
      refine (List.Perm.append_left _ (push_items below size stack run)).trans ?_
      rw [← List.append_assoc, List.flatten_cons]
      exact List.perm_append_comm.append_right _

theorem mergeAll_perm (rounds limit : Nat) (runs : List (Stacked α)) :
    (mergeAll below rounds limit runs).Perm (itemsOf runs) := by
  fun_induction mergeAll below rounds limit runs with
  | case1 => exact List.Perm.refl _
  | case2 => simp [itemsOf]
  | case3 => exact (List.reverse_perm _).flatMap_right _
  | case4 rounds limit top under ih =>
      refine ih.trans ?_
      simp only [itemsOf, List.flatMap_cons, List.flatMap_nil, List.append_nil]
      exact (merge_items below limit under top).trans List.perm_append_comm
  | case5 rounds limit top middle under rest _ merged next equal ih =>
      refine ih.trans ?_
      have joined := merge_items below limit under middle
      rw [equal] at joined
      simp only [itemsOf_cons]
      refine List.Perm.append_left _ ?_
      rw [← List.append_assoc]
      exact (joined.trans List.perm_append_comm).append_right _
  | case6 rounds limit top middle under rest _ merged next equal ih =>
      refine ih.trans ?_
      have joined := merge_items below limit middle top
      rw [equal] at joined
      simp only [itemsOf_cons]
      rw [← List.append_assoc top.items]
      exact (joined.trans List.perm_append_comm).append_right _

theorem adaptive_perm (items : List α) : (adaptive below items).Perm items := by
  refine (mergeAll_perm below _ _ _).trans ?_
  refine (foldl_push_items below _ _ _).trans ?_
  simpa [itemsOf] using runs_perm below items

variable (order : κ → κ → Bool) (comparable : κ → Bool)

theorem ascending_perm (keyed : List (κ × α)) :
    (ascending order comparable keyed).Perm (keyed.map Prod.snd) := by
  unfold ascending
  refine List.Perm.map _ ?_
  split
  · exact List.mergeSort_perm _ _
  · exact adaptive_perm _ _

theorem descending_perm (keyed : List (κ × α)) :
    (descending order comparable keyed).Perm (keyed.map Prod.snd) := by
  unfold descending
  refine List.Perm.map _ ?_
  split
  · exact List.mergeSort_perm _ _
  · exact (List.reverse_perm _).trans ((adaptive_perm _ _).trans (List.reverse_perm _))

end EntityStore.Sort
