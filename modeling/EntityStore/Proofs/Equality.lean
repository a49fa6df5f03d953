import EntityStore.Proofs.Bindings
import EntityStore.Proofs.EntryOrder
import Mathlib.Data.List.Forall2

set_option autoImplicit false

namespace EntityStore

theorem Double.same_iff (x y : Double) :
    x.same y = true ↔ x.isNaN = false ∧ y.isNaN = false ∧ x.place = y.place := by
  simp [Double.same, and_assoc]

namespace IndexEntry

/-- Nothing tells two entries apart. -/
structure Alike (a b : IndexEntry) : Prop where
  rank : a.rank = b.rank
  below : ∀ c : IndexEntry, a.payloadBelow c = b.payloadBelow c
  above : ∀ c : IndexEntry, c.payloadBelow a = c.payloadBelow b
  same : ∀ c : IndexEntry, a.same c = b.same c

theorem Alike.refl (a : IndexEntry) : a.Alike a := ⟨rfl, fun _ => rfl, fun _ => rfl, fun _ => rfl⟩

theorem Alike.symm {a b : IndexEntry} (alike : a.Alike b) : b.Alike a where
  rank := alike.rank.symm
  below c := (alike.below c).symm
  above c := (alike.above c).symm
  same c := (alike.same c).symm

/-- Equal doubles differ at most in the sign of a zero, which no comparison sees. -/
theorem alike_double {x y : Double} (equal : x.same y = true) : (double x).Alike (double y) := by
  obtain ⟨left, right, place⟩ := (Double.same_iff x y).mp equal
  refine ⟨rfl, fun c => ?_, fun c => ?_, fun c => ?_⟩
  · cases c with
    | double z => simp only [payloadBelow, Double.below, left, right, place]
    | _ => rfl
  · cases c with
    | double z => simp only [payloadBelow, Double.below, left, right, place]
    | _ => rfl
  · cases c with
    | double z => simp only [IndexEntry.same, Double.same, left, right, place]
    | _ => rfl

variable {a b c d : IndexEntry}

theorem Alike.below_eq (left : a.Alike b) (right : c.Alike d) : a.below c = b.below d := by
  rw [IndexEntry.below, IndexEntry.below, left.rank, right.rank, left.below, right.above]

theorem Alike.holds_eq (alike : a.Alike b) (r : Comparison) (target : IndexEntry) :
    r.holds a target = r.holds b target := by
  cases r <;> simp only [Comparison.holds, alike.below, alike.above, alike.same]

end IndexEntry

theorem exists_mem_of_forall₂ {α β : Type} {R : α → β → Prop} {first : List α} {second : List β}
    (related : List.Forall₂ R first second) {x : α} (member : x ∈ first) : ∃ y ∈ second, R x y := by
  induction related with
  | nil => cases member
  | cons here _ ih =>
      rcases List.mem_cons.mp member with rfl | later
      · exact ⟨_, List.mem_cons_self, here⟩
      · obtain ⟨y, further, each⟩ := ih later
        exact ⟨y, List.mem_cons_of_mem _ further, each⟩

/-- What is found for each item of a list is found for all of them in order. -/
theorem exists_forall₂ {α β : Type} {R : α → β → Prop} {items : List β} (found : ∀ b ∈ items, ∃ a, R a b) :
    ∃ all, List.Forall₂ R all items := by
  induction items with
  | nil => exact ⟨[], List.Forall₂.nil⟩
  | cons first rest ih =>
      obtain ⟨a, related⟩ := found first List.mem_cons_self
      obtain ⟨all, later⟩ := ih fun b member => found b (List.mem_cons_of_mem _ member)
      exact ⟨a :: all, List.Forall₂.cons related later⟩

/-- Lists of entries that nothing tells apart. -/
abbrev EntriesAlike (first second : List IndexEntry) : Prop := List.Forall₂ IndexEntry.Alike first second

namespace EntriesAlike

variable {first second : List IndexEntry}

theorem symm (alike : EntriesAlike first second) : EntriesAlike second first :=
  List.Forall₂.flip (alike.imp fun _ _ each => each.symm)

theorem exists_mem (alike : EntriesAlike first second) {entry : IndexEntry} (member : entry ∈ first) :
    ∃ other ∈ second, entry.Alike other := exists_mem_of_forall₂ alike member

end EntriesAlike

theorem Scalar.entry?_of_same {a b : Scalar} (equal : a.same b = true) :
    Option.Rel IndexEntry.Alike a.entry? b.entry? := by
  cases a <;> cases b <;> simp only [Scalar.same, decide_eq_true_eq, Bool.false_eq_true] at equal
  case entity.entity => exact Option.Rel.none
  case double.double => exact Option.Rel.some (IndexEntry.alike_double equal)
  all_goals
    subst_vars
    exact Option.Rel.some (IndexEntry.Alike.refl _)

theorem Element.entry?_of_same {a b : Element} (equal : a.same b = true) :
    Option.Rel IndexEntry.Alike a.entry? b.entry? := by
  obtain ⟨a, m⟩ := a
  obtain ⟨b, n⟩ := b
  simp only [Element.same, Bool.and_eq_true, decide_eq_true_eq] at equal
  obtain ⟨rfl, payload⟩ := equal
  unfold entry?
  split
  · exact Option.Rel.none
  · exact Scalar.entry?_of_same payload

theorem entriesAlike_of_sameItems {first second : List Element} (equal : sameItems first second = true) :
    EntriesAlike (first.filterMap Element.entry?) (second.filterMap Element.entry?) := by
  induction first generalizing second with
  | nil =>
      cases second with
      | nil => exact List.Forall₂.nil
      | cons b bs => simp [sameItems] at equal
  | cons a as ih =>
      cases second with
      | nil => simp [sameItems] at equal
      | cons b bs =>
          simp only [sameItems, Bool.and_eq_true] at equal
          rw [List.filterMap_cons, List.filterMap_cons]
          have here := Element.entry?_of_same equal.1
          generalize a.entry? = left at here
          generalize b.entry? = right at here
          cases here with
          | none => exact ih equal.2
          | some alike => exact List.Forall₂.cons alike (ih equal.2)

theorem Value.entries_eq (v : Value) : v.entries = v.elements.filterMap Element.entry? := by
  cases v with
  | single x => cases found : x.entry? <;> simp [entries, elements, found]
  | list items marks =>
      rw [entries, elements, List.filterMap_eq_flatMap_toList]
      split <;> rfl

theorem Value.projected_eq (v : Value) : v.projected = v.elements.filterMap Element.projected? := by
  cases v with
  | single x => cases found : x.projected? <;> simp [projected, elements, found]
  | list items marks =>
      rw [projected, elements, List.filterMap_eq_flatMap_toList]
      split <;> rfl

theorem Value.entriesAlike_of_same {v w : Value} (equal : v.same w = true) : EntriesAlike v.entries w.entries := by
  cases v with
  | single a =>
      cases w with
      | single b =>
          have alone : sameItems [a] [b] = true := by simpa [Value.same, sameItems] using equal
          rw [entries_eq, entries_eq]
          exact entriesAlike_of_sameItems alone
      | list items n => simp [Value.same] at equal
  | list items m =>
      cases w with
      | single b => simp [Value.same] at equal
      | list others n =>
          simp only [Value.same, Bool.and_eq_true, decide_eq_true_eq] at equal
          obtain ⟨rfl, items⟩ := equal
          rw [entries_eq, entries_eq]
          unfold Value.elements
          dsimp only
          by_cases hidden : m.indexed = some false
          · rw [if_pos hidden, if_pos hidden]
            exact List.Forall₂.nil
          · rw [if_neg hidden, if_neg hidden]
            exact entriesAlike_of_sameItems items

theorem same_of_propertiesWithin {properties others : Properties} {seen : List String}
    (within : propertiesWithin properties seen others = true) {name : String} (unseen : name ∉ seen) {v : Value}
    (found : properties.at? name = some v) : ∃ w, others.at? name = some w ∧ v.same w = true := by
  induction properties generalizing seen with
  | nil => cases found
  | cons property rest ih =>
      obtain ⟨own, value⟩ := property
      simp only [propertiesWithin, Bool.and_eq_true, Bool.or_eq_true, List.contains_iff_mem] at within
      obtain ⟨here, later⟩ := within
      rw [Bindings.at?_cons] at found
      by_cases same : own = name
      · subst same
        rw [if_pos rfl] at found
        cases found
        rcases here with before | equal
        · exact absurd before unseen
        · split at equal
          · next w bound => exact ⟨w, bound, equal⟩
          · cases equal
      · rw [if_neg same] at found
        refine ih later ?_ found
        rw [List.mem_cons, not_or]
        exact ⟨Ne.symm same, unseen⟩

namespace Entity

/-- No query tells two entities apart. -/
structure Alike (e f : Entity) : Prop where
  key : e.key = f.key
  entries : ∀ name, EntriesAlike (e.entries name) (f.entries name)

theorem Alike.symm {e f : Entity} (alike : e.Alike f) : f.Alike e :=
  ⟨alike.key.symm, fun name => (alike.entries name).symm⟩

theorem alike_of_same {e f : Entity} (equal : e.same f = true) : e.Alike f := by
  obtain ⟨shape, k, properties⟩ := e
  obtain ⟨otherShape, l, others⟩ := f
  simp only [Entity.same, Bool.and_eq_true, decide_eq_true_eq, List.all_eq_true] at equal
  obtain ⟨⟨rfl, within⟩, bound⟩ := equal
  refine ⟨rfl, fun name => ?_⟩
  unfold Entity.entries
  split
  · exact List.Forall₂.cons (IndexEntry.Alike.refl _) List.Forall₂.nil
  · unfold property?
    dsimp only
    cases found : Bindings.at? properties name with
    | some v =>
        obtain ⟨w, looked, equal⟩ := same_of_propertiesWithin within List.not_mem_nil found
        rw [looked]
        exact Value.entriesAlike_of_same equal
    | none =>
        cases looked : Bindings.at? others name with
        | none => exact List.Forall₂.nil
        | some w =>
            have binds := bound (name, w) (Bindings.mem_of_at? looked)
            simp [Bindings.binds, found] at binds

end Entity

namespace Order

variable {o : Order} {a b : Entity}

theorem below_eq (o : Order) {x y z w : IndexEntry} (left : x.Alike y) (right : z.Alike w) :
    o.below x z = o.below y w := by
  obtain ⟨property, direction⟩ := o
  cases direction with
  | ascending => exact left.below_eq right
  | descending => exact right.below_eq left

theorem Places.alike {e f : Entity} (alike : e.Alike f) {entry : IndexEntry} (places : o.Places e entry) :
    ∃ other, o.Places f other ∧ entry.Alike other := by
  obtain ⟨other, member, each⟩ := (alike.entries o.property).exists_mem places.own
  refine ⟨other, ⟨member, fun rival present => ?_⟩, each⟩
  obtain ⟨own, owned, near⟩ := (alike.entries o.property).symm.exists_mem present
  rw [o.below_eq near each.symm]
  exact places.extreme own owned

theorem Precedes.alike {e f : Entity} (before : o.Precedes a b) (left : a.Alike e) (right : b.Alike f) :
    o.Precedes e f := by
  obtain ⟨x, y, ofA, ofB, lower⟩ := before
  obtain ⟨z, ofE, near⟩ := ofA.alike left
  obtain ⟨w, ofF, close⟩ := ofB.alike right
  rw [o.below_eq near close] at lower
  exact ⟨z, w, ofE, ofF, lower⟩

end Order

end EntityStore
