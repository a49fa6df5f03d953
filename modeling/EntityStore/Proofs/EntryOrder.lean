import EntityStore.Query.Run

set_option autoImplicit false

namespace EntityStore

namespace KeyPlace

theorem cmp_swap (p q : KeyPlace) : cmp q p = (cmp p q).swap := Std.OrientedCmp.eq_swap

theorem cmp_asymm {p q : KeyPlace} (lower : cmp p q = .lt) : cmp q p ≠ .lt := by
  rw [cmp_swap, lower]
  exact nofun

theorem not_cmp_trans {p q r : KeyPlace} (low : cmp q p ≠ .lt) (high : cmp r q ≠ .lt) : cmp r p ≠ .lt := by
  have turned : ∀ {x y : KeyPlace}, cmp x y ≠ .lt ↔ (cmp y x).isLE = true := by
    intro x y
    rw [cmp_swap y x]
    cases cmp y x <;> simp
  rw [turned] at low high ⊢
  exact Std.TransCmp.isLE_trans low high

end KeyPlace

namespace IndexEntry

theorem payloadBelow_asymm {a b : IndexEntry} (lower : a.payloadBelow b = true) :
    b.payloadBelow a = false := by
  cases a <;> cases b <;>
    simp only [payloadBelow, decide_eq_true_eq, decide_eq_false_iff_not, Bool.false_eq_true] at lower ⊢
  case integer.integer => omega
  case boolean.boolean => simp_all
  case bytes.bytes => exact List.lt_asymm lower
  case text.text => exact String.lt_asymm lower
  case double.double =>
    simp only [Double.below, Bool.and_eq_true, decide_eq_true_eq] at lower
    simp only [Double.below, Bool.and_eq_false_iff, decide_eq_false_iff_not]
    omega
  case key.key => exact KeyPlace.cmp_asymm lower

/-- What a not-a-number stands between need not be in order, so the entry in the middle has to compare. -/
theorem not_payloadBelow_trans {a b c : IndexEntry} (first : a.rank = b.rank) (second : b.rank = c.rank)
    (comparable : b.isComparable = true) (low : b.payloadBelow a = false)
    (high : c.payloadBelow b = false) : c.payloadBelow a = false := by
  cases a <;> cases b <;> simp [rank] at first <;> cases c <;> simp [rank] at second <;>
    simp only [payloadBelow, decide_eq_false_iff_not] at low high ⊢
  case integer.integer.integer => omega
  case boolean.boolean.boolean a b c => cases a <;> cases b <;> cases c <;> simp_all
  case bytes.bytes.bytes =>
    rw [List.not_lt] at low high ⊢
    exact List.le_trans low high
  case text.text.text =>
    rw [String.not_lt] at low high ⊢
    exact String.le_trans low high
  case double.double.double =>
    simp only [isComparable, Bool.not_eq_true'] at comparable
    simp only [Double.below, comparable, Bool.and_eq_false_iff, Bool.not_false, Bool.not_eq_false',
      decide_eq_false_iff_not, Bool.true_eq_false, false_or, or_false] at low high ⊢
    rcases low with left | low
    · exact Or.inl (Or.inr left)
    · rcases high with right | high
      · exact Or.inl (Or.inl right)
      · exact Or.inr (by omega)
  case key.key.key => exact KeyPlace.not_cmp_trans low high

theorem below_iff (a b : IndexEntry) :
    a.below b = true ↔ a.rank < b.rank ∨ a.rank = b.rank ∧ a.payloadBelow b = true := by
  simp [below]

theorem below_asymm {a b : IndexEntry} (lower : a.below b = true) : b.below a = false := by
  rw [below_iff] at lower
  refine Bool.eq_false_iff.mpr fun higher => ?_
  rw [below_iff] at higher
  rcases lower with rank | ⟨rank, payload⟩
  · omega
  · have upward := payloadBelow_asymm payload
    rcases higher with greater | ⟨-, back⟩
    · omega
    · rw [upward] at back
      cases back

theorem not_below_trans {a b c : IndexEntry} (comparable : b.isComparable = true)
    (low : b.below a = false) (high : c.below b = false) : c.below a = false := by
  rw [← Bool.not_eq_true, below_iff] at low high ⊢
  rintro (rank | ⟨rank, payload⟩)
  · omega
  · have first : a.rank = b.rank := by omega
    have second : b.rank = c.rank := by omega
    have lowPayload : b.payloadBelow a = false := by
      simpa [first] using low
    have highPayload : c.payloadBelow b = false := by
      simpa [second] using high
    rw [not_payloadBelow_trans first second comparable lowPayload highPayload] at payload
    cases payload

end IndexEntry

/-- Whether an order puts one entry before another. -/
def Order.below (o : Order) (a b : IndexEntry) : Bool :=
  match o.direction with
  | .ascending => a.below b
  | .descending => b.below a

namespace Order

theorem below_asymm (o : Order) {a b : IndexEntry} (lower : o.below a b = true) : o.below b a = false := by
  obtain ⟨property, direction⟩ := o
  cases direction with
  | ascending => exact IndexEntry.below_asymm lower
  | descending => exact IndexEntry.below_asymm lower

theorem below_irrefl (o : Order) (a : IndexEntry) : o.below a a = false := by
  refine Bool.eq_false_iff.mpr fun lower => ?_
  have upward := o.below_asymm lower
  rw [lower] at upward
  cases upward

theorem not_below_trans (o : Order) {a b c : IndexEntry} (comparable : b.isComparable = true)
    (low : o.below b a = false) (high : o.below c b = false) : o.below c a = false := by
  obtain ⟨property, direction⟩ := o
  cases direction with
  | ascending => exact IndexEntry.not_below_trans comparable low high
  | descending => exact IndexEntry.not_below_trans comparable high low

/-- The entry that is left when, going through some entries, one takes each that comes before the last one
taken. -/
def best (o : Order) (first : IndexEntry) (more : List IndexEntry) : IndexEntry :=
  more.foldl (fun best e => if o.below e best then e else best) first

theorem best_extreme (o : Order) (first : IndexEntry) (more : List IndexEntry)
    (comparable : ∀ e ∈ first :: more, e.isComparable = true) :
    o.best first more ∈ first :: more ∧ ∀ e ∈ first :: more, o.below e (o.best first more) = false := by
  unfold best
  induction more generalizing first with
  | nil => exact ⟨List.mem_cons_self, fun e member => List.mem_singleton.mp member ▸ o.below_irrefl first⟩
  | cons e rest ih =>
      obtain ⟨firstCompares, eCompares, restCompares⟩ :
          first.isComparable = true ∧ e.isComparable = true ∧ ∀ x ∈ rest, x.isComparable = true := by
        simpa using comparable
      rw [List.foldl_cons]
      by_cases lower : o.below e first = true
      · rw [if_pos lower]
        obtain ⟨member, least⟩ := ih e (List.forall_mem_cons.mpr ⟨eCompares, restCompares⟩)
        refine ⟨List.mem_cons_of_mem _ member, List.forall_mem_cons.mpr ⟨?_, least⟩⟩
        exact o.not_below_trans eCompares (least e List.mem_cons_self) (o.below_asymm lower)
      · rw [if_neg lower]
        rw [Bool.not_eq_true] at lower
        obtain ⟨member, least⟩ := ih first (List.forall_mem_cons.mpr ⟨firstCompares, restCompares⟩)
        obtain ⟨leastFirst, leastRest⟩ := List.forall_mem_cons.mp least
        refine ⟨?_, ?_⟩
        · rcases List.mem_cons.mp member with same | later
          · exact List.mem_cons.mpr (Or.inl same)
          · exact List.mem_cons_of_mem _ (List.mem_cons_of_mem _ later)
        · refine List.forall_mem_cons.mpr ⟨leastFirst, List.forall_mem_cons.mpr ⟨?_, leastRest⟩⟩
          exact o.not_below_trans firstCompares leastFirst lower

/-- The entry at which an order places an entity: the smallest of its entries for the property, or the largest
one if the order falls. -/
structure Places (o : Order) (e : Entity) (entry : IndexEntry) : Prop where
  own : entry ∈ e.entries o.property
  extreme : ∀ other ∈ e.entries o.property, o.below other entry = false

theorem places_of_keyedBy {o : Order} {e : Entity} (comparable : ∀ x ∈ e.entries o.property, x.isComparable = true)
    {entry : IndexEntry} {found : Entity} (keyed : e.keyedBy o = some (entry, found)) :
    found = e ∧ o.Places e entry := by
  unfold Entity.keyedBy at keyed
  split at keyed
  · cases keyed
  · next first more entries =>
      rw [entries] at comparable
      obtain ⟨own, extreme⟩ := o.best_extreme first more comparable
      obtain ⟨property, direction⟩ := o
      cases keyed
      refine ⟨rfl, ?_, ?_⟩ <;> rw [entries] <;> cases direction
      · exact own
      · exact own
      · exact extreme
      · exact extreme

/-- Whether an order puts an entity before another, by the entries at which it places them. -/
def Precedes (o : Order) (a b : Entity) : Prop :=
  ∃ x y, o.Places a x ∧ o.Places b y ∧ o.below x y = true

/-- It does not matter which of several extreme entries is looked at. -/
theorem precedes_iff {o : Order} {a b : Entity} {x y : IndexEntry} (left : o.Places a x) (right : o.Places b y)
    (leftCompares : x.isComparable = true) (rightCompares : y.isComparable = true) :
    o.Precedes a b ↔ o.below x y = true := by
  refine ⟨?_, fun lower => ⟨x, y, left, right, lower⟩⟩
  rintro ⟨x', y', left', right', lower⟩
  refine Bool.of_not_eq_false fun other => ?_
  have further : o.below x' y = false := o.not_below_trans leftCompares other (left.extreme x' left'.own)
  rw [o.not_below_trans rightCompares (right'.extreme y right.own) further] at lower
  cases lower

/-- An order places an entity with a single entry at this one. -/
theorem places_iff_of_single {o : Order} {e : Entity} {x : IndexEntry} (single : e.entries o.property = [x])
    (entry : IndexEntry) : o.Places e entry ↔ entry = x := by
  constructor
  · intro places
    have own := places.own
    rw [single] at own
    exact List.mem_singleton.mp own
  · rintro rfl
    constructor
    · rw [single]
      exact List.mem_singleton_self _
    · intro other member
      rw [single] at member
      rw [List.mem_singleton.mp member]
      exact o.below_irrefl _

theorem precedes_iff_of_single {o : Order} {a b : Entity} {x y : IndexEntry} (left : a.entries o.property = [x])
    (right : b.entries o.property = [y]) : o.Precedes a b ↔ o.below x y = true := by
  simp only [Precedes, places_iff_of_single left, places_iff_of_single right]
  exact ⟨fun ⟨_, _, rfl, rfl, lower⟩ => lower, fun lower => ⟨x, y, rfl, rfl, lower⟩⟩

end Order

end EntityStore
