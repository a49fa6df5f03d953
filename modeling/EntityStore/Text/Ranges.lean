set_option autoImplicit false

namespace EntityStore.Text

/-- Membership in an ascending list of closed ranges; the search stops at the first range that
starts past the number. -/
def covers : List (Nat × Nat) → Nat → Bool
  | [], _ => false
  | (low, high) :: rest, n => if n < low then false else if n ≤ high then true else covers rest n

end EntityStore.Text
