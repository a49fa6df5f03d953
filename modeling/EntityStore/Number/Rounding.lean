set_option autoImplicit false

namespace EntityStore.Number

/-- The natural number nearest to a quotient; a half goes to the even neighbour. -/
def roundHalfEven (numerator denominator : Nat) : Nat :=
  let quotient := numerator / denominator
  let rest := 2 * (numerator % denominator)
  if rest < denominator then quotient
  else if denominator < rest then quotient + 1
  else quotient + quotient % 2

def powerOfTen (exponent : Nat) : Nat := Nat.pow 10 exponent

/-- The number of decimal digits of a natural number; zero has none. -/
def decimalLength (n : Nat) : Nat :=
  if n = 0 then 0 else decimalLength (n / 10) + 1
termination_by n
decreasing_by omega

end EntityStore.Number
