import EntityStore.Number.Rounding

set_option autoImplicit false

namespace EntityStore

/-- A double precision number, given by its bits. -/
structure Double where
  bits : UInt64
deriving DecidableEq

namespace Double

/-- The bits without the sign, as a number: larger for larger absolute values. -/
def magnitude (x : Double) : Nat := x.bits.toNat % (1 <<< 63)

/-- Whether the sign bit is set. -/
def isNegative (x : Double) : Bool := 1 <<< 63 ≤ x.bits.toNat

/-- The magnitude of infinity; every larger one belongs to a not-a-number. -/
def infiniteMagnitude : Nat := 2047 <<< 52

def isNaN (x : Double) : Bool := infiniteMagnitude < x.magnitude

/-- The place of a number on the ordered line of doubles; the two zeros share one. -/
def place (x : Double) : Int := if x.isNegative then -x.magnitude else x.magnitude

/-- Equality of numbers: nothing equals a not-a-number, and the two zeros are equal. -/
def same (x y : Double) : Bool := !x.isNaN && !y.isNaN && x.place == y.place

/-- The strict order of numbers: a not-a-number is not below or above anything. -/
def below (x y : Double) : Bool := !x.isNaN && !y.isNaN && x.place < y.place

/-- The number with a given sign and magnitude. -/
def ofMagnitude (negative : Bool) (magnitude : Nat) : Double :=
  ⟨UInt64.ofNat ((if negative then 1 <<< 63 else 0) + magnitude)⟩

def infinity (negative : Bool) : Double := ofMagnitude negative infiniteMagnitude

def nan : Double := ofMagnitude false (infiniteMagnitude + 1 <<< 51)

/-- The integer `m` and the exponent `q` with absolute value `m * 2 ^ q`, for a finite number. -/
def parts (x : Double) : Nat × Int :=
  let exponent : Nat := x.magnitude >>> 52
  let fraction : Nat := x.magnitude % (1 <<< 52)
  if exponent = 0 then (fraction, -1074) else (fraction + 1 <<< 52, (exponent : Int) - 1075)

/-- The integer equal to a finite number, if there is one. -/
def toInt? (x : Double) : Option Int :=
  let (m, q) := x.parts
  let size : Option Nat :=
    if infiniteMagnitude ≤ x.magnitude then none
    else if 0 ≤ q then some (m <<< q.natAbs)
    else if m % (1 <<< q.natAbs) = 0 then some (m >>> q.natAbs) else none
  size.map fun n => if x.isNegative then -(n : Int) else n

/-- An exponent of two at which a positive quotient has 53 or 54 binary digits before its point. -/
def scaleBelow (numerator denominator : Nat) : Int := (numerator.log2 : Int) - denominator.log2 - 53

/-- The quotient divided by a power of two, again as a quotient. -/
def scaled (numerator denominator : Nat) (exponent : Int) : Nat × Nat :=
  if exponent < 0 then (numerator <<< exponent.natAbs, denominator)
  else (numerator, denominator <<< exponent.natAbs)

/-- The exponent of the last binary digit kept when a positive quotient is rounded to a double. -/
def lastExponent (numerator denominator : Nat) : Int :=
  let low := scaleBelow numerator denominator
  let (n, d) := scaled numerator denominator low
  max (-1074) (if n < d <<< 53 then low else low + 1)

/-- The magnitude nearest to a quotient, possibly that of infinity or past it; a half goes to the
even neighbour. -/
def roundedMagnitude (numerator denominator : Nat) : Nat :=
  if numerator = 0 then 0
  else
    let exponent := lastExponent numerator denominator
    let (n, d) := scaled numerator denominator exponent
    (exponent + 1074).toNat <<< 52 + Number.roundHalfEven n d

/-- The double nearest to a quotient, infinite if the quotient is too large. -/
def ofQuotient (negative : Bool) (numerator denominator : Nat) : Double :=
  ofMagnitude negative (min infiniteMagnitude (roundedMagnitude numerator denominator))

/-- The double nearest to an integer, or nothing if the integer is too large for any. -/
def ofInt? (n : Int) : Option Double :=
  let magnitude := roundedMagnitude n.natAbs 1
  if magnitude < infiniteMagnitude then some (ofMagnitude (n < 0) magnitude) else none

/-- The double nearest to `digits * 10 ^ exponent`.  Exponents far outside the range of doubles are
settled by the number of digits alone. -/
def ofDecimal (negative : Bool) (digits : Nat) (exponent : Int) : Double :=
  let size := Number.decimalLength digits + exponent
  if digits = 0 ∨ size < -400 then ofMagnitude negative 0
  else if 400 < size then infinity negative
  else if exponent < 0 then ofQuotient negative digits (Number.powerOfTen exponent.natAbs)
  else ofQuotient negative (digits * Number.powerOfTen exponent.natAbs) 1

end Double

end EntityStore
