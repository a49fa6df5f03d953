import EntityStore.Number.Double

/-!
The shortest decimal text of a double.  Among all decimals that round to the number, those with the
fewest digits are taken, and of these the nearest to the number.
-/

set_option autoImplicit false

namespace EntityStore

namespace Number

/-- A positive number between two bounds, all over one denominator.  The bounds belong to the
interval if `closed` is set. -/
structure Interval where
  low : Nat
  value : Nat
  high : Nat
  denominator : Nat
  closed : Bool

namespace Interval

/-- The interval in units of a power of ten. -/
def inUnits (i : Interval) (exponent : Int) : Interval :=
  if exponent < 0 then
    let power := powerOfTen exponent.natAbs
    { i with low := i.low * power, value := i.value * power, high := i.high * power }
  else { i with denominator := i.denominator * powerOfTen exponent.natAbs }

/-- Whether a whole number of units lies in the interval. -/
def holds (i : Interval) (n : Nat) : Bool :=
  let point := n * i.denominator
  if i.closed then i.low ≤ point && point ≤ i.high else i.low < point && point < i.high

/-- The whole number in the interval next to its value: of the two neighbours the nearer, of two
equally near ones the even. -/
def neighbour? (i : Interval) : Option Nat :=
  let n := i.value / i.denominator
  let below := i.value % i.denominator
  let above := i.denominator - below
  let first := if below < above ∨ (below = above ∧ n % 2 = 0) then n else n + 1
  let second := if first = n then n + 1 else n
  if i.holds first then some first else if i.holds second then some second else none

/-- The exponent of the first decimal digit of the value. -/
def leadingExponent (i : Interval) : Int :=
  if i.denominator ≤ i.value then decimalLength (i.value / i.denominator) - 1
  else -decimalLength ((i.denominator + i.value - 1) / i.value - 1)

/-- The decimal with the fewest digits in the interval, as an integer and a power of ten, tried with
`count` digits and more while `fuel` lasts. -/
def shortestFrom (i : Interval) : Nat → Nat → Nat × Int
  | 0, _ => (i.value / i.denominator, 0)
  | fuel + 1, count =>
    let exponent := i.leadingExponent + 1 - count
    match (i.inUnits exponent).neighbour? with
    | some n => (n, exponent)
    | none => shortestFrom i fuel (count + 1)

/-- Seventeen digits tell any two doubles apart. -/
def shortest (i : Interval) : Nat × Int := i.shortestFrom 17 1

end Interval

/-- A number of the form `digits * 10 ^ exponent` without zeros at the end of its digits. -/
def stripZeros : Nat → Nat → Int → Nat × Int
  | 0, n, exponent => (n, exponent)
  | fuel + 1, n, exponent =>
    if n ≠ 0 ∧ n % 10 = 0 then stripZeros fuel (n / 10) (exponent + 1) else (n, exponent)

end Number

namespace Double

open Number

/-- The positive numbers that round to a finite double other than zero.  The bounds lie half way to
its neighbours, and belong to it if its last binary digit is zero. -/
def interval (x : Double) : Interval :=
  let (m, q) := x.parts
  let low := if m = 1 <<< 52 ∧ -1074 < q then 4 * m - 1 else 4 * m - 2
  let exponent := q - 2
  let factor := if exponent < 0 then 1 else 1 <<< exponent.natAbs
  let denominator := if exponent < 0 then 1 <<< exponent.natAbs else 1
  ⟨low * factor, 4 * m * factor, (4 * m + 2) * factor, denominator, m % 2 = 0⟩

/-- How a number in decimal digits is laid out. -/
structure Layout where
  /-- The least exponent of the first digit for which the number is written with a point alone. -/
  leastPositional : Int
  /-- The exponent from which on it is written with a power of ten. -/
  leastScientific : Int
  /-- The least number of digits of the written power of ten. -/
  exponentDigits : Nat

/-- Numbers from a ten thousandth up to ten thousand billions are written with a point alone, all
others with a power of ten of at least two digits. -/
def layout : Layout := ⟨-4, 16, 2⟩

/-- Digits with a point alone; a whole number ends in a point and a zero. -/
def positional (digits : List Char) (exponent : Int) : List Char :=
  if exponent < 0 then
    '0' :: '.' :: List.replicate (exponent.natAbs - 1) '0' ++ digits
  else
    let count := exponent.toNat + 1
    let whole := digits.take count ++ List.replicate (count - digits.length) '0'
    let rest := digits.drop count
    whole ++ '.' :: (if rest.isEmpty then ['0'] else rest)

/-- Digits with a power of ten. -/
def scientific (digits : List Char) (exponent : Int) : List Char :=
  let power := Nat.toDigits 10 exponent.natAbs
  let mantissa := match digits with
    | first :: second :: rest => first :: '.' :: second :: rest
    | short => short
  mantissa ++ 'e' :: (if exponent < 0 then '-' else '+') ::
    (List.replicate (layout.exponentDigits - power.length) '0' ++ power)

/-- The shortest text that reads back as the number. -/
def text (x : Double) : String :=
  let sign := if x.isNegative && !x.isNaN then ['-'] else []
  let body :=
    if x.isNaN then ['n', 'a', 'n']
    else if x.magnitude = infiniteMagnitude then ['i', 'n', 'f']
    else if x.magnitude = 0 then ['0', '.', '0']
    else
      let (n, e) := x.interval.shortest
      let (n, e) := stripZeros 20 n e
      let digits := Nat.toDigits 10 n
      let exponent := e + digits.length - 1
      if layout.leastPositional ≤ exponent ∧ exponent < layout.leastScientific then
        positional digits exponent
      else scientific digits exponent
  String.ofList (sign ++ body)

end Double

end EntityStore
