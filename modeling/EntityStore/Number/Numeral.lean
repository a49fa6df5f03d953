import EntityStore.Number.Double
import EntityStore.Text.Blank
import EntityStore.Text.Digit

set_option autoImplicit false

namespace EntityStore.Number

open Text

/-- White space around a numeral; the information separators are none. -/
def isBlank (c : Char) : Bool := Text.isBlank c && !(28 ≤ c.toNat && c.toNat ≤ 31)

/-- The text without the white space at either end. -/
def trim (cs : List Char) : List Char :=
  ((cs.dropWhile isBlank).reverse.dropWhile isBlank).reverse

/-- Integer numerals with more digits than this are not read. -/
def maxDigits : Nat := 4300

/-- The values of digits with single underscores between them; nothing else may stand there. -/
def digitGroup? : List Char → Option (List Nat)
  | [] => none
  | [c] => (digitValue? c).map ([·])
  | c :: '_' :: rest => do return (← digitValue? c) :: (← digitGroup? rest)
  | c :: rest => do return (← digitValue? c) :: (← digitGroup? rest)

/-- The number with given decimal digits. -/
def ofDigits (digits : List Nat) : Nat := digits.foldl (fun n d => 10 * n + d) 0

/-- The sign at the start of a text, and the text after it. -/
def sign : List Char → Bool × List Char
  | '-' :: rest => (true, rest)
  | '+' :: rest => (false, rest)
  | rest => (false, rest)

/-- The integer that a text denotes. -/
def integer? (cs : List Char) : Option Int := do
  let (negative, body) := sign (trim cs)
  let digits ← digitGroup? body
  if maxDigits < digits.length then none
  let n : Int := ofDigits digits
  return if negative then -n else n

/-- A text split at the first character that satisfies a test, which is dropped. -/
def splitAtFirst (p : Char → Bool) (cs : List Char) : List Char × Option (List Char) :=
  match cs.dropWhile (! p ·) with
  | [] => (cs, none)
  | _ :: rest => (cs.takeWhile (! p ·), some rest)

/-- Digits that may be missing. -/
def optionalGroup? : List Char → Option (List Nat)
  | [] => some []
  | cs => digitGroup? cs

/-- The digits around a decimal point as one number, with the power of ten of the last digit.  At
least one side of the point has digits. -/
def mantissa? (cs : List Char) : Option (Nat × Int) := do
  let (before, after) := splitAtFirst (· = '.') cs
  let whole ← optionalGroup? before
  let fraction ← optionalGroup? (after.getD [])
  if whole.isEmpty && fraction.isEmpty then none
  return (ofDigits (whole ++ fraction), -(fraction.length : Int))

/-- An unsigned decimal number, with a point or a power of ten or neither. -/
def unsigned? (cs : List Char) : Option (Nat × Int) := do
  let (before, after) := splitAtFirst (fun c => c = 'e' || c = 'E') cs
  let (digits, exponent) ← mantissa? before
  match after with
  | none => return (digits, exponent)
  | some power =>
    let (negative, body) := sign power
    let n : Int := ofDigits (← digitGroup? body)
    return (digits, exponent + if negative then -n else n)

/-- Whether a text is a given word in letters of any case. -/
def isWordOf (word : String) (cs : List Char) : Bool := cs.map Char.toLower == word.toList

/-- The double that a text without white space around it denotes: the nearest one to a decimal number,
an infinity, or the not-a-number. -/
def bareDouble? (cs : List Char) : Option Double := do
  let (negative, body) := sign cs
  if isWordOf "inf" body || isWordOf "infinity" body then return Double.infinity negative
  if isWordOf "nan" body then return Double.nan
  let (digits, exponent) ← unsigned? body
  return Double.ofDecimal negative digits exponent

/-- The double that a text denotes. -/
def double? (cs : List Char) : Option Double := bareDouble? (trim cs)

end EntityStore.Number
