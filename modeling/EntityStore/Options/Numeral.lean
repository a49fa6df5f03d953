import EntityStore.Number.Numeral

set_option autoImplicit false

namespace EntityStore.Options.Numeral

/-- Why a text is not the numeral of an integer. -/
inductive Defect where
  | malformed
  | oversized
deriving DecidableEq

/-- Whether two underscores stand side by side. -/
def hasDoubled : List Char → Bool
  | '_' :: '_' :: _ => true
  | _ :: rest => hasDoubled rest
  | [] => false

/-- A text without its underscores, if all of them stand alone and inside it. -/
def withoutUnderscores (cs : List Char) : List Char :=
  if cs.head? = some '_' || cs.getLast? = some '_' || hasDoubled cs then cs else cs.filter (· ≠ '_')

/-- A numeral without the plus sign that it may start with; no minus sign may follow that. -/
def withoutPlus? : List Char → Option (List Char)
  | '+' :: '-' :: _ => none
  | '+' :: rest => some rest
  | cs => some cs

/-- What is left of a numeral that starts with a zero after its leading zeros and the underscores among
them.  The last zero is kept before a point, and so is the last character if nothing else follows. -/
def afterZeros? (last : Char) : List Char → Option (List Char)
  | [] => some [last]
  | c :: rest =>
    if c = '0' || c = '_' then afterZeros? c rest
    else if c = '.' then some (last :: c :: rest)
    else if c = '-' || c.isDigit then some (c :: rest)
    else none

/-- A numeral without leading zeros.  They are dropped behind the minus sign that a numeral starts with,
or else before one; zeros behind a minus sign that follows other zeros stay. -/
def withoutZeros? : List Char → Option (List Char)
  | '-' :: '0' :: rest => (afterZeros? '0' rest).map ('-' :: ·)
  | '0' :: rest => afterZeros? '0' rest
  | c :: rest => if c = '-' || c.isDigit then some (c :: rest) else none
  | [] => none

/-- A numeral without a point and the zeros behind it, if nothing but zeros stands there. -/
def withoutFraction (cs : List Char) : List Char :=
  match Number.splitAtFirst (· = '.') cs with
  | (whole, some (c :: rest)) => if (c :: rest).all (· = '0') then whole else cs
  | _ => cs

/-- The integer that a numeral in its plain form denotes: a sign or none, and digits of which the first
is no zero unless it is the only one. -/
def plainInteger (cs : List Char) : Except Defect Int :=
  let (negative, body) := match cs with
    | '-' :: rest => (true, rest)
    | _ => (false, cs)
  let digits := body.takeWhile Char.isDigit
  if digits.isEmpty || (digits.head? = some '0' && 1 < digits.length) then .error .malformed
  else if Number.maxDigits < digits.length + negative.toNat then .error .oversized
  else if digits.length < body.length then .error .malformed
  else
    let n : Int := Number.ofDigits (digits.map fun c => c.toNat - '0'.toNat)
    .ok (if negative then -n else n)

/-- The integer that a text denotes. -/
def integer (cs : List Char) : Except Defect Int :=
  match (withoutPlus? (Number.trim cs)).bind withoutZeros? with
  | none => .error .malformed
  | some rest => plainInteger (withoutUnderscores (withoutFraction rest))

/-- The double that a numeral in its plain form denotes. -/
def plainDouble? (cs : List Char) : Option Double :=
  if cs.all fun c => c.toNat < 128 && c ≠ '_' then Number.bareDouble? cs else none

/-- The double that a text denotes.  White space does not count if there are no underscores. -/
def double? (cs : List Char) : Option Double :=
  (plainDouble? (Number.trim cs)).orElse fun _ => plainDouble? (withoutUnderscores cs)

end EntityStore.Options.Numeral
