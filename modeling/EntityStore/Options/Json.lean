import EntityStore.Datum
import EntityStore.Number.Numeral

set_option autoImplicit false

namespace EntityStore.Json

/-- The text after the blanks that may stand between tokens. -/
def skip (cs : List Char) : List Char :=
  cs.dropWhile fun c => c = ' ' || c = '\t' || c = '\n' || c = '\r'

/-- The value of a hexadecimal digit. -/
def hexValue? (c : Char) : Option Nat :=
  if c.isDigit then some (c.toNat - '0'.toNat)
  else if 'a' ≤ c ∧ c ≤ 'f' then some (c.toNat - 'a'.toNat + 10)
  else if 'A' ≤ c ∧ c ≤ 'F' then some (c.toNat - 'A'.toNat + 10)
  else none

/-- The number written in four hexadecimal digits, and the text after them. -/
def codeUnit? : List Char → Option (Nat × List Char)
  | a :: b :: c :: d :: rest => do
    return ((((← hexValue? a) * 16 + (← hexValue? b)) * 16 + (← hexValue? c)) * 16 + (← hexValue? d),
      rest)
  | _ => none

/-- A character written by number, perhaps as a pair of surrogates, and the text after it. -/
def numbered? (cs : List Char) : Option (Char × List Char) := do
  let (high, rest) ← codeUnit? cs
  let alone := (Char.ofNat high, rest)
  if high < 0xD800 ∨ 0xDC00 ≤ high then return alone
  match rest with
  | '\\' :: 'u' :: more =>
    let (low, after) ← codeUnit? more
    if 0xDC00 ≤ low ∧ low < 0xE000 then
      return (Char.ofNat (0x10000 + (high - 0xD800) * 0x400 + (low - 0xDC00)), after)
    else return alone
  | _ => return alone

/-- The character that a letter after a backslash stands for. -/
def escaped? : Char → Option Char
  | '"' => some '"'
  | '\\' => some '\\'
  | '/' => some '/'
  | 'b' => some '\x08'
  | 'f' => some '\x0c'
  | 'n' => some '\n'
  | 'r' => some '\r'
  | 't' => some '\t'
  | _ => none

/-- The characters up to a closing quote, in a number of rounds at most. -/
def characters? : Nat → List Char → Option (List Char × List Char)
  | 0, _ => none
  | _ + 1, [] => none
  | _ + 1, '"' :: rest => some ([], rest)
  | rounds + 1, '\\' :: 'u' :: rest => do
    let (c, rest) ← numbered? rest
    let (more, rest) ← characters? rounds rest
    return (c :: more, rest)
  | rounds + 1, '\\' :: c :: rest => do
    let c ← escaped? c
    let (more, rest) ← characters? rounds rest
    return (c :: more, rest)
  | rounds + 1, c :: rest =>
    if c.toNat < 32 ∨ c = '\\' then none
    else do
      let (more, rest) ← characters? rounds rest
      return (c :: more, rest)

/-- A run of digits. -/
def digits (cs : List Char) : List Char × List Char :=
  (cs.takeWhile Char.isDigit, cs.dropWhile Char.isDigit)

/-- The digits after a point, if there are any, together with the point. -/
def fraction (cs : List Char) : List Char × List Char :=
  match cs with
  | '.' :: rest =>
    let (run, after) := digits rest
    if run.isEmpty then ([], cs) else ('.' :: run, after)
  | _ => ([], cs)

/-- A power of ten, if there is one. -/
def exponent (cs : List Char) : List Char × List Char :=
  match cs with
  | letter :: rest =>
    if letter = 'e' ∨ letter = 'E' then
      let (mark, body) : List Char × List Char := match rest with
        | '+' :: body => (['+'], body)
        | '-' :: body => (['-'], body)
        | body => ([], body)
      let (run, after) := digits body
      if run.isEmpty then ([], cs) else (letter :: mark ++ run, after)
    else ([], cs)
  | [] => ([], cs)

/-- A number: an integer, or a double if it has a point or a power of ten. -/
def number? (cs : List Char) : Option (Datum × List Char) := do
  let (mark, body) : List Char × List Char := match cs with
    | '-' :: body => (['-'], body)
    | body => ([], body)
  let (whole, rest) : List Char × List Char := match body with
    | '0' :: rest => (['0'], rest)
    | body => digits body
  if whole.isEmpty then none
  let (part, rest) := fraction rest
  let (power, rest) := exponent rest
  if part.isEmpty && power.isEmpty then return (.int (← Number.integer? (mark ++ whole)), rest)
  else return (.double (← Number.double? (mark ++ whole ++ part ++ power)), rest)

/-- A given word, and the text after it. -/
def word? (word : String) (cs : List Char) : Option (List Char) :=
  if word.toList.isPrefixOf cs then some (cs.drop word.length) else none

/-- The words that stand for data. -/
def words : List (String × Datum) :=
  [("null", .none), ("true", .bool true), ("false", .bool false), ("NaN", .double Double.nan),
    ("Infinity", .double (Double.infinity false)), ("-Infinity", .double (Double.infinity true))]

mutual

/-- One datum at the start of a text, in a number of rounds at most. -/
def datum? : Nat → List Char → Option (Datum × List Char)
  | 0, _ => none
  | rounds + 1, cs =>
    match cs with
    | '"' :: rest => do
      let (text, rest) ← characters? (rest.length + 1) rest
      return (.text (String.ofList text), rest)
    | '[' :: rest =>
      match skip rest with
      | ']' :: rest => some (.list [], rest)
      | rest => do
        let (items, rest) ← items? rounds rest
        return (.list items, rest)
    | '\x7b' :: rest =>
      match skip rest with
      | '\x7d' :: rest => some (.dict [], rest)
      | rest => do
        let (entries, rest) ← entries? rounds rest
        return (Datum.dictOf entries, rest)
    | cs =>
      match words.findSome? fun w => (word? w.1 cs).map (w.2, ·) with
      | some found => some found
      | none => number? cs
termination_by structural rounds => rounds

/-- The items of an array up to its closing bracket. -/
def items? : Nat → List Char → Option (List Datum × List Char)
  | 0, _ => none
  | rounds + 1, cs => do
    let (item, rest) ← datum? rounds cs
    match skip rest with
    | ']' :: rest => return ([item], rest)
    | ',' :: rest =>
      let (items, rest) ← items? rounds (skip rest)
      return (item :: items, rest)
    | _ => none
termination_by structural rounds => rounds

/-- The entries of an object up to its closing brace. -/
def entries? : Nat → List Char → Option (List (Datum × Datum) × List Char)
  | 0, _ => none
  | rounds + 1, cs =>
    match cs with
    | '"' :: rest => do
      let (name, rest) ← characters? (rest.length + 1) rest
      match skip rest with
      | ':' :: rest =>
        let (value, rest) ← datum? rounds (skip rest)
        let entry := (Datum.text (String.ofList name), value)
        match skip rest with
        | '\x7d' :: rest => return ([entry], rest)
        | ',' :: rest =>
          let (entries, rest) ← entries? rounds (skip rest)
          return (entry :: entries, rest)
        | _ => none
      | _ => none
    | _ => none
termination_by structural rounds => rounds

end

/-- The datum that a whole text denotes. -/
def read? (s : String) : Option Datum := do
  let (d, rest) ← datum? (s.length + 1) (skip s.toList)
  if (skip rest).isEmpty then return d else none

end EntityStore.Json
