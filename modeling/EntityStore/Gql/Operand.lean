import EntityStore.Number.Numeral
import EntityStore.Query.Draft
import EntityStore.Text.Caseless

set_option autoImplicit false

namespace EntityStore

open Text

/-- The fault as an error. -/
def GqlFault.error (fault : GqlFault) : Error := .invalid (.gql fault)

namespace Gql

/-- Whether a text is a given word once its letters are made capital. -/
def isCapitalWord (word : String) (cs : List Char) : Bool := cs.flatMap capital == word.toList

/-- The text between two equal quotes. -/
def unquoted? (cs : List Char) : Option (List Char) :=
  match cs with
  | quote :: second :: rest =>
    if (quote = '\'' ∨ quote = '"') ∧ (second :: rest).getLast? = some quote then
      some (second :: rest).dropLast
    else none
  | _ => none

/-- The value that a literal denotes: the empty value, a truth value, a quoted text, an integer, or a
double. -/
def literal (cs : List Char) : Except Error Value :=
  if isCapitalWord "NULL" cs then .ok (.ofScalar .null)
  else if isCapitalWord "TRUE" cs then .ok (.ofScalar (.boolean true))
  else if isCapitalWord "FALSE" cs then .ok (.ofScalar (.boolean false))
  else
    match unquoted? cs with
    | some inner => .ok (.ofScalar (.string (String.ofList inner)))
    | none =>
      match Number.integer? cs with
      | some n => Value.of .long (.int n)
      | none =>
        match Number.double? cs with
        | some x => .ok (.ofScalar (.double x))
        | none => .error (GqlFault.unrecognized (String.ofList cs)).error

/-- The number that a text of digits denotes.  Digits without a place value, or too many, denote
none. -/
def digits (cs : List Char) : Except Error Nat :=
  match decimalNumber? cs with
  | some n => if Number.maxDigits < cs.length then .error (.failure .numeral) else .ok n
  | none => .error (.failure .numeral)

/-- The value bound to a reference: a text of digits is a position counted from 1, any other text a
name. -/
def bound (q : GqlQuery) (reference : List Char) : Except Error Value :=
  if !reference.isEmpty && reference.all isDigit then do
    let position ← digits reference
    match position, q.positional[position - 1]? with
    | _ + 1, some v => return v
    | _, _ => throw (GqlFault.unbound (toString position)).error
  else
    match q.named.at? (String.ofList reference) with
    | some v => .ok v
    | none => .error (GqlFault.unbound (String.ofList reference)).error

/-- The value of an operand. -/
def operand (q : GqlQuery) (cs : List Char) : Except Error Value :=
  match trim cs with
  | '@' :: reference => bound q reference
  | text =>
    if q.allowLiteral then literal text
    else .error (GqlFault.literal (String.ofList text)).error

end Gql

end EntityStore
