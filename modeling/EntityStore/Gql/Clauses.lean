import EntityStore.Text.Caseless
import EntityStore.Text.Digit

/-!
A query text and its clauses.  A text selects something from a kind; conditions, orders, a limit and an
offset may follow, in this sequence.  What is selected, the conditions and the orders end at the first
place after which the rest of the text can be read.
-/

set_option autoImplicit false

namespace EntityStore.Gql

open Text

/-- The white space that has to stand somewhere is skipped. -/
def skipBlanks? : List Char → Option (List Char)
  | [] => none
  | c :: rest => if isBlank c then some (trimStart rest) else none

/-- The text after white space and a keyword written in small letters. -/
def skipKeyword? (keyword : String) (cs : List Char) : Option (List Char) :=
  (skipBlanks? cs).bind (keyword? keyword.toList)

/-- The characters at the start that satisfy a test, at least one, and the text after them. -/
def run? (p : Char → Bool) (cs : List Char) : Option (List Char × List Char) :=
  if (cs.takeWhile p).isEmpty then none else some (cs.takeWhile p, cs.dropWhile p)

/-- Reads what follows white space, all of it if possible and otherwise as much as possible. -/
def afterBlanks? {α : Type} (read : List Char → Option α) : List Char → Option α
  | [] => none
  | c :: rest => if isBlank c then afterBlanks? read rest <|> read rest else none

/-- The shortest start of a text, of at least one character, after which the rest can be read. -/
def shortest? {α : Type} (read : List Char → Option α) : List Char → Option (List Char × α)
  | [] => none
  | c :: rest =>
    match read rest with
    | some a => some ([c], a)
    | none => (shortest? read rest).map fun found => (c :: found.1, found.2)

/-- The end of a text, before which white space may stand. -/
def ending? (cs : List Char) : Option Unit := if cs.all isBlank then some () else none

/-- A keyword and the number after it, in digits, and the rest of the text. -/
def numberClause? (keyword : String) (cs : List Char) : Option (List Char × List Char) := do
  run? isDecimal (← skipBlanks? (← skipKeyword? keyword cs))

/-- The digits of the limit and the offset. -/
structure Window where
  limit? : Option (List Char)
  offset? : Option (List Char)

/-- The orders, the limit and the offset. -/
structure Arrangement extends Window where
  orders? : Option (List Char)

/-- The kind and everything after it. -/
structure Source extends Arrangement where
  kind : List Char
  conditions? : Option (List Char)

/-- The parts of a query text, as they stand there. -/
structure Clauses extends Source where
  selected : List Char

def offset? (cs : List Char) : Option (Option (List Char)) :=
  let given := do
    let (digits, rest) ← numberClause? "offset" cs
    ending? rest
    return some digits
  given <|> (ending? cs).map fun _ => none

def Window.read? (cs : List Char) : Option Window :=
  let given := do
    let (digits, rest) ← numberClause? "limit" cs
    return ⟨some digits, ← Gql.offset? rest⟩
  given <|> (Gql.offset? cs).map fun digits => ⟨none, digits⟩

def Arrangement.read? (cs : List Char) : Option Arrangement :=
  let given := do
    let rest ← skipKeyword? "by" (← skipKeyword? "order" cs)
    let (orders, window) ← afterBlanks? (shortest? Window.read?) rest
    return ⟨window, some orders⟩
  given <|> (Window.read? cs).map fun window => ⟨window, none⟩

/-- What follows the selection. -/
def Source.read? (cs : List Char) : Option Source := do
  let (kind, rest) ← run? isWord (← skipBlanks? (← skipKeyword? "from" cs))
  let given := do
    let (conditions, arrangement) ←
      afterBlanks? (shortest? Arrangement.read?) (← skipKeyword? "where" rest)
    return ⟨arrangement, kind, some conditions⟩
  given <|> (Arrangement.read? rest).map fun arrangement => ⟨arrangement, kind, none⟩

/-- The clauses of a text, if it has the form of a query. -/
def Clauses.ofText? (cs : List Char) : Option Clauses := do
  let rest ← keyword? "select".toList (trimStart cs)
  let (selected, source) ← afterBlanks? (shortest? Source.read?) rest
  return ⟨source, selected⟩

/-- The white space around the word AND is dropped together with it. -/
def skipAnd? (cs : List Char) : Option (List Char) := do skipBlanks? (← skipKeyword? "and" cs)

/-- The conditions that stand between the words AND.  As many rounds as the text has characters are
enough. -/
def splitAnd : Nat → List Char → List (List Char)
  | 0, cs => [cs]
  | _, [] => [[]]
  | rounds + 1, c :: rest =>
    match skipAnd? (c :: rest) with
    | some after => [] :: splitAnd rounds after
    | none =>
      match splitAnd rounds rest with
      | [] => [[c]]
      | first :: more => (c :: first) :: more

/-- A text split at every comma. -/
def splitCommas : List Char → List (List Char)
  | [] => [[]]
  | c :: rest =>
    match splitCommas rest with
    | [] => [[c]]
    | first :: more => if c = ',' then [] :: first :: more else (c :: first) :: more

/-- The conditions of a text. -/
def conditionTexts (cs : List Char) : List (List Char) :=
  (splitAnd (trim cs).length (trim cs)).map trim

/-- The items of a text that are separated by commas. -/
def itemTexts (cs : List Char) : List (List Char) := (splitCommas cs).map trim

end EntityStore.Gql
