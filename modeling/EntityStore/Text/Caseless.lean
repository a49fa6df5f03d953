import EntityStore.Text.Blank
import EntityStore.Text.Word

set_option autoImplicit false

namespace EntityStore.Text

/-- The small letter that a character stands for inside a keyword.  Besides the capital letters
these are the four characters outside ASCII that share a letter's case class. -/
def foldCase (c : Char) : Char :=
  if c = 'ſ' then 's'
  else if c = 'ı' ∨ c = 'İ' then 'i'
  else if c = '\u212A' then 'k'
  else c.toLower

/-- The text after a keyword written in small letters, if the text starts with it in any case. -/
def keyword? : List Char → List Char → Option (List Char)
  | [], rest => some rest
  | _ :: _, [] => none
  | k :: ks, c :: cs => if foldCase c = k then keyword? ks cs else none

/-- Whether the whole text is a keyword in any case. -/
def isKeyword (keyword : String) (cs : List Char) : Bool := keyword? keyword.toList cs == some []

/-- The characters outside ASCII that have ASCII letters as their capitals. -/
def asciiCapitals : List (Char × String) := [
  ('ß', "SS"), ('ı', "I"), ('ſ', "S"), ('\uFB00', "FF"), ('\uFB01', "FI"), ('\uFB02', "FL"),
  ('\uFB03', "FFI"), ('\uFB04', "FFL"), ('\uFB05', "ST"), ('\uFB06', "ST")]

/-- The capital letters of a character, if those are ASCII letters. -/
def capital (c : Char) : List Char :=
  match asciiCapitals.lookup c with
  | some letters => letters.toList
  | none => [c.toUpper]

end EntityStore.Text
