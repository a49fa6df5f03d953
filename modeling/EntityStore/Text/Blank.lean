import EntityStore.Text.Ranges

set_option autoImplicit false

namespace EntityStore.Text

/-- The code points of white space: those with a bidirectional class of white space, paragraph or
segment separator, or of the space category. -/
def blankRanges : List (Nat × Nat) := [
  (9, 13), (28, 32), (133, 133), (160, 160), (5760, 5760), (8192, 8202),
  (8232, 8233), (8239, 8239), (8287, 8287), (12288, 12288)]

/-- Whether a character is white space. -/
def isBlank (c : Char) : Bool := covers blankRanges c.toNat

/-- The text without the white space at its start. -/
def trimStart (cs : List Char) : List Char := cs.dropWhile isBlank

/-- The text without the white space at its end. -/
def trimEnd (cs : List Char) : List Char := (cs.reverse.dropWhile isBlank).reverse

/-- The text without the white space at either end. -/
def trim (cs : List Char) : List Char := trimEnd (trimStart cs)

end EntityStore.Text
