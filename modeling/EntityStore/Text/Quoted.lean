import EntityStore.Text.Printable

set_option autoImplicit false

namespace EntityStore.Text

/-- A number in small hexadecimal digits, filled with zeros on the left to a given width. -/
def hex (width n : Nat) : List Char :=
  let digits := Nat.toDigits 16 n
  List.replicate (width - digits.length) '0' ++ digits

/-- The quote for a text: a single one, unless the text holds single quotes and no double ones. -/
def quoteFor (cs : List Char) : Char :=
  if cs.contains '\'' && !cs.contains '"' then '"' else '\''

/-- One character inside quotes.  The backslash and the quote are escaped, line breaks and tabs have
letters, other unprintable characters are written by number. -/
def escape (quote c : Char) : List Char :=
  if c = '\\' ∨ c = quote then ['\\', c]
  else if c = '\n' then ['\\', 'n']
  else if c = '\r' then ['\\', 'r']
  else if c = '\t' then ['\\', 't']
  else if isPrintable c then [c]
  else if c.toNat < 0x100 then '\\' :: 'x' :: hex 2 c.toNat
  else if c.toNat < 0x10000 then '\\' :: 'u' :: hex 4 c.toNat
  else '\\' :: 'U' :: hex 8 c.toNat

/-- A text in quotes. -/
def quoted (s : String) : String :=
  let cs := s.toList
  let quote := quoteFor cs
  String.ofList (quote :: cs.flatMap (escape quote) ++ [quote])

/-- One byte inside quotes: like a character, but every byte past ASCII is written by number. -/
def escapeByte (quote : Char) (b : UInt8) : List Char :=
  if b < 0x7f then escape quote (Char.ofNat b.toNat) else '\\' :: 'x' :: hex 2 b.toNat

/-- A byte string in quotes, marked by a leading letter. -/
def quotedBytes (bytes : List UInt8) : String :=
  let quote := quoteFor (bytes.map fun b => Char.ofNat b.toNat)
  String.ofList ('b' :: quote :: bytes.flatMap (escapeByte quote) ++ [quote])

/-- A byte array in quotes.  Single quotes in it are escaped, whatever quotes it stands in. -/
def quotedByteArray (bytes : List UInt8) : String :=
  let quote := quoteFor (bytes.map fun b => Char.ofNat b.toNat)
  String.ofList ('b' :: quote :: bytes.flatMap (escapeByte '\'') ++ [quote])

/-- Items between brackets, separated by commas. -/
def bracketed (left right : String) (items : List String) : String :=
  left ++ ", ".intercalate items ++ right

/-- A fixed sequence in round brackets; a single item keeps a comma after it. -/
def parenthesized : List String → String
  | [item] => "(" ++ item ++ ",)"
  | items => bracketed "(" ")" items

end EntityStore.Text
