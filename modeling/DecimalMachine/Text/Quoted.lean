import DecimalMachine.Text.Printable

/-!
# Quoted texts

A message shows a foreign text between quotes in such a way that the text can
be read back: the quote in use and the backslash are escaped, line feeds,
carriage returns and tabs have short escapes, and every other character that is
not printable appears as its code point in hexadecimal.
-/

namespace DecimalMachine.Text

/-- A number in lower-case hexadecimal, padded with zeros to a width. -/
def hexChars (width n : Nat) : List Char :=
  let digits := Nat.toDigits 16 n
  List.replicate (width - digits.length) '0' ++ digits

/-- The escape of a character by its code point, in the shortest of three
widths. -/
def escapeCode (c : Char) : List Char :=
  let n := c.toNat
  if n < 0x100 then '\\' :: 'x' :: hexChars 2 n
  else if n < 0x10000 then '\\' :: 'u' :: hexChars 4 n
  else '\\' :: 'U' :: hexChars 8 n

/-- One character between quotes. -/
def quoteChar (quote c : Char) : List Char :=
  if c = quote || c = '\\' then ['\\', c]
  else if c = '\n' then ['\\', 'n']
  else if c = '\r' then ['\\', 'r']
  else if c = '\t' then ['\\', 't']
  else if isPrintable c then [c]
  else escapeCode c

/-- The quote around a text: an apostrophe, unless the text has apostrophes
and no double quotes. -/
def quoteFor (text : List Char) : Char :=
  if text.contains '\'' && !text.contains '"' then '"' else '\''

/-- A text between quotes, as messages show it. -/
def quoted (text : String) : String :=
  let quote := quoteFor text.toList
  .ofList (quote :: text.toList.flatMap (quoteChar quote) ++ [quote])

end DecimalMachine.Text
