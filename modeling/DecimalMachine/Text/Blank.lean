import DecimalMachine.Text.Pieces

/-!
# White space

Blank characters separate tokens and are removed by trimming.  The set is the
one of Unicode white space together with the four information separators; the
zero-width characters and the byte order mark are not blank.
-/

namespace DecimalMachine.Text

/-- The characters that separate tokens. -/
def isBlank (c : Char) : Bool :=
  let n := c.toNat
  (0x09 ≤ n && n ≤ 0x0D) || (0x1C ≤ n && n ≤ 0x20) || n == 0x85 || n == 0xA0 ||
    n == 0x1680 || (0x2000 ≤ n && n ≤ 0x200A) || n == 0x2028 || n == 0x2029 ||
    n == 0x202F || n == 0x205F || n == 0x3000

/-- The maximal runs of characters that are not blank, in order. -/
def tokenChars (text : List Char) : List (List Char) :=
  let (piece, more) := pieces isBlank text
  (piece :: more).filter (! ·.isEmpty)

/-- A text without the blanks at its two ends. -/
def trim (text : String) : String :=
  .ofList (dropAround isBlank text.toList)

end DecimalMachine.Text
