/-!
# Lines of a text

A text is cut into physical lines at eleven kinds of terminator.  A terminator
ends the line before it, so one at the very end of a text opens no further
line.  Unifying newlines replaces the carriage-return conventions by a line
feed and leaves the other terminators alone.
-/

namespace DecimalMachine.Text

/-- The characters that end a line. A carriage return and the line feed after
it are one terminator. -/
def isLineEnd (c : Char) : Bool :=
  let n := c.toNat
  (0x0A ≤ n && n ≤ 0x0D) || (0x1C ≤ n && n ≤ 0x1E) || n == 0x85 ||
    n == 0x2028 || n == 0x2029

/-- Put one more character at the front of the first line. -/
def consLine (c : Char) : List (List Char) → List (List Char)
  | [] => [[c]]
  | line :: lines => (c :: line) :: lines

/-- The lines of a list of characters, without their terminators. -/
def lineChars : List Char → List (List Char)
  | [] => []
  | '\r' :: '\n' :: rest => [] :: lineChars rest
  | c :: rest => if isLineEnd c then [] :: lineChars rest else consLine c (lineChars rest)

/-- The physical lines of a text. -/
def lines (text : String) : List String :=
  (lineChars text.toList).map .ofList

/-- Every carriage return, with the line feed that may follow it, becomes one
line feed. -/
def unifyNewlineChars : List Char → List Char
  | [] => []
  | '\r' :: '\n' :: rest => '\n' :: unifyNewlineChars rest
  | '\r' :: rest => '\n' :: unifyNewlineChars rest
  | c :: rest => c :: unifyNewlineChars rest

/-- A text in which a line feed is the only newline. -/
def unifyNewlines (text : String) : String :=
  .ofList (unifyNewlineChars text.toList)

/-- One text of many lines, each ended by a line feed. -/
def unlines (lines : List String) : String :=
  "\n".intercalate lines ++ "\n"

end DecimalMachine.Text
