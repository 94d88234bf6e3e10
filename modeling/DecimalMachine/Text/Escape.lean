/-!
# Escape sequences

An escape sequence tells a terminal to change colours or to move about: the
escape character, an opening bracket, parameters, and a letter.  A text that
does not go to a screen is written without them.  What only begins like an
escape sequence stays.
-/

namespace DecimalMachine.Text

/-- The character that opens an escape sequence. -/
def escapeMark : Char := '\x1b'

/-- The characters of the parameters of an escape sequence. -/
def isEscapeParameter (c : Char) : Bool :=
  c.isDigit || c == ';' || c == '?'

/-- Drop the escape sequences of a text.  What may be the beginning of one is
held back, its last character first, until it is completed or turns out to be
none. -/
def dropEscapesFrom : List Char → List Char → List Char
  | held, [] => held.reverse
  | held, c :: text =>
      if c = escapeMark then held.reverse ++ dropEscapesFrom [c] text
      else
        match held with
        | [] => c :: dropEscapesFrom [] text
        | [_] =>
            if c = '[' then dropEscapesFrom (c :: held) text
            else held.reverse ++ c :: dropEscapesFrom [] text
        | _ =>
            if isEscapeParameter c then dropEscapesFrom (c :: held) text
            else if c.isAlpha then dropEscapesFrom [] text
            else held.reverse ++ c :: dropEscapesFrom [] text

/-- A text without its escape sequences. -/
def dropEscapes (text : String) : String :=
  .ofList (dropEscapesFrom [] text.toList)

end DecimalMachine.Text
