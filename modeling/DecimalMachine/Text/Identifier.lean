/-!
# Identifiers

Variables and branch labels are named by identifiers over ASCII: a letter or an
underscore, then letters, digits and underscores.
-/

namespace DecimalMachine.Text

/-- The characters that may open an identifier. -/
def isNameStart (c : Char) : Bool :=
  c.isAlpha || c == '_'

/-- The characters that may stand inside an identifier. -/
def isNameChar (c : Char) : Bool :=
  c.isAlphanum || c == '_'

/-- Drop one line feed at the very end of a text. -/
def dropFinalNewline (text : List Char) : List Char :=
  if text.getLast? = some '\n' then text.dropLast else text

/-- The shape of an identifier. -/
def isNameShape : List Char → Bool
  | [] => false
  | c :: rest => isNameStart c && rest.all isNameChar

/-- Whether a text is an identifier. One line feed at its end is overlooked,
as it is everywhere a whole text is matched. -/
def isIdentifier (text : String) : Bool :=
  isNameShape (dropFinalNewline text.toList)

end DecimalMachine.Text
