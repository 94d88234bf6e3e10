import DecimalMachine.Decimal.Basic
import DecimalMachine.Text.Identifier

/-!
# Integer literals

A literal is an optional sign and at least one ASCII digit.  It may have
leading zeros and any number of digits; its value is read only up to the digit
limit, and leading zeros count towards it.
-/

namespace DecimalMachine.Decimal

/-- Split an optional sign off a numeral: whether it is negative, and what
follows the sign. -/
def splitSign : List Char → Bool × List Char
  | '-' :: rest => (true, rest)
  | '+' :: rest => (false, rest)
  | text => (false, text)

/-- Give a magnitude its sign. -/
def withSign (negative : Bool) (magnitude : Nat) : Int :=
  if negative then -magnitude else magnitude

/-- A nonempty run of ASCII digits. -/
def isDigits (text : List Char) : Bool :=
  !text.isEmpty && text.all Char.isDigit

/-- The shape of a literal, as a list of characters. -/
def isLiteralShape (text : List Char) : Bool :=
  isDigits (splitSign text).2

/-- The value of a text of literal shape, if it keeps within the digit limit. -/
def readShape (text : List Char) : Except LimitError Int :=
  let (negative, magnitude) := splitSign text
  if magnitude.length ≤ digitLimit then .ok (withSign negative (ofDigits magnitude))
  else .error (.numeral magnitude.length)

/-- Whether a text is a literal. One line feed at its end is overlooked. -/
def isLiteral (text : String) : Bool :=
  isLiteralShape (Text.dropFinalNewline text.toList)

/-- The value of a literal; meant for texts that are literals. -/
def read (text : String) : Except LimitError Int :=
  readShape (Text.dropFinalNewline text.toList)

end DecimalMachine.Decimal
