/-!
# Decimal text of integers

Every integer has one canonical text: its digits without leading zeros, after a
minus sign when it is negative.  Addresses and operands are shown with two
digits at least.  A text of more than `digitLimit` digits is refused wherever
integers are converted, in both directions.
-/

namespace DecimalMachine.Decimal

/-- The digits of a natural number, most significant first. -/
def digits (n : Nat) : List Char :=
  Nat.toDigits 10 n

/-- The characters of the canonical text of an integer. -/
def chars : Int → List Char
  | .ofNat n => digits n
  | .negSucc n => '-' :: digits (n + 1)

/-- The canonical text of an integer. -/
def text (n : Int) : String :=
  .ofList (chars n)

/-- Put a filler in front of a text until it has a given length. -/
def padLeft (filler : Char) (width : Nat) (text : List Char) : List Char :=
  List.replicate (width - text.length) filler ++ text

/-- An integer in two characters at least. A negative integer already has
them, so only a single digit is padded. -/
def twoDigits (n : Int) : String :=
  .ofList (padLeft '0' 2 (chars n))

/-- The value that a list of decimal digits denotes. -/
def ofDigits (digits : List Char) : Nat :=
  Nat.ofDigitChars 10 digits 0

theorem ofDigits_digits (n : Nat) : ofDigits (digits n) = n :=
  Nat.ofDigitChars_ten_toDigits

/-- The most digits that a conversion between integers and text takes. -/
def digitLimit : Nat := 4300

/-- A conversion that the digit limit refuses. -/
inductive LimitError where
  /-- A numeral of so many digits, leading zeros included, is too long to read. -/
  | numeral (digits : Nat)
  /-- An integer has too many digits to be written. -/
  | result
  deriving DecidableEq, Repr

/-- The wording of a refused conversion. -/
def LimitError.message : LimitError → String
  | .numeral count =>
      "Exceeds the limit (4300 digits) for integer string conversion: value has " ++
        text count ++ " digits; use sys.set_int_max_str_digits() to increase the limit"
  | .result =>
      "Exceeds the limit (4300 digits) for integer string conversion; " ++
        "use sys.set_int_max_str_digits() to increase the limit"

/-- The canonical text of an integer, if it keeps within the digit limit. -/
def write (n : Int) : Except LimitError String :=
  if (digits n.natAbs).length ≤ digitLimit then .ok (text n) else .error .result

end DecimalMachine.Decimal
