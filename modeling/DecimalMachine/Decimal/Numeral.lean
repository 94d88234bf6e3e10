import DecimalMachine.Decimal.Digit
import DecimalMachine.Decimal.Literal
import DecimalMachine.Text.Blank

/-!
# Numerals

A setting or a register is read more freely than a literal: white space around
the numeral is ignored, its digits may be of any script, and a single
underscore may stand between two digits.
-/

namespace DecimalMachine.Decimal

/-- The white space that may stand around a numeral: the blanks, except for the
four information separators. -/
def isMargin (c : Char) : Bool :=
  Text.isBlank c && !(0x1C ≤ c.toNat && c.toNat ≤ 0x1F)

/-- The values of the digits of a numeral, in which single underscores may
stand between digits. -/
def digitValues? : List Char → Option (List Nat)
  | [] => none
  | [c] => (digitValue? c).map ([·])
  | c :: '_' :: rest => do
      let value ← digitValue? c
      let values ← digitValues? rest
      pure (value :: values)
  | c :: rest => do
      let value ← digitValue? c
      let values ← digitValues? rest
      pure (value :: values)

/-- The value of a numeral, if it is one and keeps within the digit limit. -/
def numeral? (text : String) : Option Int := do
  let (negative, magnitude) := splitSign (Text.dropAround isMargin text.toList)
  let values ← digitValues? magnitude
  if values.length ≤ digitLimit then
    some (withSign negative (values.foldl (fun total value => 10 * total + value) 0))
  else none

end DecimalMachine.Decimal
