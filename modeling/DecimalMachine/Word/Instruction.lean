import DecimalMachine.Decimal.Literal
import DecimalMachine.Text.Quoted
import DecimalMachine.Word.Opcode

/-!
# Instruction words

An instruction word is four decimal digits: two of the operation code and two
of the operand.  Any four digits decode, whether or not an operation has the
code; writing a word refuses an operand of more than two digits.
-/

namespace DecimalMachine

/-- An operation code, which need not be one of the machine's, with an
operand. -/
structure Instruction where
  opcode : Int
  operand : Int
  deriving DecidableEq, Repr

/-- Why a text or a pair of numbers is no word. -/
inductive WordError where
  /-- The text is not four decimal digits. -/
  | notInstruction (text : String)
  /-- The text is neither an instruction word nor a literal. -/
  | notWord (text : String)
  /-- The operand has more than two digits or is negative. -/
  | operandTooWide (operand : Int)
  /-- The literal has too many digits. -/
  | limit (error : Decimal.LimitError)
  deriving DecidableEq, Repr

/-- The wording of a word error. -/
def WordError.message : WordError → String
  | .notInstruction text => "not an instruction word: " ++ Text.quoted text
  | .notWord text => "not a Simpletron word: " ++ Text.quoted text
  | .operandTooWide operand => "operand " ++ Decimal.text operand ++ " does not fit in 2 digits"
  | .limit error => error.message

namespace Instruction

/-- The number of operands that two digits can tell apart. -/
def addressSpace : Nat := 100

/-- The digits of an instruction: the code and then the operand, each in two
characters at least. -/
def render (instruction : Instruction) : String :=
  Decimal.twoDigits instruction.opcode ++ Decimal.twoDigits instruction.operand

/-- The operation of an instruction, if its code is one of the machine's. -/
def operation? (instruction : Instruction) : Option Opcode :=
  Opcode.ofCode? instruction.opcode

/-- The word of an instruction whose operand has two digits. The code is not
looked at. -/
def encode (instruction : Instruction) : Except WordError String :=
  if 0 ≤ instruction.operand ∧ instruction.operand < addressSpace then .ok instruction.render
  else .error (.operandTooWide instruction.operand)

/-- Read four decimal digits as a code and an operand. -/
def ofChars? : List Char → Option Instruction
  | [a, b, c, d] =>
      if [a, b, c, d].all Char.isDigit then
        some ⟨Decimal.ofDigits [a, b], Decimal.ofDigits [c, d]⟩
      else none
  | _ => none

/-- The instruction that a text of four digits holds. One line feed at its end
is overlooked. -/
def ofText? (text : String) : Option Instruction :=
  ofChars? (Text.dropFinalNewline text.toList)

/-- Whether a text is four decimal digits. -/
def isWord (text : String) : Bool :=
  (ofText? text).isSome

/-- Decode a text of four digits. -/
def decode (text : String) : Except WordError Instruction :=
  match ofText? text with
  | some instruction => .ok instruction
  | none => .error (.notInstruction text)

end Instruction

end DecimalMachine
