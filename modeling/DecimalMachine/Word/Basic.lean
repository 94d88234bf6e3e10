import DecimalMachine.Word.Instruction

/-!
# Words

A memory cell holds text.  Read as a word it is an instruction, when it has
four digits that begin with the code of an operation, or else a literal.  The
two are told apart by their text alone, so a signed or longer numeral is always
a literal and an unknown code makes four digits a literal too.
-/

namespace DecimalMachine

/-- The content of a cell. -/
inductive Word where
  /-- A word that the processor can execute. -/
  | instruction (decoded : Instruction)
  /-- A number. -/
  | literal (value : Int)
  deriving DecidableEq, Repr

namespace Word

/-- The text of a word. -/
def encode : Word → String
  | .instruction decoded => decoded.render
  | .literal value => Decimal.text value

/-- The instruction that a text holds, if its code is one of the machine's. -/
def instruction? (text : String) : Option Instruction :=
  (Instruction.ofText? text).filter (·.operation?.isSome)

/-- Read a text as a word. -/
def decode (text : String) : Except WordError Word :=
  match instruction? text with
  | some decoded => .ok (.instruction decoded)
  | none =>
      if Decimal.isLiteral text then
        match Decimal.read text with
        | .ok value => .ok (.literal value)
        | .error error => .error (.limit error)
      else .error (.notWord text)

/-- A cell in mnemonic form, as listings show it. A text that is no word is
marked and left as it is. -/
def disassemble (text : String) : String :=
  match decode text with
  | .error _ => "?? " ++ text
  | .ok (.literal value) => ".DATA " ++ Decimal.text value
  | .ok (.instruction decoded) =>
      match decoded.operation? with
      | none => "?? " ++ text
      | some .halt => Opcode.halt.mnemonic
      | some opcode => opcode.mnemonic ++ " " ++ Decimal.twoDigits decoded.operand

end Word

end DecimalMachine
