import DecimalMachine.Memory.Basic
import DecimalMachine.Text.Quoted

/-!
# Faults

A fault is fatal to the instruction that meets it.  It keeps its cause, the
address of the instruction and the word at that address, and the wording
follows from these.  A number that is too long to be converted fails the
instruction as well, but it is a limit of the conversion and no fault of the
program.
-/

namespace DecimalMachine

/-- The cause of a fault. -/
inductive FaultCause where
  /-- The cell at the program counter is no instruction word. -/
  | malformedWord
  /-- No operation has the code of the word. -/
  | unknownOpcode
  /-- The operand is not an address of the memory. -/
  | badAddress (error : AddressError)
  /-- The operation needs a number and the cell holds none. -/
  | cellNotInteger (address : Nat) (text : String)
  /-- The operation needs a number and the accumulator holds none. -/
  | accumulatorNotInteger (text : String)
  /-- There is no input left. -/
  | noInput (address : Nat)
  /-- The input is no number. -/
  | inputNotInteger (text : String)
  deriving DecidableEq, Repr

/-- A fault of the instruction at an address. -/
structure Fault where
  cause : FaultCause
  address : Nat
  word : String
  deriving DecidableEq, Repr

namespace Fault

/-- The first two characters of a word, where its code should be. -/
def codeText (word : String) : String :=
  .ofList (word.toList.take 2)

/-- Say at which address and at which word something happened, where the
address is known. -/
def describeAt (message : String) (address : Option Int) (word : Option String) : String :=
  match address with
  | none => message
  | some address =>
      message ++ " at address " ++ Decimal.twoDigits address ++ " (word " ++
        (word.map Text.quoted).getD "None" ++ ")"

/-- The wording of the cause. -/
def reason (fault : Fault) : String :=
  match fault.cause with
  | .malformedWord => "malformed instruction word"
  | .unknownOpcode => "unknown opcode " ++ codeText fault.word
  | .badAddress error => error.message
  | .cellNotInteger address text =>
      "memory[" ++ Decimal.twoDigits address ++ "] holds non-integer " ++ Text.quoted text
  | .accumulatorNotInteger text => "accumulator holds non-integer " ++ Text.quoted text
  | .noInput address => "no input for READ into " ++ Decimal.twoDigits address
  | .inputNotInteger text => "READ expects an integer, got " ++ Text.quoted text

/-- The wording of a fault. -/
def message (fault : Fault) : String :=
  describeAt fault.reason (some fault.address) (some fault.word)

end Fault

/-- Why an instruction was not executed. -/
inductive ExecutionError where
  /-- The instruction is at fault. -/
  | fault (raised : Fault)
  /-- A number is too long. -/
  | limit (error : Decimal.LimitError)
  deriving DecidableEq, Repr

/-- The wording of a failed instruction. -/
def ExecutionError.message : ExecutionError → String
  | .fault raised => raised.message
  | .limit error => error.message

end DecimalMachine
