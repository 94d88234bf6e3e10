import DecimalMachine.Memory.Grid
import DecimalMachine.Word.Instruction

/-!
# Registers

The processor has a program counter, an instruction register with its two
decoded halves, an accumulator and a count of the instructions it has executed.
The accumulator holds text like a memory cell does.

A readout is what an observer sees of the registers: it is what register
conditions examine and what listings show.
-/

namespace DecimalMachine

/-- The registers of a processor. -/
structure Registers where
  /-- The address of the next instruction. -/
  pc : Nat
  /-- The last word that was fetched. -/
  ir : Option String
  /-- The operation of the last instruction. -/
  opcode : Option Opcode
  /-- The operand of the last instruction. -/
  operand : Nat
  accumulator : String
  /-- The number of instructions executed. -/
  cycles : Nat
  deriving DecidableEq, Repr

/-- The registers at the start of a program. -/
def Registers.initial : Registers where
  pc := 0
  ir := none
  opcode := none
  operand := 0
  accumulator := Decimal.text 0
  cycles := 0

/-- The registers as an observer sees them. -/
structure Readout where
  pc : Int
  ir : Option String
  opcode : Option Int
  operand : Int
  accumulator : String
  deriving DecidableEq, Repr

/-- What an observer sees of registers. -/
def Registers.readout (registers : Registers) : Readout where
  pc := registers.pc
  ir := registers.ir
  opcode := registers.opcode.map fun opcode => (opcode.code : Int)
  operand := registers.operand
  accumulator := registers.accumulator

namespace Readout

/-- The listing of a readout. -/
def render (readout : Readout) : String :=
  "\n".intercalate
    ["Program counter       :  " ++ Decimal.text readout.pc,
      "Instruction Register  :  " ++ readout.ir.getD "",
      "Accumulator           :  " ++ readout.accumulator,
      "Opcode                :  " ++ (readout.opcode.map Decimal.twoDigits).getD "",
      "Operand               :  " ++ Decimal.text readout.operand]

/-- The listing of memory cells and a readout. -/
def renderWith (cells : List String) (readout : Readout) : String :=
  Grid.dump cells ++ "\n\n" ++ readout.render

end Readout

end DecimalMachine
