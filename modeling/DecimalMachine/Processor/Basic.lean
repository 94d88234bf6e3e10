import DecimalMachine.Decimal.Literal
import DecimalMachine.Processor.Environment
import DecimalMachine.Processor.Event
import DecimalMachine.Processor.Fault

/-!
# The processor

The processor fetches the word at the program counter, decodes it and executes
its operation.  Arithmetic is exact: the accumulator and the cells hold text,
and a number is read from text where an operation needs one.

An instruction that fails leaves the program counter, the accumulator, the
memory and the outputs as they were.
-/

namespace DecimalMachine

/-- A processor with its memory. -/
structure Processor where
  memory : Memory
  registers : Registers
  /-- The values written since the program was loaded. -/
  outputs : List String
  /-- The event that ended the program, once it has ended. -/
  final : Option Event
  /-- The address of the instruction at which the observer last stopped a run,
  until the next step or run. -/
  stoppedAt : Option Nat
  deriving DecidableEq, Repr

namespace Processor

variable {σ : Type}

/-- A processor with empty memory. -/
def ofMemory (memory : Memory) : Processor where
  memory := memory
  registers := .initial
  outputs := []
  final := none
  stoppedAt := none

/-- A processor with so many cells. -/
def create (size : Int) : Except SizeError Processor :=
  ofMemory <$> Memory.create size

/-- Whether the program has ended. -/
def halted (processor : Processor) : Bool :=
  processor.final.isSome

/-- Load a program, which clears memory and resets all else. -/
def load (processor : Processor) (words : List String) : Except LoadError Processor :=
  ofMemory <$> processor.memory.load words

/-- Clear memory and reset all else. -/
def reset (processor : Processor) : Processor :=
  ofMemory processor.memory.clear

/-- Put a word into a cell, unobserved. -/
def store (processor : Processor) (address : Int) (word : String) :
    Except AddressError Processor :=
  (fun memory => { processor with memory := memory }) <$> processor.memory.write address word

/-- The listing of the registers. -/
def listing (processor : Processor) : String :=
  processor.registers.readout.render

/-- The listing of memory and registers. -/
def dump (processor : Processor) : String :=
  processor.registers.readout.renderWith processor.memory.cells.toList

/-! ## Parts of an instruction -/

/-- Go on with the instruction at an address. -/
def goTo (processor : Processor) (pc : Nat) : Processor :=
  { processor with registers := { processor.registers with pc := pc } }

/-- Go on with the next instruction. -/
def advance (processor : Processor) : Processor :=
  processor.goTo (processor.registers.pc + 1)

/-- Replace the accumulator. -/
def accumulate (processor : Processor) (text : String) : Processor :=
  { processor with registers := { processor.registers with accumulator := text } }

/-- The error of an instruction that is at fault. -/
def fault (processor : Processor) (cause : FaultCause) : ExecutionError :=
  .fault ⟨cause, processor.registers.pc, processor.registers.ir.getD ""⟩

/-- The text in the cell of an operand. -/
def cell (processor : Processor) (operand : Nat) : Except ExecutionError String :=
  (processor.memory.read operand).mapError fun error => processor.fault (.badAddress error)

/-- The number that a text denotes. -/
def number (processor : Processor) (text : String) (cause : FaultCause) :
    Except ExecutionError Int :=
  if Decimal.isLiteral text then (Decimal.read text).mapError .limit
  else .error (processor.fault cause)

/-- The number in the accumulator. -/
def accumulatorNumber (processor : Processor) : Except ExecutionError Int :=
  let text := processor.registers.accumulator
  processor.number text (.accumulatorNotInteger text)

/-- The number in the cell of an operand. -/
def cellNumber (processor : Processor) (operand : Nat) : Except ExecutionError Int := do
  let text ← processor.cell operand
  processor.number text (.cellNotInteger operand text)

/-- Combine the accumulator with the cell of an operand. The accumulator is
looked at first. -/
def combine (processor : Processor) (operand : Nat) (f : Int → Int → Int) :
    Except ExecutionError Processor := do
  let left ← processor.accumulatorNumber
  let right ← processor.cellNumber operand
  let text ← (Decimal.write (f left right)).mapError .limit
  pure (processor.accumulate text).advance

/-- Go to the operand if the accumulator passes a test. -/
def branchIf (processor : Processor) (operand : Nat) (test : Int → Bool) :
    Except ExecutionError Processor := do
  let value ← processor.accumulatorNumber
  pure (if test value then processor.goTo operand else processor.advance)

/-- The value that an answer to a read stores. -/
def inputValue (processor : Processor) (operand : Nat) (answer : Option String) :
    Except ExecutionError String :=
  match answer with
  | none => .error (processor.fault (.noInput operand))
  | some raw => do
      let text := Text.trim raw
      let value ← processor.number text (.inputNotInteger text)
      pure (Decimal.text value)

/-! ## Instructions -/

/-- How an instruction ended. -/
inductive Progress where
  /-- It was executed. A write that the observer refused is reported. -/
  | advanced (refused : Option (Nat × String))
  /-- It was a halt. -/
  | halted
  /-- It failed. -/
  | failed (error : ExecutionError)
  deriving DecidableEq, Repr

/-- Take the outcome of an operation that leaves the environment alone. -/
def settle (processor : Processor) (outcome : Except ExecutionError Processor) (state : σ) :
    Progress × Processor × σ :=
  match outcome with
  | .ok next => (.advanced none, next, state)
  | .error error => (.failed error, processor, state)

/-- Write a value into the cell of an operand and ask the observer about it. -/
def writeCell (environment : Environment σ) (processor : Processor) (operand : Nat)
    (value : String) (state : σ) : Progress × Processor × σ :=
  match processor.memory.write operand value with
  | .error error => (.failed (processor.fault (.badAddress error)), processor, state)
  | .ok memory =>
      let (accepted, state) := environment.accepts operand value state
      (.advanced (if accepted then none else some (operand, value)),
        { processor with memory := memory }.advance, state)

/-- Read a value into the cell of an operand. -/
def readInput (environment : Environment σ) (processor : Processor) (operand : Nat) (state : σ) :
    Progress × Processor × σ :=
  let (answer, state) := environment.input operand state
  match processor.inputValue operand answer with
  | .error error => (.failed error, processor, state)
  | .ok value => processor.writeCell environment operand value state

/-- Write the cell of an operand out. -/
def writeOutput (environment : Environment σ) (processor : Processor) (operand : Nat) (state : σ) :
    Progress × Processor × σ :=
  match processor.cell operand with
  | .error error => (.failed error, processor, state)
  | .ok value =>
      (.advanced none, { processor with outputs := processor.outputs ++ [value] }.advance,
        environment.output operand value state)

/-- Execute an operation. -/
def execute (environment : Environment σ) (processor : Processor) (opcode : Opcode)
    (operand : Nat) (state : σ) : Progress × Processor × σ :=
  match opcode with
  | .read => processor.readInput environment operand state
  | .write => processor.writeOutput environment operand state
  | .load =>
      processor.settle
        ((fun text => (processor.accumulate text).advance) <$> processor.cell operand) state
  | .store => processor.writeCell environment operand processor.registers.accumulator state
  | .add => processor.settle (processor.combine operand (· + ·)) state
  | .subtract => processor.settle (processor.combine operand (· - ·)) state
  | .branch => processor.settle (.ok (processor.goTo operand)) state
  | .branchNeg => processor.settle (processor.branchIf operand (· < 0)) state
  | .branchZero => processor.settle (processor.branchIf operand (· = 0)) state
  | .halt => (.halted, processor, state)

/-- The word at the program counter, which has to be inside memory. -/
def fetch (processor : Processor) : String :=
  processor.memory.cells.getD processor.registers.pc Memory.emptyWord

/-- The processor after it fetched a word. -/
def fetched (processor : Processor) (word : String) : Processor :=
  { processor with registers := { processor.registers with ir := some word } }

/-- The processor after it decoded the word it fetched. -/
def decoded (processor : Processor) (opcode : Opcode) (operand : Nat) : Processor :=
  { processor with
    registers :=
      { processor.registers with
        opcode := some opcode
        operand := operand
        cycles := processor.registers.cycles + 1 } }

/-- Execute the instruction at the program counter, which has to be inside
memory. -/
def cycle (environment : Environment σ) (processor : Processor) (state : σ) :
    Progress × Processor × σ :=
  let word := processor.fetch
  match Instruction.ofText? word with
  | none =>
      (.failed (.fault ⟨.malformedWord, processor.registers.pc, word⟩), processor, state)
  | some instruction =>
      let fetched := processor.fetched word
      match instruction.operation? with
      | none => (.failed (fetched.fault .unknownOpcode), fetched, state)
      | some opcode =>
          let decoded := fetched.decoded opcode instruction.operand.toNat
          decoded.execute environment opcode instruction.operand.toNat
            (environment.trace decoded.registers state)

end Processor

end DecimalMachine
