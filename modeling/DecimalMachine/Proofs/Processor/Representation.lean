import DecimalMachine.Processor.Run
import DecimalMachine.Proofs.Program.Image
import DecimalMachine.Proofs.Semantics.Values

/-!
# Processors that hold a program

A processor represents a point of a program if its memory is the image of the
program with the values there and its program counter, accumulator and outputs
are the ones of the point.  The parts of an instruction lead from one such
processor to another.
-/

namespace DecimalMachine

namespace Semantics

open Program Processor

/-- A processor at a point of a program. -/
structure Represents (code : List Emitted) (size : Nat) (processor : Processor) (point : Point) :
    Prop where
  pc : processor.registers.pc = point.position
  inside : point.position < code.length
  accumulator : processor.registers.accumulator = Decimal.text point.values.accumulator
  outputs : processor.outputs = point.values.outputs.map Decimal.text
  cells : processor.memory.cells.toList = image code point.values.contents size
  writable : ∀ name, Decimal.Writable (point.values.contents name)
  writableAccumulator : Decimal.Writable point.values.accumulator

variable {code : List Emitted} {size : Nat} {processor : Processor} {point : Point}

namespace Represents

theorem size_eq (represents : Represents code size processor point)
    (fits : extent code ≤ size) : processor.memory.size = size := by
  rw [Memory.size_eq_length, represents.cells, length_image fits]

theorem inMemory (represents : Represents code size processor point)
    (fits : extent code ≤ size) : processor.inMemory = true := by
  rw [Processor.inMemory, Memory.isValid_iff, represents.size_eq fits, represents.pc]
  exact Nat.lt_of_lt_of_le represents.inside (Nat.le_trans (Nat.le_add_right _ _) fits)

/-- The word at the program counter is that of the instruction there. -/
theorem fetch (represents : Represents code size processor point) {emitted : Emitted}
    (here : code[point.position]? = some emitted) :
    processor.fetch = (word code emitted).render := by
  have cell : (image code point.values.contents size)[point.position]? =
      some (word code emitted).render := image_code here
  rw [← represents.cells, Array.getElem?_toList] at cell
  rw [Processor.fetch, represents.pc, Array.getD_eq_getD_getElem?, cell]
  rfl

/-- It is decoded as this instruction. -/
theorem ofText?_fetch (represents : Represents code size processor point)
    (executable : Executable code) {emitted : Emitted}
    (here : code[point.position]? = some emitted) :
    Instruction.ofText? processor.fetch = some (word code emitted) := by
  obtain ⟨operand, small, shape⟩ := executable.operand_lt (List.mem_of_getElem? here)
  rw [represents.fetch here, shape]
  exact Instruction.ofText?_render emitted.opcode.code_lt small

/-- The registers that only tell of the last instruction do not matter. -/
theorem decoded (represents : Represents code size processor point) (text : String)
    (opcode : Opcode) (operand : Nat) :
    Represents code size ((processor.fetched text).decoded opcode operand) point :=
  { represents with }

/-- The inputs that are left do not matter. -/
theorem withInputs (represents : Represents code size processor point) (inputs : List String) :
    Represents code size processor ⟨point.position, { point.values with inputs := inputs }⟩ :=
  { represents with }

theorem goTo (represents : Represents code size processor point) {target : Nat}
    (inside : target < code.length) :
    Represents code size (processor.goTo target) ⟨target, point.values⟩ :=
  { represents with
    pc := rfl
    inside := inside }

theorem advance (represents : Represents code size processor point)
    (inside : point.position + 1 < code.length) :
    Represents code size processor.advance (point.next point.values) := by
  rw [Processor.advance, represents.pc]
  exact represents.goTo inside

theorem accumulate (represents : Represents code size processor point) {value : Int}
    (writable : Decimal.Writable value) :
    Represents code size (processor.accumulate (Decimal.text value))
      ⟨point.position, { point.values with accumulator := value }⟩ :=
  { represents with
    accumulator := rfl
    writableAccumulator := writable }

theorem output (represents : Represents code size processor point) (value : Int) :
    Represents code size { processor with outputs := processor.outputs ++ [Decimal.text value] }
      ⟨point.position, { point.values with outputs := point.values.outputs ++ [value] }⟩ :=
  { represents with
    outputs := by
      rw [represents.outputs, List.map_append]
      rfl }

/-- A variable is read from its cell. -/
theorem cell (represents : Represents code size processor point) {name : String}
    (member : name ∈ slots code) :
    processor.cell (cellOf code name) = .ok (Decimal.text (point.values.contents name)) := by
  have here : (image code point.values.contents size)[cellOf code name]? =
      some (Decimal.text (point.values.contents name)) := image_variable member
  rw [← represents.cells] at here
  rw [Processor.cell, Memory.read_of_getElem? here]
  rfl

/-- A variable is written into its cell. -/
theorem write (represents : Represents code size processor point) (fits : extent code ≤ size)
    {name : String} (member : name ∈ slots code) {value : Int}
    (writable : Decimal.Writable value) :
    ∃ memory, processor.memory.write (cellOf code name) (Decimal.text value) = .ok memory ∧
      Represents code size { processor with memory := memory }
        ⟨point.position, point.values.put name value⟩ := by
  have inside : cellOf code name < processor.memory.size := by
    rw [represents.size_eq fits]
    exact Nat.lt_of_lt_of_le (cellOf_lt_extent member) fits
  refine ⟨_, Memory.write_of_lt inside _, ?_⟩
  refine ⟨represents.pc, represents.inside, represents.accumulator, represents.outputs, ?_, ?_,
    represents.writableAccumulator⟩
  · rw [Array.toList_setIfInBounds, represents.cells, image_set member]
    rfl
  · intro other
    by_cases same : other = name
    · subst same
      simpa [Values.put] using writable
    · simpa [Values.put, same] using represents.writable other

theorem accumulatorNumber (represents : Represents code size processor point) :
    processor.accumulatorNumber = .ok point.values.accumulator := by
  simp [Processor.accumulatorNumber, Processor.number, represents.accumulator,
    Decimal.read_text represents.writableAccumulator, Except.mapError]

theorem cellNumber (represents : Represents code size processor point) {name : String}
    (member : name ∈ slots code) :
    processor.cellNumber (cellOf code name) = .ok (point.values.contents name) := by
  simp [Processor.cellNumber, represents.cell member, bind, Except.bind, Processor.number,
    Decimal.read_text (represents.writable name), Except.mapError]

end Represents

end Semantics

end DecimalMachine
