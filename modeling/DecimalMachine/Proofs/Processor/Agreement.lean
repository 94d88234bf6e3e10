import DecimalMachine.Processor.Run
import DecimalMachine.Proofs.Memory.Cells
import DecimalMachine.Proofs.Outcomes

/-!
# Processors that agree on the first cells

Two processors agree if they differ only in how many cells they have, and in
what the cells behind the first ones hold.  A cycle that fetches, reads and
writes only among the first cells keeps them in agreement, and does the same in
both: it ends in the same way and leaves its environment in the same state.
-/

namespace DecimalMachine

/-- Both memories have so many cells, and the first ones hold the same. -/
structure Memory.Shares (count : Nat) (memory other : Memory) : Prop where
  fits : count ≤ memory.size
  otherFits : count ≤ other.size
  cells : ∀ address : Nat, address < count → memory.cells[address]? = other.cells[address]?

namespace Memory.Shares

variable {count : Nat} {memory other : Memory} {address : Nat}

theorem getD (shares : memory.Shares count other) (inside : address < count) (default : String) :
    memory.cells.getD address default = other.cells.getD address default := by
  rw [Array.getD_eq_getD_getElem?, Array.getD_eq_getD_getElem?, shares.cells address inside]

theorem isValid (shares : memory.Shares count other) (inside : address < count) :
    memory.isValid address = true ∧ other.isValid address = true := by
  rw [isValid_iff, isValid_iff]
  exact ⟨Nat.lt_of_lt_of_le inside shares.fits, Nat.lt_of_lt_of_le inside shares.otherFits⟩

theorem read (shares : memory.Shares count other) (inside : address < count) :
    memory.read address = other.read address := by
  simp only [Memory.read, shares.isValid inside, if_true, Int.toNat_natCast, shares.getD inside]

/-- A cell among the first ones is written in both. -/
theorem write (shares : memory.Shares count other) (inside : address < count) (value : String) :
    ∃ next otherNext, memory.write address value = .ok next ∧
      other.write address value = .ok otherNext ∧ next.Shares count otherNext := by
  have room : address < memory.size := Nat.lt_of_lt_of_le inside shares.fits
  have otherRoom : address < other.size := Nat.lt_of_lt_of_le inside shares.otherFits
  refine ⟨_, _, write_of_lt room value, write_of_lt otherRoom value, ?_⟩
  constructor
  · simpa [size] using shares.fits
  · simpa [size] using shares.otherFits
  · intro place below
    by_cases same : address = place
    · subst same
      have here : address < memory.cells.size := room
      have there : address < other.cells.size := otherRoom
      simp [here, there]
    · simp [same, shares.cells place below]

end Memory.Shares

/-- Words are loaded into the first cells of every memory that has room for
them. -/
theorem Memory.shares_load {memory other next otherNext : Memory} {words : List String}
    (loaded : memory.load words = .ok next) (otherLoaded : other.load words = .ok otherNext) :
    next.Shares words.length otherNext := by
  have fits := size_of_load loaded
  have otherFits := size_of_load otherLoaded
  obtain ⟨room, _, rfl⟩ := load_eq_ok_iff.mp loaded
  obtain ⟨otherRoom, _, rfl⟩ := load_eq_ok_iff.mp otherLoaded
  refine ⟨by rwa [fits], by rwa [otherFits], ?_⟩
  intro address inside
  have word : address < (words.map Text.trim).toArray.size := by simpa using inside
  rw [Array.getElem?_append_left word, Array.getElem?_append_left word]

namespace Processor

variable {σ : Type} {count operand : Nat} {processor other : Processor}

/-- Two processors that share their first cells and are the same but for their
memories. -/
structure Agree (count : Nat) (processor other : Processor) : Prop where
  memory : processor.memory.Shares count other.memory
  registers : processor.registers = other.registers
  outputs : processor.outputs = other.outputs
  final : processor.final = other.final
  stoppedAt : processor.stoppedAt = other.stoppedAt

/-- Two outcomes that tell the same and leave processors that agree and the same
state. -/
structure AgreeAfter {α : Type} (count : Nat) (outcome other : α × Processor × σ) : Prop where
  report : outcome.1 = other.1
  processor : Agree count outcome.2.1 other.2.1
  state : outcome.2.2 = other.2.2

/-- The instruction at the program counter and the cell of its operand are among
the first cells. -/
structure Confined (count : Nat) (processor : Processor) : Prop where
  pc : processor.registers.pc < count
  operand : ∀ instruction, Instruction.ofText? processor.fetch = some instruction →
    instruction.operand.toNat < count

/-- Processors that loaded the same words agree on them. -/
theorem agree_load {loaded otherLoaded : Processor} {words : List String}
    (load : processor.load words = .ok loaded) (otherLoad : other.load words = .ok otherLoaded) :
    Agree words.length loaded otherLoaded := by
  obtain ⟨memory, filled, rfl⟩ := map_eq_ok_iff.mp load
  obtain ⟨otherMemory, otherFilled, rfl⟩ := map_eq_ok_iff.mp otherLoad
  exact ⟨Memory.shares_load filled otherFilled, rfl, rfl, rfl, rfl⟩

namespace Agree

/-- What does not look at memory is the same. -/
theorem exists_memory (agree : Agree count processor other) :
    ∃ memory, processor.memory.Shares count memory ∧
      other = { processor with memory := memory } := by
  obtain ⟨memory, registers, outputs, final, stoppedAt⟩ := agree
  refine ⟨other.memory, memory, ?_⟩
  cases other
  cases processor
  simp_all

theorem withMemory (agree : Agree count processor other) {memory otherMemory : Memory}
    (shares : memory.Shares count otherMemory) :
    Agree count { processor with memory := memory } { other with memory := otherMemory } :=
  { agree with memory := shares }

theorem accumulate (agree : Agree count processor other) (text : String) :
    Agree count (processor.accumulate text) (other.accumulate text) :=
  { agree with
    registers := by
      rw [Processor.accumulate, agree.registers]
      rfl }

theorem goTo (agree : Agree count processor other) (target : Nat) :
    Agree count (processor.goTo target) (other.goTo target) :=
  { agree with
    registers := by
      rw [Processor.goTo, agree.registers]
      rfl }

theorem advance (agree : Agree count processor other) :
    Agree count processor.advance other.advance := by
  rw [Processor.advance, Processor.advance, agree.registers]
  exact agree.goTo _

theorem output (agree : Agree count processor other) (value : String) :
    Agree count { processor with outputs := processor.outputs ++ [value] }
      { other with outputs := other.outputs ++ [value] } :=
  { agree with outputs := congrArg (· ++ [value]) agree.outputs }

theorem decoded (agree : Agree count processor other) (text : String) (opcode : Opcode)
    (operand : Nat) :
    Agree count ((processor.fetched text).decoded opcode operand)
      ((other.fetched text).decoded opcode operand) :=
  { agree with
    registers := by
      simp only [Processor.decoded, Processor.fetched, agree.registers] }

theorem fetched (agree : Agree count processor other) (text : String) :
    Agree count (processor.fetched text) (other.fetched text) :=
  { agree with
    registers := by
      simp only [Processor.fetched, agree.registers] }

theorem withStops (agree : Agree count processor other) (final : Option Event)
    (stoppedAt : Option Nat) :
    Agree count { processor with final := final, stoppedAt := stoppedAt }
      { other with final := final, stoppedAt := stoppedAt } :=
  { agree with
    final := rfl
    stoppedAt := rfl }

theorem pause (agree : Agree count processor other) :
    Agree count { processor with stoppedAt := some processor.registers.pc }
      { other with stoppedAt := some other.registers.pc } :=
  { agree with stoppedAt := by rw [agree.registers] }

theorem fault (agree : Agree count processor other) (cause : FaultCause) :
    processor.fault cause = other.fault cause := by
  rw [Processor.fault, Processor.fault, agree.registers]

theorem fetch (agree : Agree count processor other) (inside : processor.registers.pc < count) :
    processor.fetch = other.fetch := by
  rw [Processor.fetch, Processor.fetch, ← agree.registers, agree.memory.getD inside]

theorem cell (agree : Agree count processor other) (inside : operand < count) :
    processor.cell operand = other.cell operand := by
  simp only [Processor.cell, agree.memory.read inside, agree.fault]

theorem accumulatorNumber (agree : Agree count processor other) :
    processor.accumulatorNumber = other.accumulatorNumber := by
  obtain ⟨memory, _, rfl⟩ := agree.exists_memory
  rfl

theorem cellNumber (agree : Agree count processor other) (inside : operand < count) :
    processor.cellNumber operand = other.cellNumber operand := by
  have cell := agree.cell inside
  obtain ⟨memory, _, rfl⟩ := agree.exists_memory
  simp only [Processor.cellNumber, cell]
  rfl

theorem inputValue (agree : Agree count processor other) (operand : Nat) (answer : Option String) :
    processor.inputValue operand answer = other.inputValue operand answer := by
  obtain ⟨memory, _, rfl⟩ := agree.exists_memory
  rfl

theorem combine (agree : Agree count processor other) (inside : operand < count)
    (f : Int → Int → Int) :
    Corresponds Eq (Agree count) (processor.combine operand f) (other.combine operand f) := by
  rw [Processor.combine, Processor.combine, agree.accumulatorNumber, agree.cellNumber inside]
  cases other.accumulatorNumber with
  | error error => exact .error rfl
  | ok left =>
      cases other.cellNumber operand with
      | error error => exact .error rfl
      | ok right =>
          simp only [bind, Except.bind]
          cases (Decimal.write (f left right)).mapError ExecutionError.limit with
          | error error => exact .error rfl
          | ok text => exact .ok (agree.accumulate text).advance

theorem branchIf (agree : Agree count processor other) (operand : Nat) (test : Int → Bool) :
    Corresponds Eq (Agree count) (processor.branchIf operand test)
      (other.branchIf operand test) := by
  rw [Processor.branchIf, Processor.branchIf, agree.accumulatorNumber]
  cases other.accumulatorNumber with
  | error error => exact .error rfl
  | ok value =>
      simp only [bind, Except.bind]
      cases test value with
      | true => exact .ok (agree.goTo operand)
      | false => exact .ok agree.advance

theorem settle (agree : Agree count processor other)
    {outcome otherOutcome : Except ExecutionError Processor}
    (same : Corresponds Eq (Agree count) outcome otherOutcome) (state : σ) :
    AgreeAfter count (processor.settle outcome state) (other.settle otherOutcome state) := by
  cases same with
  | ok next => exact ⟨rfl, next, rfl⟩
  | error errors => exact ⟨congrArg Progress.failed errors, agree, rfl⟩

theorem writeCell (agree : Agree count processor other) (inside : operand < count)
    (environment : Environment σ) (value : String) (state : σ) :
    AgreeAfter count (processor.writeCell environment operand value state)
      (other.writeCell environment operand value state) := by
  obtain ⟨next, otherNext, written, otherWritten, shares⟩ := agree.memory.write inside value
  simp only [Processor.writeCell, written, otherWritten]
  exact ⟨rfl, (agree.withMemory shares).advance, rfl⟩

theorem readInput (agree : Agree count processor other) (inside : operand < count)
    (environment : Environment σ) (state : σ) :
    AgreeAfter count (processor.readInput environment operand state)
      (other.readInput environment operand state) := by
  simp only [Processor.readInput, agree.inputValue]
  cases other.inputValue operand (environment.input operand state).1 with
  | error error => exact ⟨rfl, agree, rfl⟩
  | ok value => exact agree.writeCell inside environment value _

theorem writeOutput (agree : Agree count processor other) (inside : operand < count)
    (environment : Environment σ) (state : σ) :
    AgreeAfter count (processor.writeOutput environment operand state)
      (other.writeOutput environment operand state) := by
  simp only [Processor.writeOutput, agree.cell inside]
  cases other.cell operand with
  | error error => exact ⟨rfl, agree, rfl⟩
  | ok value => exact ⟨rfl, (agree.output value).advance, rfl⟩

/-- An operation on one of the first cells does the same in both. -/
theorem execute (agree : Agree count processor other) (inside : operand < count)
    (environment : Environment σ) (opcode : Opcode) (state : σ) :
    AgreeAfter count (processor.execute environment opcode operand state)
      (other.execute environment opcode operand state) := by
  cases opcode with
  | read => exact agree.readInput inside environment state
  | write => exact agree.writeOutput inside environment state
  | load =>
      apply agree.settle
      rw [agree.cell inside]
      cases other.cell operand with
      | error error => exact .error rfl
      | ok text => exact .ok (agree.accumulate text).advance
  | store =>
      simp only [Processor.execute, agree.registers]
      exact agree.writeCell inside environment _ state
  | add => exact agree.settle (agree.combine inside _) state
  | subtract => exact agree.settle (agree.combine inside _) state
  | branch => exact agree.settle (.ok (agree.goTo operand)) state
  | branchNeg => exact agree.settle (agree.branchIf operand _) state
  | branchZero => exact agree.settle (agree.branchIf operand _) state
  | halt => exact ⟨rfl, agree, rfl⟩

/-- A confined cycle does the same in both. -/
theorem cycle (agree : Agree count processor other) (confined : Confined count processor)
    (environment : Environment σ) (state : σ) :
    AgreeAfter count (processor.cycle environment state) (other.cycle environment state) := by
  simp only [Processor.cycle, ← agree.fetch confined.pc]
  cases word : Instruction.ofText? processor.fetch with
  | none => exact ⟨by rw [agree.registers], agree, rfl⟩
  | some instruction =>
      have fetched := agree.fetched processor.fetch
      simp only
      cases instruction.operation? with
      | none => exact ⟨by rw [fetched.fault], fetched, rfl⟩
      | some opcode =>
          have decoded := agree.decoded processor.fetch opcode instruction.operand.toNat
          simp only [← decoded.registers]
          exact decoded.execute (confined.operand instruction word) environment opcode _

theorem inMemory (agree : Agree count processor other) (inside : processor.registers.pc < count) :
    processor.inMemory = true ∧ other.inMemory = true := by
  rw [Processor.inMemory, Processor.inMemory, ← agree.registers]
  exact agree.memory.isValid inside

theorem permits (agree : Agree count processor other) (inside : processor.registers.pc < count)
    (environment : Environment σ) (resumed : Option Nat) (state : σ) :
    processor.permits environment resumed state = other.permits environment resumed state := by
  rw [Processor.permits, Processor.permits, agree.fetch inside, agree.registers]

theorem finish_halt (agree : Agree count processor other) (state : σ) :
    AgreeAfter count (processor.finish processor.haltEvent state)
      (other.finish other.haltEvent state) := by
  rw [Processor.haltEvent, Processor.haltEvent, ← agree.registers]
  exact ⟨rfl, { agree with final := rfl }, rfl⟩

end Agree

end Processor

end DecimalMachine
