import DecimalMachine.Processor.Basic
import DecimalMachine.Proofs.Memory.Cells
import DecimalMachine.Proofs.Outcomes

/-!
# Written cells

After an instruction its operation and its operand are still in the registers,
so the cell that it wrote can be read off the processor.  An observed cycle is
therefore the unobserved one, after which the observer is asked about that
cell.
-/

namespace DecimalMachine.Processor

variable {σ : Type}

/-- The cell that the last instruction wrote, if it wrote one, with its
content. -/
def written? (processor : Processor) : Option (Nat × String) :=
  match processor.registers.opcode with
  | some .read | some .store =>
      some (processor.registers.operand,
        processor.memory.cells.getD processor.registers.operand Memory.emptyWord)
  | _ => none

/-- Ask the observer about the cell that a cycle wrote. -/
def ask (environment : Environment σ) (outcome : Progress × Processor × σ) :
    Progress × Processor × σ :=
  match outcome with
  | (.advanced _, next, state) =>
      match next.written? with
      | none => (.advanced none, next, state)
      | some (address, value) =>
          let (accepted, state) := environment.accepts address value state
          (.advanced (if accepted then none else some (address, value)), next, state)
  | other => other

@[simp]
theorem written?_goTo (processor : Processor) (pc : Nat) :
    (processor.goTo pc).written? = processor.written? :=
  rfl

@[simp]
theorem written?_advance (processor : Processor) :
    processor.advance.written? = processor.written? :=
  rfl

/-- What a write leaves behind is the cell that was written. -/
theorem written?_of_write {processor : Processor} {memory : Memory} {value : String}
    (writes : processor.registers.opcode = some .read ∨ processor.registers.opcode = some .store)
    (written : processor.memory.write processor.registers.operand value = .ok memory) :
    { processor with memory := memory }.written? = some (processor.registers.operand, value) := by
  unfold Memory.write at written
  split at written
  · next valid =>
      cases written
      have inside := Memory.isValid_iff.mp valid
      rw [Memory.size] at inside
      rcases writes with opcode | opcode <;> simp [written?, opcode, Array.getD, inside]
  · cases written

section Execution

variable (environment : Environment σ) {processor : Processor} (state : σ)

/-- Nothing is asked after an operation that writes no cell. -/
theorem ask_settle {outcome : Except ExecutionError Processor}
    (writes : ∀ next, outcome = .ok next → next.written? = none) :
    ask environment (processor.settle outcome state) = processor.settle outcome state := by
  cases outcome with
  | error error => rfl
  | ok next => simp only [settle, ask, writes next rfl]

theorem written?_of_combine {operand : Nat} {f : Int → Int → Int} {next : Processor}
    (combined : processor.combine operand f = .ok next) :
    next.written? = processor.written? := by
  simp only [combine, bind_eq_ok_iff] at combined
  obtain ⟨left, _, right, _, text, _, combined⟩ := combined
  cases combined
  rfl

theorem written?_of_branchIf {operand : Nat} {test : Int → Bool} {next : Processor}
    (branched : processor.branchIf operand test = .ok next) :
    next.written? = processor.written? := by
  simp only [branchIf, bind_eq_ok_iff] at branched
  obtain ⟨value, _, branched⟩ := branched
  cases branched
  split <;> rfl

theorem ask_writeCell (value : String)
    (writes : processor.registers.opcode = some .read ∨ processor.registers.opcode = some .store) :
    processor.writeCell environment processor.registers.operand value state =
      ask environment
        (processor.writeCell environment.unobserved processor.registers.operand value state) := by
  unfold writeCell
  cases written : processor.memory.write processor.registers.operand value with
  | error error => rfl
  | ok memory =>
      simp only [Environment.unobserved, ask, written?_advance, written?_of_write writes written]
      rfl

/-- An operation is the unobserved one, after which the observer is asked about
the cell that it wrote. -/
theorem execute_eq_ask {opcode : Opcode} (decoded : processor.registers.opcode = some opcode) :
    processor.execute environment opcode processor.registers.operand state =
      ask environment
        (processor.execute environment.unobserved opcode processor.registers.operand state) := by
  have silent : opcode ≠ .read → opcode ≠ .store → processor.written? = none := by
    intro notRead notStore
    unfold written?
    rw [decoded]
    cases opcode <;> simp at notRead notStore ⊢
  cases opcode with
  | read =>
      have same : environment.unobserved.input = environment.input := rfl
      simp only [execute, readInput, same]
      cases processor.inputValue processor.registers.operand
          (environment.input processor.registers.operand state).1 with
      | error error => rfl
      | ok value => exact ask_writeCell environment _ value (.inl decoded)
  | store => exact ask_writeCell environment state _ (.inr decoded)
  | write =>
      have quiet := silent (by decide) (by decide)
      simp only [execute, writeOutput]
      cases processor.cell processor.registers.operand with
      | error error => rfl
      | ok value =>
          have same : { processor with outputs := processor.outputs ++ [value] }.written? = none :=
            quiet
          simp only [ask, written?_advance, same]
          rfl
  | load =>
      refine (ask_settle environment state ?_).symm
      intro next loaded
      obtain ⟨text, _, rfl⟩ := map_eq_ok_iff.mp loaded
      exact silent (by decide) (by decide)
  | add | subtract =>
      refine (ask_settle environment state ?_).symm
      intro next combined
      rw [written?_of_combine combined]
      exact silent (by decide) (by decide)
  | branchNeg | branchZero =>
      refine (ask_settle environment state ?_).symm
      intro next branched
      rw [written?_of_branchIf branched]
      exact silent (by decide) (by decide)
  | branch =>
      have quiet := silent (by decide) (by decide)
      simp only [execute, settle, ask, written?_goTo, quiet]
  | halt => rfl

/-- A cycle is the unobserved one, after which the observer is asked about the
cell that it wrote. -/
theorem cycle_eq_ask (processor : Processor) :
    processor.cycle environment state =
      ask environment (processor.cycle environment.unobserved state) := by
  simp only [cycle]
  cases Instruction.ofText? processor.fetch with
  | none => rfl
  | some instruction =>
      simp only
      cases instruction.operation? with
      | none => rfl
      | some opcode =>
          let decoded := (processor.fetched processor.fetch).decoded opcode
            instruction.operand.toNat
          have opcodeEq : decoded.registers.opcode = some opcode := rfl
          exact execute_eq_ask environment (environment.trace decoded.registers state) opcodeEq

end Execution

end DecimalMachine.Processor
