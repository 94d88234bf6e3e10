import DecimalMachine.Processor.Run

/-!
# Ends, stops and counts

The event that ended a program and the address at which the observer stopped a
run belong to the calls that make steps and runs.  Cycles neither look at them
nor change them, and the count of the cycles they only increase.
-/

namespace DecimalMachine.Processor

variable {σ : Type}

/-- Replace the event of the end and the address of the stop. -/
def withStops (final : Option Event) (stoppedAt : Option Nat) (processor : Processor) :
    Processor :=
  { processor with final := final, stoppedAt := stoppedAt }

/-- Replace the event of the end, the address of the stop and the count. -/
def withMarks (final : Option Event) (stoppedAt : Option Nat) (cycles : Nat)
    (processor : Processor) : Processor :=
  { processor with
    final := final
    stoppedAt := stoppedAt
    registers := { processor.registers with cycles := cycles } }

/-- Change the processor that comes out of a cycle. -/
def onProcessor (change : Processor → Processor) (outcome : Progress × Processor × σ) :
    Progress × Processor × σ :=
  (outcome.1, change outcome.2.1, outcome.2.2)

section Operations

variable (final : Option Event) (stoppedAt : Option Nat) (cycles : Nat) (processor : Processor)

theorem settle_withMarks {outcome : Except ExecutionError Processor}
    {changed : Except ExecutionError Processor}
    (same : changed = withMarks final stoppedAt cycles <$> outcome) (state : σ) :
    (processor.withMarks final stoppedAt cycles).settle changed state =
      onProcessor (withMarks final stoppedAt cycles) (processor.settle outcome state) := by
  subst same
  cases outcome <;> rfl

theorem combine_withMarks (operand : Nat) (f : Int → Int → Int) :
    (processor.withMarks final stoppedAt cycles).combine operand f =
      withMarks final stoppedAt cycles <$> processor.combine operand f := by
  unfold combine
  change (processor.accumulatorNumber >>= fun left => processor.cellNumber operand >>= _) = _
  cases processor.accumulatorNumber with
  | error error => rfl
  | ok left =>
      cases processor.cellNumber operand with
      | error error => rfl
      | ok right =>
          simp only [bind, Except.bind]
          cases (Decimal.write (f left right)).mapError ExecutionError.limit <;> rfl

theorem branchIf_withMarks (operand : Nat) (test : Int → Bool) :
    (processor.withMarks final stoppedAt cycles).branchIf operand test =
      withMarks final stoppedAt cycles <$> processor.branchIf operand test := by
  unfold branchIf
  change (processor.accumulatorNumber >>= _) = _
  cases processor.accumulatorNumber with
  | error error => rfl
  | ok value =>
      simp only [bind, Except.bind]
      cases test value <;> rfl

theorem writeCell_withMarks (environment : Environment σ) (operand : Nat) (value : String)
    (state : σ) :
    (processor.withMarks final stoppedAt cycles).writeCell environment operand value state =
      onProcessor (withMarks final stoppedAt cycles)
        (processor.writeCell environment operand value state) := by
  have same : (processor.withMarks final stoppedAt cycles).memory = processor.memory := rfl
  simp only [writeCell, same]
  cases processor.memory.write operand value <;> rfl

/-- Operations take ends, stops and counts along as they are. -/
theorem execute_withMarks (environment : Environment σ) (opcode : Opcode) (operand : Nat)
    (state : σ) :
    (processor.withMarks final stoppedAt cycles).execute environment opcode operand state =
      onProcessor (withMarks final stoppedAt cycles)
        (processor.execute environment opcode operand state) := by
  have cell : (processor.withMarks final stoppedAt cycles).cell operand =
      processor.cell operand := rfl
  cases opcode with
  | read =>
      have same : ∀ answer, (processor.withMarks final stoppedAt cycles).inputValue operand answer =
          processor.inputValue operand answer := fun _ => rfl
      simp only [execute, readInput, same]
      cases processor.inputValue operand (environment.input operand state).1 with
      | error error => rfl
      | ok value => exact writeCell_withMarks final stoppedAt cycles processor environment _ _ _
  | write =>
      simp only [execute, writeOutput, cell]
      cases processor.cell operand <;> rfl
  | load =>
      apply settle_withMarks
      rw [cell]
      cases processor.cell operand <;> rfl
  | store => exact writeCell_withMarks final stoppedAt cycles processor environment _ _ _
  | add => exact settle_withMarks _ _ _ _ (combine_withMarks _ _ _ _ _ _) _
  | subtract => exact settle_withMarks _ _ _ _ (combine_withMarks _ _ _ _ _ _) _
  | branchNeg => exact settle_withMarks _ _ _ _ (branchIf_withMarks _ _ _ _ _ _) _
  | branchZero => exact settle_withMarks _ _ _ _ (branchIf_withMarks _ _ _ _ _ _) _
  | branch | halt => rfl

end Operations

/-- Operations leave ends, stops and counts alone. -/
theorem marks_execute (environment : Environment σ) (processor : Processor) (opcode : Opcode)
    (operand : Nat) (state : σ) :
    let next := (processor.execute environment opcode operand state).2.1
    next = next.withMarks processor.final processor.stoppedAt processor.registers.cycles := by
  have marks := execute_withMarks processor.final processor.stoppedAt processor.registers.cycles
    processor environment opcode operand state
  exact congrArg (·.2.1) marks

theorem cycles_execute (environment : Environment σ) (processor : Processor) (opcode : Opcode)
    (operand : Nat) (state : σ) :
    (processor.execute environment opcode operand state).2.1.registers.cycles =
      processor.registers.cycles := by
  rw [marks_execute]
  rfl

theorem execute_withStops (final : Option Event) (stoppedAt : Option Nat) (processor : Processor)
    (environment : Environment σ) (opcode : Opcode) (operand : Nat) (state : σ) :
    (processor.withStops final stoppedAt).execute environment opcode operand state =
      onProcessor (withStops final stoppedAt)
        (processor.execute environment opcode operand state) := by
  have count := cycles_execute environment processor opcode operand state
  calc
    (processor.withStops final stoppedAt).execute environment opcode operand state =
        onProcessor (withMarks final stoppedAt processor.registers.cycles)
          (processor.execute environment opcode operand state) :=
      execute_withMarks final stoppedAt processor.registers.cycles processor environment opcode
        operand state
    _ = onProcessor (withStops final stoppedAt)
          (processor.execute environment opcode operand state) := by
      rw [← count]
      rfl

/-- A cycle takes ends and stops along as they are. -/
theorem cycle_withStops (final : Option Event) (stoppedAt : Option Nat) (processor : Processor)
    (environment : Environment σ) (state : σ) :
    (processor.withStops final stoppedAt).cycle environment state =
      onProcessor (withStops final stoppedAt) (processor.cycle environment state) := by
  have same : (processor.withStops final stoppedAt).fetch = processor.fetch := rfl
  simp only [cycle, same]
  cases Instruction.ofText? processor.fetch with
  | none => rfl
  | some instruction =>
      simp only
      cases instruction.operation? with
      | none => rfl
      | some opcode =>
          exact execute_withStops final stoppedAt
            ((processor.fetched processor.fetch).decoded opcode instruction.operand.toNat)
            environment opcode _ _

theorem withStops_self (processor : Processor) :
    processor.withStops processor.final processor.stoppedAt = processor :=
  rfl

theorem final_cycle (environment : Environment σ) (processor : Processor) (state : σ) :
    (processor.cycle environment state).2.1.final = processor.final := by
  rw [← withStops_self processor, cycle_withStops]
  rfl

theorem stoppedAt_cycle (environment : Environment σ) (processor : Processor) (state : σ) :
    (processor.cycle environment state).2.1.stoppedAt = processor.stoppedAt := by
  rw [← withStops_self processor, cycle_withStops]
  rfl

end DecimalMachine.Processor
