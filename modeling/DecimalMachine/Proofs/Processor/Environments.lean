import DecimalMachine.Proofs.Processor.Cycle

/-!
# Cycles in other environments

What a cycle does to the processor depends on the environment through one
answer at most: the input that a read asks for.  A processor in any environment
therefore takes the same cycle as one that is given a list of inputs.
-/

namespace DecimalMachine.Processor

variable {σ : Type}

/-- The progress of a cycle, whether or not the observer went along with it. -/
def Progress.settled : Progress → Progress
  | .advanced _ => .advanced none
  | .halted => .halted
  | .failed error => .failed error

/-- What a cycle does apart from the environment. -/
def effect (outcome : Progress × Processor × σ) : Progress × Processor :=
  (outcome.1.settled, outcome.2.1)

theorem effect_settle (processor : Processor) (outcome : Except ExecutionError Processor)
    (state : σ) (inputs : List String) :
    effect (processor.settle outcome state) = effect (processor.settle outcome inputs) := by
  cases outcome <;> rfl

theorem effect_writeCell (environment : Environment σ) (processor : Processor) (operand : Nat)
    (value : String) (state : σ) (inputs : List String) :
    effect (processor.writeCell environment operand value state) =
      effect (processor.writeCell .ofInputs operand value inputs) := by
  unfold writeCell
  split <;> rfl

theorem effect_readInput (environment : Environment σ) (processor : Processor) (operand : Nat)
    (state : σ) :
    effect (processor.readInput environment operand state) =
      effect (processor.readInput .ofInputs operand
        (environment.input operand state).1.toList) := by
  have given : Environment.ofInputs.input operand (environment.input operand state).1.toList =
      ((environment.input operand state).1, []) := by
    cases (environment.input operand state).1 <;> rfl
  simp only [readInput, given]
  cases processor.inputValue operand (environment.input operand state).1 with
  | error error => rfl
  | ok value => exact effect_writeCell _ _ _ _ _ _

theorem exists_inputs_execute (environment : Environment σ) (processor : Processor)
    (opcode : Opcode) (operand : Nat) (state : σ) :
    ∃ inputs, effect (processor.execute environment opcode operand state) =
      effect (processor.execute .ofInputs opcode operand inputs) := by
  cases opcode with
  | read => exact ⟨_, effect_readInput environment processor operand state⟩
  | write =>
      refine ⟨[], ?_⟩
      simp only [execute, writeOutput]
      split <;> rfl
  | store => exact ⟨[], effect_writeCell _ _ _ _ _ _⟩
  | load | add | subtract | branch | branchNeg | branchZero =>
      exact ⟨[], effect_settle _ _ _ _⟩
  | halt => exact ⟨[], rfl⟩

/-- A cycle in any environment is one on some inputs. -/
theorem exists_inputs_cycle (environment : Environment σ) (processor : Processor) (state : σ) :
    ∃ inputs, effect (processor.cycle environment state) =
      effect (processor.cycle .ofInputs inputs) := by
  simp only [cycle]
  split
  · exact ⟨[], rfl⟩
  · split
    · exact ⟨[], rfl⟩
    · exact exists_inputs_execute environment _ _ _ _

end DecimalMachine.Processor
