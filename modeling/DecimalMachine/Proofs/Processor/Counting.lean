import DecimalMachine.Proofs.Processor.Effects
import DecimalMachine.Proofs.Processor.Running
import DecimalMachine.Proofs.Processor.Stops

/-!
# Counted cycles

Every cycle that does not fail is counted, a halt as well.  The count of a
processor therefore tells how many cycles have led to it since its program was
loaded, and these cycles alone lead to the same memory, registers and outputs.
-/

namespace DecimalMachine.Processor

open Semantics

variable {σ : Type} {environment : Environment σ} {processor next : Processor} {state rest : σ}

/-! ## The count -/

/-- A cycle that does not fail is counted. -/
theorem cycles_cycle {progress : Progress}
    (executed : processor.cycle environment state = (progress, next, rest))
    (fine : ∀ error, progress ≠ .failed error) :
    next.registers.cycles = processor.registers.cycles + 1 := by
  have how := cycled environment processor state
  rw [executed] at how
  cases how with
  | malformed | unknown => exact absurd rfl (fine _)
  | @executed opcode operand _ _ _ execute =>
      have same := cycles_execute environment (processor.atInstruction opcode operand) opcode
        operand (environment.trace (processor.atInstruction opcode operand).registers state)
      rw [execute] at same
      exact same

/-! ## Plain cycles -/

/-- What so many plain cycles that do not end the program leave as it was. -/
structure Passed (n : Nat) (processor next : Processor) : Prop where
  final : next.final = processor.final
  stoppedAt : next.stoppedAt = processor.stoppedAt
  cycles : next.registers.cycles = processor.registers.cycles + n

/-- How a plain cycle ends a program. -/
inductive Ending (environment : Environment σ) (processor : Processor) (state : σ) :
    Outcome × Processor × σ → Prop where
  | failed {error : ExecutionError} {next : Processor} {rest : σ}
      (executed : processor.cycle environment state = (.failed error, next, rest)) :
      Ending environment processor state (.failed error, next, rest)
  | halted {next : Processor} {rest : σ} (inside : processor.inMemory = true)
      (executed : processor.cycle environment state = (.halted, next, rest)) :
      Ending environment processor state (next.finish next.haltEvent rest)
  | outside : Ending environment processor state (processor.finish processor.endEvent state)

theorem cycle_of_plainCycle
    (passed : plainCycle environment (processor, state) = .ok (next, rest)) :
    processor.inMemory = true ∧
      ∃ refused, processor.cycle environment state = (.advanced refused, next, rest) := by
  unfold plainCycle at passed
  split at passed
  · next inside =>
      split at passed
      · next refused after executed =>
          cases passed
          exact ⟨inside, refused, executed⟩
      · cases passed
      · cases passed
  · cases passed

theorem ending_of_plainCycle {result : Outcome × Processor × σ}
    (ended : plainCycle environment (processor, state) = .error result) :
    Ending environment processor state result := by
  unfold plainCycle at ended
  split at ended
  · next inside =>
      split at ended
      · cases ended
      · next executed =>
          cases ended
          exact .halted inside executed
      · next executed =>
          cases ended
          exact .failed executed
  · cases ended
    exact .outside

theorem passed_of_plainCycle
    (passed : plainCycle environment (processor, state) = .ok (next, rest)) :
    Passed 1 processor next := by
  obtain ⟨_, refused, executed⟩ := cycle_of_plainCycle passed
  have final := final_cycle environment processor state
  have stoppedAt := stoppedAt_cycle environment processor state
  rw [executed] at final stoppedAt
  exact ⟨final, stoppedAt, cycles_cycle executed (by simp)⟩

theorem passed_of_after {n : Nat} {start reached : Processor × σ}
    (run : after (plainCycle environment) n start = .ok reached) : Passed n start.1 reached.1 := by
  induction n generalizing start with
  | zero =>
      cases run
      exact ⟨rfl, rfl, rfl⟩
  | succ n ih =>
      cases taken : plainCycle environment start with
      | error ending =>
          rw [after_succ_of_error taken] at run
          cases run
      | ok middle =>
          rw [after_succ_of_ok taken] at run
          have first := passed_of_plainCycle taken
          have others := ih run
          refine ⟨others.final.trans first.final, others.stoppedAt.trans first.stoppedAt, ?_⟩
          rw [others.cycles, first.cycles]
          omega

/-- Nothing goes on after the outcome. -/
def Outcome.Ends : Outcome → Prop
  | .stopped event => event.halted = true
  | .failed _ => True
  | .unfinished => False

theorem ends_of_ended {n : Nat} {start : Processor × σ} {outcome : Outcome}
    (ended : after (plainCycle environment) n start = .error (outcome, next, rest)) :
    outcome.Ends := by
  obtain ⟨m, last, _, ends⟩ := exists_last_of_after ended
  cases ending_of_plainCycle ends with
  | failed _ => trivial
  | halted _ _ => rfl
  | outside => rfl

/-- A program ends with a halt or outside memory, and the processor keeps the
event. -/
theorem final_of_ended {n : Nat} {start : Processor × σ} {event : Event}
    (ended : after (plainCycle environment) n start = .error (.stopped event, next, rest)) :
    event.halted = true ∧ next.final = some event ∧ next.stoppedAt = start.1.stoppedAt := by
  obtain ⟨m, last, reached, ends⟩ := exists_last_of_after ended
  have passed := passed_of_after reached
  cases ending_of_plainCycle ends with
  | halted _ executed =>
      have stoppedAt := stoppedAt_cycle environment last.1 last.2
      rw [executed] at stoppedAt
      exact ⟨rfl, rfl, stoppedAt.trans passed.stoppedAt⟩
  | outside => exact ⟨rfl, rfl, passed.stoppedAt⟩

/-! ## Bare cycles -/

/-- A cycle that nothing looks at: no observer is asked, and a halt is a cycle
like any other. -/
def bareCycle (environment : Environment σ) (state : Processor × σ) :
    Except (Option ExecutionError) (Processor × σ) :=
  if state.1.inMemory then
    match state.1.cycle environment state.2 with
    | (.failed error, _) => .error (some error)
    | (_, next) => .ok next
  else .error none

theorem bareCycle_of_plainCycle {start reached : Processor × σ}
    (passed : plainCycle environment start = .ok reached) :
    bareCycle environment start = .ok reached := by
  obtain ⟨inside, refused, executed⟩ := cycle_of_plainCycle passed
  simp only [bareCycle, inside, executed, if_true]

/-- The cycles that were counted lead to the end of a program. -/
theorem exists_count_of_ended {n : Nat} {start : Processor × σ} {event : Event}
    (ended : after (plainCycle environment) n start = .error (.stopped event, next, rest)) :
    ∃ k, next.registers.cycles = start.1.registers.cycles + k ∧
      after (bareCycle environment) k start =
        .ok (next.withStops start.1.final start.1.stoppedAt, rest) := by
  obtain ⟨m, last, reached, ends⟩ := exists_last_of_after ended
  have passed := passed_of_after reached
  have bare := after_of_imp bareCycle_of_plainCycle reached
  obtain ⟨processor, state⟩ := last
  cases ending_of_plainCycle ends with
  | @halted next _ inside executed =>
      have same : next.withStops start.1.final start.1.stoppedAt = next := by
        have final := final_cycle environment processor state
        have stoppedAt := stoppedAt_cycle environment processor state
        rw [executed] at final stoppedAt
        rw [← passed.final, ← passed.stoppedAt, ← final, ← stoppedAt]
        rfl
      refine ⟨m + 1, ?_, ?_⟩
      · change next.registers.cycles = _
        rw [cycles_cycle executed (by simp), passed.cycles, Nat.add_assoc]
      · have taken : bareCycle environment (processor, state) = .ok (next, rest) := by
          simp only [bareCycle, inside, executed, if_true]
        rw [after_add bare, after_one, taken]
        exact congrArg (fun last => Except.ok (last, rest)) same.symm
  | outside =>
      refine ⟨m, passed.cycles, bare.trans ?_⟩
      rw [← passed.final, ← passed.stoppedAt]
      rfl

end DecimalMachine.Processor
