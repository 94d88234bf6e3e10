import DecimalMachine.Proofs.Processor.Observation
import DecimalMachine.Proofs.Semantics.Iteration

/-!
# Runs as iterated cycles

Where nothing stops a run, it is the iteration of plain cycles: as many of them
as were granted, or as many as lead to the end.
-/

namespace DecimalMachine.Processor

open Semantics

variable {σ : Type}

/-- Execute an instruction without asking the observer, unless the program ends
there. -/
def plainCycle (environment : Environment σ) (state : Processor × σ) :
    Except (Outcome × Processor × σ) (Processor × σ) :=
  if state.1.inMemory then
    match state.1.cycle environment state.2 with
    | (.advanced _, next) => .ok next
    | (.halted, next, rest) => .error (next.finish next.haltEvent rest)
    | (.failed error, next) => .error (.failed error, next)
  else .error (state.1.finish state.1.endEvent state.2)

/-- What a run tells of the iteration of plain cycles. -/
def told : Except (Outcome × Processor × σ) (Processor × σ) → Outcome × Processor × σ
  | .ok state => (.unfinished, state)
  | .error ended => ended

variable {environment : Environment σ}

theorem permits_of_unobserved (unobserved : Unobserved environment) (processor : Processor)
    (resumed : Option Nat) (state : σ) :
    processor.permits environment resumed state = (true, state) := by
  unfold permits
  split
  · rfl
  · exact unobserved.allows _ _ _

/-- A run that nothing stops is the iteration of plain cycles. -/
theorem runFrom_eq_after (unobserved : Unobserved environment) (fuel : Nat)
    (resumed : Option Nat) (processor : Processor) (state : σ) :
    runFrom environment fuel resumed processor state =
      told (after (plainCycle environment) fuel (processor, state)) := by
  induction fuel generalizing resumed processor state with
  | zero => rfl
  | succ fuel ih =>
      rw [runFrom, permits_of_unobserved unobserved]
      simp only [after, plainCycle]
      by_cases inside : processor.inMemory = true
      · rw [if_pos inside, if_pos inside]
        rcases executed : processor.cycle environment state with ⟨progress, next, rest⟩
        cases progress with
        | advanced refused =>
            cases accepted_of_cycle unobserved executed
            exact ih none next rest
        | halted => rfl
        | failed error => rfl
      · rw [if_neg inside, if_neg inside]
        rfl

end DecimalMachine.Processor
