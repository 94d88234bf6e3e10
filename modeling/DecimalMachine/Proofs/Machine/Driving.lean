import DecimalMachine.Proofs.Machine.Debugging

/-!
# Driving a machine to its end

A driver makes one call after the other until nothing goes on, and may remark on
every stop.  As long as its remarks do not touch what the console answers from,
it ends exactly where the plain cycles end, and so does a single run without
breakpoints.
-/

namespace DecimalMachine.Machine

open Processor Semantics

variable {τ υ : Type}

/-- Make calls until nothing goes on, and remark on every stop. -/
def drive (console : Console τ) (call : Nat → Call) (remark : Event → Machine → τ → τ) :
    Nat → Machine → τ → Outcome × Machine × τ
  | 0, machine, state => (.unfinished, machine, state)
  | fuel + 1, machine, state =>
      match (call fuel).make console machine state with
      | (.stopped event, machine, state) =>
          if event.halted then (.stopped event, machine, remark event machine state)
          else drive console call remark fuel machine (remark event machine state)
      | other => other

/-- Run without breakpoints. -/
def uninterrupted (console : Console τ) (fuel : Nat) (machine : Machine) (state : τ) :
    Outcome × Machine × τ :=
  Machine.run console fuel ⟨machine.processor, .empty⟩ state

/-- Granted enough instructions, a way of executing a machine comes to an end:
the outcome, the processor and what is in view of the surroundings. -/
def EndsWith (through : Nat → Machine → τ → Outcome × Machine × τ) (view : τ → υ)
    (machine : Machine) (state : τ) (ending : Outcome × Processor × υ) : Prop :=
  ∃ fuel next rest, through fuel machine state = (ending.1, next, rest) ∧
    ending.1 ≠ .unfinished ∧ next.processor = ending.2.1 ∧ view rest = ending.2.2

variable {console : Console τ} {view : τ → υ}

/-- What comes to an end only where the plain cycles do, and does so when they
do, comes to the same ends. -/
theorem endsWith_iff {through : Nat → Machine → τ → Outcome × Machine × τ} {machine : Machine}
    {state : τ} {start : Processor × τ}
    (sound : ∀ {fuel outcome next rest}, through fuel machine state = (outcome, next, rest) →
      outcome ≠ .unfinished →
      ∃ n later, after (plainCycle console.plain) n start =
        .error (outcome, next.processor, later) ∧ view rest = view later)
    (finishes : ∀ {n result}, after (plainCycle console.plain) n start = .error result →
      ∃ fuel, (through fuel machine state).1 ≠ .unfinished) (ending : Outcome × Processor × υ) :
    EndsWith through view machine state ending ↔
      ∃ n later, after (plainCycle console.plain) n start = .error (ending.1, ending.2.1, later) ∧
        view later = ending.2.2 := by
  obtain ⟨outcome, processor, shown⟩ := ending
  constructor
  · rintro ⟨fuel, next, rest, run, ended, rfl, rfl⟩
    obtain ⟨n, later, cycles, alike⟩ := sound run ended
    exact ⟨n, later, cycles, alike.symm⟩
  · rintro ⟨n, later, cycles, seen⟩
    obtain ⟨fuel, ended⟩ := finishes cycles
    rcases run : through fuel machine state with ⟨outcome, next, rest⟩
    rw [run] at ended
    obtain ⟨m, other, otherCycles, alike⟩ := sound run ended
    cases ending_unique cycles otherCycles
    exact ⟨fuel, next, rest, run, ended, rfl, alike.trans seen⟩

/-! ## A single run -/

section Uninterrupted

variable {machine next : Machine} {state other rest : τ} {outcome : Outcome} {fuel n : Nat}

/-- A run without breakpoints ends where the plain cycles end, or is out of
instructions after as many cycles. -/
theorem ended_of_uninterrupted (respects : console.Respects view)
    (going : machine.processor.final = none) (same : view state = view other)
    (run : uninterrupted console fuel machine state = (outcome, next, rest)) :
    (outcome = .unfinished ∧ ∃ reached,
      after (plainCycle console.plain) fuel (machine.processor.withStops none none, other) =
        .ok reached) ∨
    ∃ n later, after (plainCycle console.plain) n (machine.processor.withStops none none, other) =
      .error (outcome, next.processor, later) ∧ view rest = view later := by
  have related : Alike view (· = .empty) (Breakpoints.empty.clearLastEvent, state) other :=
    ⟨rfl, same⟩
  obtain ⟨ran, objects⟩ := ran_run (mirrors_empty respects) related going fuel
  rw [uninterrupted, run_eq] at run
  cases run
  rcases result : machine.processor.run (environment console) fuel
    (Breakpoints.empty.clearLastEvent, state) with ⟨outcome, processor, breakpoints, left⟩
  rw [result] at ran objects
  cases ran with
  | @ended n _ _ _ later cycles related =>
      refine .inr ⟨n, later, ?_, related.2⟩
      rw [report_of_ends breakpoints (ends_of_ended cycles)]
      exact cycles
  | @stopped _ event _ _ _ _ pauses _ _ _ =>
      exact absurd (objects event rfl pauses) (not_objects_empty console view)
  | unfinished cycles _ => exact .inl ⟨rfl, _, cycles⟩

/-- A single run without breakpoints comes to the end that the plain cycles come
to. -/
theorem uninterrupted_endsWith_iff (respects : console.Respects view)
    (going : machine.processor.final = none) (ending : Outcome × Processor × υ) :
    EndsWith (uninterrupted console) view machine state ending ↔
      ∃ n later, after (plainCycle console.plain) n (machine.processor.withStops none none, state) =
        .error (ending.1, ending.2.1, later) ∧ view later = ending.2.2 := by
  apply endsWith_iff
  · intro fuel outcome next rest run ended
    rcases ended_of_uninterrupted respects going rfl run with ⟨unfinished, _⟩ | found
    · exact absurd unfinished ended
    · exact found
  · intro n result cycles
    refine ⟨n, ?_⟩
    rcases run : uninterrupted console n machine state with ⟨outcome, next, rest⟩
    rcases ended_of_uninterrupted respects going rfl run with
      ⟨_, reached, going⟩ | ⟨m, later, ended, _⟩
    · rw [cycles] at going
      cases going
    · intro unfinished
      have ends := ends_of_ended ended
      rw [show outcome = .unfinished from unfinished] at ends
      exact ends

/-- The end of a machine that was not stopped, with all of its surroundings in
view. -/
theorem uninterrupted_endsWith_id_iff (going : machine.processor.final = none)
    (unmarked : machine.processor.withStops none none = machine.processor) {processor : Processor} :
    EndsWith (uninterrupted console) id machine state (outcome, processor, rest) ↔
      ∃ n, after (plainCycle console.plain) n (machine.processor, state) =
        .error (outcome, processor, rest) := by
  have found : EndsWith (uninterrupted console) id machine state (outcome, processor, rest) ↔ _ :=
    uninterrupted_endsWith_iff console.respects_id going _
  rw [unmarked] at found
  constructor
  · intro ended
    obtain ⟨n, later, cycles, rfl⟩ := found.mp ended
    exact ⟨n, cycles⟩
  · rintro ⟨n, cycles⟩
    exact found.mpr ⟨n, rest, cycles, rfl⟩

end Uninterrupted

/-! ## Drivers -/

section Drivers

variable {call : Nat → Call} {remark : Event → Machine → τ → τ} {machine next : Machine}
  {state other rest : τ} {outcome : Outcome} {fuel n : Nat}

/-- The cycles that a machine may still lose to a stop at its instruction. -/
def pending (machine : Machine) : Nat :=
  if machine.processor.stoppedAt = some machine.processor.registers.pc then 0 else 1

/-- Between two stops either the program goes on, or the second one marks the
instruction and the first one did not. -/
theorem pending_lt {plain : Environment τ} {limit m : Nat} {call : Call} {event : Event}
    {later : τ} (paused : Paused plain (call.resumed machine.processor) (machine.processor, other)
      limit m (.stopped event) (next.processor, later)) :
    next.pending < 2 * m + machine.pending := by
  have small : next.pending ≤ 1 := by
    unfold pending
    split <;> decide
  cases m with
  | succ m => omega
  | zero =>
      obtain ⟨fresh, marked⟩ := paused.progress (by simp) rfl
      have nothing : next.pending = 0 := if_pos marked
      have something : machine.pending = 1 := by
        cases call with
        | step => exact absurd rfl fresh
        | run fuel => exact if_neg fresh
      omega

/-- A driver ends only where the plain cycles end. -/
theorem ended_of_drive (respects : console.Respects view)
    (within : ∀ fuel, (call fuel).Within (fuel + 1))
    (remarks : ∀ event machine state, view (remark event machine state) = view state)
    (going : machine.processor.final = none) (same : view state = view other)
    (driven : drive console call remark fuel machine state = (outcome, next, rest))
    (ended : outcome ≠ .unfinished) :
    ∃ n later, after (plainCycle console.plain) n (machine.processor.withStops none none, other) =
        .error (outcome, next.processor, later) ∧ view rest = view later := by
  induction fuel generalizing machine state other with
  | zero =>
      cases driven
      exact absurd rfl ended
  | succ fuel ih =>
      rw [drive] at driven
      rcases made : (call fuel).make console machine state with ⟨result, reached, left⟩
      rw [made] at driven
      have ran := ran_call respects made same going (within fuel)
      cases result with
      | stopped event =>
          simp only at driven
          by_cases halted : event.halted = true
          · rw [if_pos halted] at driven
            cases driven
            obtain ⟨n, later, cycles, alike⟩ := ended_of_ran ran halted
            exact ⟨n, later, cycles, (remarks _ _ _).trans alike⟩
          · rw [if_neg halted] at driven
            obtain ⟨m, later, paused, alike⟩ := paused_of_ran ran halted
            obtain ⟨n, latest, cycles, seen⟩ :=
              ih paused.final ((remarks _ _ _).trans alike) driven
            exact ⟨m + n, latest, (after_add paused.cycles n).trans cycles, seen⟩
      | failed error =>
          cases driven
          exact ended_of_ran ran trivial
      | unfinished =>
          cases driven
          exact absurd rfl ended

/-- With enough instructions a driver ends where the plain cycles do: of two
calls that stop without an end at least one executes an instruction. -/
theorem drive_ne_unfinished (respects : console.Respects view)
    (within : ∀ fuel, (call fuel).Within (fuel + 1))
    (remarks : ∀ event machine state, view (remark event machine state) = view state)
    (going : machine.processor.final = none) (same : view state = view other)
    {result : Outcome × Processor × τ}
    (cycles : after (plainCycle console.plain) n (machine.processor.withStops none none, other) =
      .error result) (enough : 2 * n + machine.pending < fuel) :
    (drive console call remark fuel machine state).1 ≠ .unfinished := by
  induction fuel generalizing machine state other n with
  | zero => cases enough
  | succ fuel ih =>
      rw [drive]
      rcases made : (call fuel).make console machine state with ⟨outcome, reached, left⟩
      have ran := ran_call respects made same going (within fuel)
      cases outcome with
      | failed error => simp
      | unfinished =>
          obtain ⟨m, later, paused, _⟩ := paused_of_ran ran id
          have used := paused.used rfl
          have earlier := lt_of_after paused.cycles cycles
          omega
      | stopped event =>
          simp only
          by_cases halted : event.halted = true
          · rw [if_pos halted]
            simp
          · rw [if_neg halted]
            obtain ⟨m, later, paused, alike⟩ := paused_of_ran ran halted
            have earlier := lt_of_after paused.cycles cycles
            have remaining : after (plainCycle console.plain) (n - m)
                (reached.processor.withStops none none, later) = .error result := by
              rw [← after_add paused.cycles, Nat.add_sub_cancel' (Nat.le_of_lt earlier), cycles]
            have fewer := pending_lt paused
            exact ih paused.final ((remarks _ _ _).trans alike) remaining (by omega)

/-- Whatever calls a driver makes and whatever it remarks, it comes to the end
that the plain cycles come to. -/
theorem drive_endsWith_iff (respects : console.Respects view)
    (within : ∀ fuel, (call fuel).Within (fuel + 1))
    (remarks : ∀ event machine state, view (remark event machine state) = view state)
    (going : machine.processor.final = none) (ending : Outcome × Processor × υ) :
    EndsWith (drive console call remark) view machine state ending ↔
      ∃ n later, after (plainCycle console.plain) n (machine.processor.withStops none none, state) =
        .error (ending.1, ending.2.1, later) ∧ view later = ending.2.2 := by
  apply endsWith_iff
  · intro fuel outcome next rest driven ended
    exact ended_of_drive respects within remarks going rfl driven ended
  · intro n result cycles
    exact ⟨_, drive_ne_unfinished respects within remarks going rfl cycles (Nat.lt_succ_self _)⟩

/-- A driver comes to the end of a single run without breakpoints. -/
theorem drive_endsWith_iff_uninterrupted (respects : console.Respects view)
    (within : ∀ fuel, (call fuel).Within (fuel + 1))
    (remarks : ∀ event machine state, view (remark event machine state) = view state)
    (going : machine.processor.final = none) (ending : Outcome × Processor × υ) :
    EndsWith (drive console call remark) view machine state ending ↔
      EndsWith (uninterrupted console) view machine state ending :=
  (drive_endsWith_iff respects within remarks going ending).trans
    (uninterrupted_endsWith_iff respects going ending).symm

end Drivers

end DecimalMachine.Machine
