import DecimalMachine.Proofs.Processor.Counting
import DecimalMachine.Proofs.Processor.Observation

/-!
# Runs that are stopped and resumed

A run in an observed environment takes some plain cycles and then ends, stops
or is out of cycles.  A stop without a cycle marks the instruction at which it
happened, and a run that is resumed at a marked instruction does not stop
without a cycle.  Steps and runs can therefore be mixed without skipping or
repeating an instruction.
-/

namespace DecimalMachine.Processor

open Semantics

variable {σ τ : Type}

/-- What a step or a run comes to after some plain cycles. A run is resumed at
an address if it was stopped there, and is out of cycles after a limit. -/
inductive Ran (plain : Environment τ) (Related : σ → τ → Prop) (resumed : Option Nat)
    (start : Processor × τ) (limit : Nat) : Outcome × Processor × σ → Prop where
  | ended {n : Nat} {outcome : Outcome} {next : Processor} {rest : σ} {other : τ}
      (cycles : after (plainCycle plain) n start = .error (outcome, next, other))
      (related : Related rest other) : Ran plain Related resumed start limit (outcome, next, rest)
  | stopped {n : Nat} {event : Event} {next : Processor} {rest : σ} {other : τ}
      (stoppedAt : Option Nat) (pauses : event.halted = false)
      (cycles : after (plainCycle plain) n start = .ok (next, other))
      (progress : 0 < n ∨ resumed ≠ some next.registers.pc ∧ stoppedAt = some next.registers.pc)
      (related : Related rest other) :
      Ran plain Related resumed start limit
        (.stopped event, { next with stoppedAt := stoppedAt }, rest)
  | unfinished {next : Processor} {rest : σ} {other : τ}
      (cycles : after (plainCycle plain) limit start = .ok (next, other))
      (related : Related rest other) :
      Ran plain Related resumed start limit (.unfinished, next, rest)

/-- The surroundings at the end may be told in another way. -/
theorem Ran.imp {ρ : Type} {plain : Environment τ} {Related : σ → τ → Prop} {Closer : ρ → τ → Prop}
    {resumed : Option Nat} {start : Processor × τ} {limit : Nat} {outcome : Outcome}
    {next : Processor} {rest : σ} {shown : ρ}
    (closer : ∀ {other}, Related rest other → Closer shown other)
    (ran : Ran plain Related resumed start limit (outcome, next, rest)) :
    Ran plain Closer resumed start limit (outcome, next, shown) := by
  cases ran with
  | ended cycles related => exact .ended cycles (closer related)
  | stopped stoppedAt pauses cycles progress related =>
      exact .stopped stoppedAt pauses cycles progress (closer related)
  | unfinished cycles related => exact .unfinished cycles (closer related)

section Runs

variable {environment : Environment σ} {plain : Environment τ} {Related : σ → τ → Prop}
  {state : σ} {other : τ} {processor : Processor}

/-- A run after a plain cycle is a run with one more cycle. -/
theorem Ran.after_cycle {resumed : Option Nat} {start middle : Processor × τ} {limit : Nat}
    {result : Outcome × Processor × σ} (taken : plainCycle plain start = .ok middle)
    (ran : Ran plain Related none middle limit result) :
    Ran plain Related resumed start (limit + 1) result := by
  cases ran with
  | @ended n _ _ _ _ cycles related =>
      exact .ended ((after_succ_of_ok taken n).trans cycles) related
  | @stopped n _ _ _ _ stoppedAt pauses cycles _ related =>
      exact .stopped stoppedAt pauses ((after_succ_of_ok taken n).trans cycles)
        (.inl (Nat.succ_pos n)) related
  | unfinished cycles related =>
      exact .unfinished ((after_succ_of_ok taken limit).trans cycles) related

variable (mirrors : Mirrors environment plain Related) (related : Related state other)

include mirrors related

/-- A plain cycle goes where the observed one goes. -/
theorem plainCycle_of_advanced (inside : processor.inMemory = true)
    {refused : Option (Nat × String)} {next : Processor} {rest : σ}
    (executed : processor.cycle environment state = (.advanced refused, next, rest)) :
    ∃ after, plainCycle plain (processor, other) = .ok (next, after) ∧ Related rest after := by
  obtain ⟨after, same, alike⟩ := exists_plain_cycle mirrors related executed
  refine ⟨after, ?_, alike⟩
  simp only [plainCycle, inside, same, Progress.settled, if_true]

theorem ran_of_halted (inside : processor.inMemory = true) {next : Processor} {rest : σ}
    (executed : processor.cycle environment state = (.halted, next, rest))
    (resumed : Option Nat) (limit : Nat) :
    Ran plain Related resumed (processor, other) (limit + 1) (next.finish next.haltEvent rest) := by
  obtain ⟨after, same, alike⟩ := exists_plain_cycle mirrors related executed
  have taken : plainCycle plain (processor, other) = .error (next.finish next.haltEvent after) := by
    simp only [plainCycle, inside, same, Progress.settled, if_true]
  exact .ended ((after_one _ _).trans taken) alike

theorem ran_of_failed (inside : processor.inMemory = true) {error : ExecutionError}
    {next : Processor} {rest : σ}
    (executed : processor.cycle environment state = (.failed error, next, rest))
    (resumed : Option Nat) (limit : Nat) :
    Ran plain Related resumed (processor, other) (limit + 1) (.failed error, next, rest) := by
  obtain ⟨after, same, alike⟩ := exists_plain_cycle mirrors related executed
  have taken : plainCycle plain (processor, other) = .error (.failed error, next, after) := by
    simp only [plainCycle, inside, same, Progress.settled, if_true]
  exact .ended ((after_one _ _).trans taken) alike

omit mirrors in
theorem ran_outside (outside : ¬processor.inMemory = true) (resumed : Option Nat) (limit : Nat) :
    Ran plain Related resumed (processor, other) (limit + 1)
      (processor.finish processor.endEvent state) := by
  have taken : plainCycle plain (processor, other) =
      .error (processor.finish processor.endEvent other) := by
    simp only [plainCycle, outside]
    rfl
  exact .ended ((after_one _ _).trans taken) related

/-- A run takes plain cycles until it ends, stops or is out of cycles, and stops
only if the observer objects. -/
theorem ran_runFrom (fuel : Nat) (resumed : Option Nat) :
    Ran plain Related resumed (processor, other) fuel
        (runFrom environment fuel resumed processor state) ∧
      ∀ event, (runFrom environment fuel resumed processor state).1 = .stopped event →
        event.halted = false → Objects environment Related := by
  induction fuel generalizing resumed processor state other with
  | zero =>
      constructor
      · exact .unfinished rfl related
      · rintro event ⟨⟩
  | succ fuel ih =>
      rw [runFrom]
      by_cases inside : processor.inMemory = true
      · rw [if_pos inside]
        rcases asked : processor.permits environment resumed state with ⟨allowed, asking⟩
        obtain ⟨alike, denied⟩ := related_permits mirrors related asked
        cases allowed with
        | false =>
            obtain ⟨fresh, objects⟩ := denied rfl
            have here : after (plainCycle plain) 0 (processor, other) =
                .ok (processor, other) := rfl
            exact ⟨.stopped (some processor.registers.pc) rfl here (.inr ⟨fresh, rfl⟩) alike,
              fun _ _ _ => objects⟩
        | true =>
            simp only
            rcases executed : processor.cycle environment asking with ⟨progress, next, rest⟩
            cases progress with
            | halted =>
                constructor
                · exact ran_of_halted mirrors alike inside executed resumed fuel
                · rintro event ⟨⟩ ⟨⟩
            | failed error =>
                constructor
                · exact ran_of_failed mirrors alike inside executed resumed fuel
                · rintro event ⟨⟩
            | advanced refused =>
                obtain ⟨after, taken, relatedNext⟩ :=
                  plainCycle_of_advanced mirrors alike inside executed
                cases refused with
                | none =>
                    obtain ⟨ran, objects⟩ := ih relatedNext none
                    exact ⟨ran.after_cycle taken, objects⟩
                | some write =>
                    have reflects := reflects_cycle mirrors alike processor
                    constructor
                    · exact .stopped next.stoppedAt rfl ((after_one _ _).trans taken)
                        (.inl Nat.one_pos) relatedNext
                    · intro _ _ _
                      exact reflects.refused write (by rw [executed])
      · rw [if_neg inside]
        constructor
        · exact ran_outside related inside resumed fuel
        · rintro event ⟨⟩ ⟨⟩

/-- A step is a run of one cycle that is resumed where it begins. -/
theorem ran_step (going : processor.final = none) {limit : Nat} (positive : 0 < limit) :
    Ran plain Related (some processor.registers.pc) (processor.withStops none none, other) limit
      (processor.step environment state) := by
  obtain ⟨limit, rfl⟩ := Nat.exists_eq_add_one.mpr positive
  have start : { processor with stoppedAt := none } = processor.withStops none none := by
    rw [← going]
    rfl
  unfold step
  split
  · next event ended =>
      rw [going] at ended
      cases ended
  · simp only [start]
    by_cases inside : (processor.withStops none none).inMemory = true
    · rw [if_pos inside]
      rcases executed : (processor.withStops none none).cycle environment state with
        ⟨progress, next, rest⟩
      cases progress with
      | advanced refused =>
          obtain ⟨after, taken, relatedNext⟩ :=
            plainCycle_of_advanced mirrors related inside executed
          exact .stopped next.stoppedAt rfl ((after_one _ _).trans taken) (.inl Nat.one_pos)
            relatedNext
      | halted => exact ran_of_halted mirrors related inside executed _ limit
      | failed error => exact ran_of_failed mirrors related inside executed _ limit
    · rw [if_neg inside]
      exact ran_outside related inside _ limit

/-- A run is one from its instruction on, resumed where the observer stopped the
last one. -/
theorem ran_run (going : processor.final = none) (fuel : Nat) :
    Ran plain Related processor.stoppedAt (processor.withStops none none, other) fuel
        (processor.run environment fuel state) ∧
      ∀ event, (processor.run environment fuel state).1 = .stopped event →
        event.halted = false → Objects environment Related := by
  have start : { processor with stoppedAt := none } = processor.withStops none none := by
    rw [← going]
    rfl
  unfold run
  split
  · next event ended =>
      rw [going] at ended
      cases ended
  · rw [start]
    exact ran_runFrom mirrors related fuel processor.stoppedAt

end Runs

end DecimalMachine.Processor
