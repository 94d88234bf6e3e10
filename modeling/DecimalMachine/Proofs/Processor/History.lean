import DecimalMachine.Proofs.Outcomes
import DecimalMachine.Proofs.Processor.Stops

/-!
# Histories of a processor

What was done to a processor decides which instruction is exempt from the
observer when it is run again: the one at which the last run was stopped, as
long as nothing was executed or loaded since.
-/

namespace DecimalMachine.Processor

/-- What is done to a processor. A run is remembered with its outcome. -/
inductive Deed where
  | load
  | reset
  | store
  | step
  | run (outcome : Outcome)
  deriving DecidableEq, Repr

/-- The processors to which deeds lead, the last one first, each step and each
run in an environment of its own. -/
inductive Underwent : List Deed → Processor → Prop where
  | create (memory : Memory) : Underwent [] (ofMemory memory)
  | load {deeds : List Deed} {processor next : Processor} {words : List String}
      (loaded : processor.load words = .ok next) (before : Underwent deeds processor) :
      Underwent (.load :: deeds) next
  | reset {deeds : List Deed} {processor : Processor} (before : Underwent deeds processor) :
      Underwent (.reset :: deeds) processor.reset
  | store {deeds : List Deed} {processor next : Processor} {address : Int} {word : String}
      (stored : processor.store address word = .ok next) (before : Underwent deeds processor) :
      Underwent (.store :: deeds) next
  | step {σ : Type} {deeds : List Deed} {processor : Processor} (environment : Environment σ)
      (state : σ) (before : Underwent deeds processor) :
      Underwent (.step :: deeds) (processor.step environment state).2.1
  | run {σ : Type} {deeds : List Deed} {processor : Processor} (environment : Environment σ)
      (fuel : Nat) (state : σ) (before : Underwent deeds processor) :
      Underwent (.run (processor.run environment fuel state).1 :: deeds)
        (processor.run environment fuel state).2.1

/-- The address of the instruction at which the observer stopped a run. -/
def Outcome.pausedAt? : Outcome → Option Int
  | .stopped event => if event.reason = .breakpoint then event.address else none
  | _ => none

/-- The address of the instruction at which the observer stopped the last step
or run, which has to be a run, with nothing loaded or reset since. -/
def pausedAt? : List Deed → Option Int
  | .store :: earlier => pausedAt? earlier
  | .run outcome :: _ => outcome.pausedAt?
  | _ => none

/-- The processor remembers where it was paused, and is paused nowhere once its
program has ended. -/
structure Remembers (paused : Option Int) (processor : Processor) : Prop where
  paused : processor.stoppedAt.map Int.ofNat = paused
  ended : ∀ event, processor.final = some event →
    event.halted = true ∧ processor.stoppedAt = none

section Calls

variable {σ : Type} {environment : Environment σ} {processor : Processor} {state : σ}
  {paused : Option Int}

theorem remembers_ofMemory (memory : Memory) : Remembers none (ofMemory memory) :=
  ⟨rfl, by rintro event ⟨⟩⟩

/-- A program that goes on and was not stopped is paused nowhere. -/
theorem remembers_going (final : processor.final = none) (stoppedAt : processor.stoppedAt = none) :
    Remembers none processor := by
  refine ⟨by rw [stoppedAt]; rfl, ?_⟩
  intro event ended
  rw [final] at ended
  cases ended

theorem remembers_finish {event : Event} (halted : event.halted = true)
    (stoppedAt : processor.stoppedAt = none) :
    Remembers none (processor.finish event state).2.1 := by
  refine ⟨congrArg (Option.map Int.ofNat) stoppedAt, ?_⟩
  rintro other ⟨⟩
  exact ⟨halted, stoppedAt⟩

/-- A cycle keeps a program going that is paused nowhere. -/
theorem going_of_cycle (final : processor.final = none) (stoppedAt : processor.stoppedAt = none)
    {progress : Progress} {next : Processor} {rest : σ}
    (executed : processor.cycle environment state = (progress, next, rest)) :
    next.final = none ∧ next.stoppedAt = none := by
  have sameFinal := final_cycle environment processor state
  have sameStop := stoppedAt_cycle environment processor state
  rw [executed] at sameFinal sameStop
  exact ⟨sameFinal.trans final, sameStop.trans stoppedAt⟩

theorem Remembers.step (remembers : Remembers paused processor) (environment : Environment σ)
    (state : σ) : Remembers none (processor.step environment state).2.1 := by
  unfold Processor.step
  split
  · next event ended =>
      obtain ⟨halted, stoppedAt⟩ := remembers.ended event ended
      exact ⟨congrArg (Option.map Int.ofNat) stoppedAt, remembers.ended⟩
  · next going =>
      have final : { processor with stoppedAt := none }.final = none := going
      have stoppedAt : { processor with stoppedAt := none }.stoppedAt = none := rfl
      simp only
      split
      · rcases executed :
            Processor.cycle environment { processor with stoppedAt := none } state with
          ⟨progress, next, rest⟩
        obtain ⟨final, stoppedAt⟩ := going_of_cycle final stoppedAt executed
        cases progress with
        | advanced refused => exact remembers_going final stoppedAt
        | halted => exact remembers_finish rfl stoppedAt
        | failed error => exact remembers_going final stoppedAt
      · exact remembers_finish rfl stoppedAt

/-- A run from a state in which nothing is paused remembers where it is
stopped. -/
theorem remembers_runFrom (environment : Environment σ) (fuel : Nat) (resumed : Option Nat)
    (final : processor.final = none) (stoppedAt : processor.stoppedAt = none) (state : σ) :
    Remembers (runFrom environment fuel resumed processor state).1.pausedAt?
      (runFrom environment fuel resumed processor state).2.1 := by
  induction fuel generalizing resumed processor state with
  | zero => exact remembers_going final stoppedAt
  | succ fuel ih =>
      rw [runFrom]
      split
      · rcases processor.permits environment resumed state with ⟨allowed, asked⟩
        cases allowed with
        | false =>
            refine ⟨rfl, ?_⟩
            intro event ended
            rw [show _ = none from final] at ended
            cases ended
        | true =>
            simp only
            rcases executed : processor.cycle environment asked with ⟨progress, next, rest⟩
            obtain ⟨nextFinal, nextStop⟩ := going_of_cycle final stoppedAt executed
            cases progress with
            | advanced refused =>
                cases refused with
                | none => exact ih none nextFinal nextStop rest
                | some write => exact remembers_going nextFinal nextStop
            | halted => exact remembers_finish rfl nextStop
            | failed error => exact remembers_going nextFinal nextStop
      · exact remembers_finish rfl stoppedAt

theorem Remembers.run (remembers : Remembers paused processor) (environment : Environment σ)
    (fuel : Nat) (state : σ) :
    Remembers (processor.run environment fuel state).1.pausedAt?
      (processor.run environment fuel state).2.1 := by
  unfold Processor.run
  split
  · next event ended =>
      obtain ⟨halted, stoppedAt⟩ := remembers.ended event ended
      have nowhere : (Outcome.stopped event).pausedAt? = none := by
        apply if_neg
        intro reason
        rw [Event.halted, reason] at halted
        cases halted
      rw [nowhere]
      exact ⟨congrArg (Option.map Int.ofNat) stoppedAt, remembers.ended⟩
  · next going =>
      have final : { processor with stoppedAt := none }.final = none := going
      have stoppedAt : { processor with stoppedAt := none }.stoppedAt = none := rfl
      exact remembers_runFrom environment fuel processor.stoppedAt final stoppedAt state

end Calls

/-- A processor remembers of its history where it was paused. -/
theorem Underwent.remembers {deeds : List Deed} {processor : Processor}
    (underwent : Underwent deeds processor) : Remembers (pausedAt? deeds) processor := by
  induction underwent with
  | create memory => exact remembers_ofMemory memory
  | load loaded _ _ =>
      obtain ⟨memory, _, rfl⟩ := map_eq_ok_iff.mp loaded
      exact remembers_ofMemory memory
  | reset _ _ => exact remembers_ofMemory _
  | store stored _ ih =>
      obtain ⟨memory, _, rfl⟩ := map_eq_ok_iff.mp stored
      exact ⟨ih.paused, ih.ended⟩
  | step environment state _ ih => exact ih.step environment state
  | run environment fuel state _ ih => exact ih.run environment fuel state

/-- The instruction at which a run begins is exempt if the history says so. -/
theorem Underwent.stoppedAt_eq_iff {deeds : List Deed} {processor : Processor}
    (underwent : Underwent deeds processor) (pc : Nat) :
    processor.stoppedAt = some pc ↔ pausedAt? deeds = some (pc : Int) := by
  rw [← underwent.remembers.paused]
  cases processor.stoppedAt with
  | none => simp
  | some address =>
      simp only [Option.some.injEq, Option.map_some, Int.ofNat_eq_natCast]
      exact Int.ofNat_inj.symm

end DecimalMachine.Processor
