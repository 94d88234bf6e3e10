import DecimalMachine.Proofs.Machine.Calls
import Mathlib.Logic.Relation

/-!
# Debugging

However a machine is stepped, run and given other breakpoints, its processor
stays on the track of the plain cycles from the load.  Where a call ends the
program or fails, an uninterrupted run ends or fails in the same way.
-/

namespace DecimalMachine.Machine

open Processor Semantics

variable {τ υ : Type}

/-- The calls that execute instructions. -/
inductive Call where
  | step
  /-- Run for at most so many instructions. -/
  | run (fuel : Nat)
  deriving DecidableEq, Repr

namespace Call

/-- Make a call. -/
def make (console : Console τ) (machine : Machine) (state : τ) : Call → Outcome × Machine × τ
  | .step => machine.step console state
  | .run fuel => machine.run console fuel state

/-- The address at which the observer is not asked. -/
def resumed (processor : Processor) : Call → Option Nat
  | .step => some processor.registers.pc
  | .run _ => processor.stoppedAt

/-- The call may take so many cycles, and may be out of cycles only after as
many. -/
def Within (limit : Nat) : Call → Prop
  | .step => 0 < limit
  | .run fuel => fuel = limit

theorem within_step (fuel : Nat) : Within (fuel + 1) .step :=
  Nat.succ_pos fuel

theorem within_run (fuel : Nat) : Within fuel (.run fuel) :=
  rfl

theorem exists_within (call : Call) : ∃ limit, call.Within limit := by
  cases call with
  | step => exact ⟨1, within_step 0⟩
  | run fuel => exact ⟨fuel, within_run fuel⟩

end Call

section Calls

variable {console : Console τ} {view : τ → υ} {machine next : Machine} {state other rest : τ}
  {call : Call} {outcome : Outcome}

/-- A call that executes instructions executes plain cycles. -/
theorem ran_call (respects : console.Respects view)
    (made : call.make console machine state = (outcome, next, rest))
    (same : view state = view other) (going : machine.processor.final = none) {limit : Nat}
    (within : call.Within limit) :
    Ran console.plain (fun state other => view state = view other)
      (call.resumed machine.processor) (machine.processor.withStops none none, other) limit
      (outcome, next.processor, rest) := by
  cases call with
  | step =>
      have anything : Mirrors (environment console) console.plain (Alike view fun _ => True) :=
        mirrors_environment respects (fun _ _ _ _ => trivial) (fun _ _ _ => trivial)
      have related : Alike view (fun _ => True) (machine.breakpoints, state) other :=
        ⟨trivial, same⟩
      have ran := ran_step anything related going within
      cases made
      exact ran.imp (And.right ·)
  | run fuel =>
      obtain rfl : fuel = limit := within
      have related : Alike view Breakpoints.Quiet (machine.breakpoints.clearLastEvent, state)
          other := ⟨machine.breakpoints.quiet_clearLastEvent, same⟩
      have ran := (ran_run (mirrors_quiet respects) related going fuel).1
      rw [Call.make, run_eq] at made
      cases made
      exact ran_report ran

/-- Once the program has ended, calls report its end and change nothing but the
event of the last stop. -/
theorem make_of_final {event : Event} (ended : machine.processor.final = some event)
    (halted : event.halted = true)
    (made : call.make console machine state = (outcome, next, rest)) :
    outcome = .stopped event ∧ next.processor = machine.processor ∧ rest = state := by
  cases call with
  | step =>
      simp only [Call.make, step, Processor.step, ended] at made
      cases made
      exact ⟨rfl, rfl, rfl⟩
  | run fuel =>
      simp only [Call.make, run, Processor.run, ended, reported_of_halted _ halted] at made
      cases made
      exact ⟨rfl, rfl, rfl⟩

end Calls

/-! ## Tracks -/

/-- The state of a machine that plain cycles from a start lead to, or at which
they end the program. -/
inductive OnTrack (plain : Environment τ) (start : Processor × τ) : Processor × τ → Prop where
  | going {n : Nat} {processor : Processor} {state : τ} (final : processor.final = none)
      (cycles : after (plainCycle plain) n start = .ok (processor.withStops none none, state)) :
      OnTrack plain start (processor, state)
  | ended {n : Nat} {event : Event} {processor : Processor} {state : τ}
      (cycles : after (plainCycle plain) n start = .error (.stopped event, processor, state)) :
      OnTrack plain start (processor, state)

/-- A call left the program going, after so many plain cycles. -/
structure Paused (plain : Environment τ) (resumed : Option Nat) (start : Processor × τ)
    (limit n : Nat) (outcome : Outcome) (next : Processor × τ) : Prop where
  final : next.1.final = none
  cycles : after (plainCycle plain) n (start.1.withStops none none, start.2) =
    .ok (next.1.withStops none none, next.2)
  /-- A stop without a cycle marks its instruction, and it is none at which the
  run was resumed. -/
  progress : outcome ≠ .unfinished → n = 0 → resumed ≠ some start.1.registers.pc ∧
    next.1.stoppedAt = some next.1.registers.pc
  used : outcome = .unfinished → n = limit

section Tracks

variable {plain : Environment τ} {Related : υ → τ → Prop} {resumed : Option Nat}
  {processor next : Processor} {other : τ} {rest : υ} {limit n : Nat} {outcome : Outcome}
  {start : Processor × τ}

theorem withStops_of_passed (passed : Passed n (processor.withStops none none) next) :
    next.withStops none none = next := by
  have same := withStops_self next
  rw [passed.final, passed.stoppedAt] at same
  exact same

/-- A call that does not end anything leaves the program going. -/
theorem paused_of_ran
    (ran : Ran plain Related resumed (processor.withStops none none, other) limit
      (outcome, next, rest)) (pauses : ¬outcome.Ends) :
    ∃ n later, Paused plain resumed (processor, other) limit n outcome (next, later) ∧
      Related rest later := by
  cases ran with
  | ended cycles related => exact absurd (ends_of_ended cycles) pauses
  | @stopped n event reached _ later stoppedAt _ cycles progress related =>
      have passed := passed_of_after cycles
      have same : withStops none none { reached with stoppedAt := stoppedAt } = reached :=
        withStops_of_passed passed
      refine ⟨n, later, ⟨passed.final, ?_, ?_, ?_⟩, related⟩
      · rw [same, cycles]
      · rintro _ rfl
        cases cycles
        exact progress.resolve_left (Nat.lt_irrefl 0)
      · rintro ⟨⟩
  | @unfinished reached _ later cycles related =>
      have passed := passed_of_after cycles
      refine ⟨limit, later, ⟨passed.final, ?_, ?_, fun _ => rfl⟩, related⟩
      · rw [withStops_of_passed passed, cycles]
      · exact fun finished => absurd rfl finished

/-- A call that ends the program or fails ends the plain cycles. -/
theorem ended_of_ran
    (ran : Ran plain Related resumed (processor.withStops none none, other) limit
      (outcome, next, rest)) (ends : outcome.Ends) :
    ∃ n later, after (plainCycle plain) n (processor.withStops none none, other) =
      .error (outcome, next, later) ∧ Related rest later := by
  cases ran with
  | @ended n _ _ _ later cycles related => exact ⟨n, later, cycles, related⟩
  | stopped stoppedAt pauses _ _ _ => exact absurd (pauses.symm.trans ends) Bool.false_ne_true
  | unfinished _ _ => exact ends.elim

/-- A program that was not stopped is on its own track. -/
theorem onTrack_start (going : processor.final = none)
    (unmarked : processor.withStops none none = processor) :
    OnTrack plain (processor, other) (processor, other) := by
  have here : after (plainCycle plain) 0 (processor, other) =
      .ok (processor.withStops none none, other) := by
    rw [unmarked]
    rfl
  exact .going going here

/-- A paused program stays on its track. -/
theorem OnTrack.paused {later : Processor × τ}
    (cycles : after (plainCycle plain) n start = .ok (processor.withStops none none, other))
    {m : Nat} (paused : Paused plain resumed (processor, other) limit m outcome later) :
    OnTrack plain start later :=
  .going paused.final ((after_add cycles m).trans paused.cycles)

/-- The cycles that were counted lead to every state on the track of a program
that was just loaded. -/
theorem OnTrack.bare {state : Processor × τ} (onTrack : OnTrack plain start state)
    (final : start.1.final = none) (stoppedAt : start.1.stoppedAt = none)
    (cycles : start.1.registers.cycles = 0) :
    after (bareCycle plain) state.1.registers.cycles start =
      .ok (state.1.withStops none none, state.2) := by
  cases onTrack with
  | @going n processor state _ run =>
      have passed := passed_of_after run
      have count : processor.registers.cycles = n := by
        have total := passed.cycles
        rw [cycles, Nat.zero_add] at total
        exact total
      simp only [count]
      exact after_of_imp bareCycle_of_plainCycle run
  | ended run =>
      obtain ⟨k, count, bare⟩ := exists_count_of_ended run
      rw [cycles, Nat.zero_add] at count
      rw [final, stoppedAt] at bare
      rw [count]
      exact bare

end Tracks

section Calls

variable {console : Console τ} {view : τ → υ} {machine next : Machine} {state other rest : τ}
  {call : Call} {outcome : Outcome} {start : Processor × τ}

/-- A call with which nothing goes on ends the track. -/
theorem OnTrack.ends (respects : console.Respects view)
    (onTrack : OnTrack console.plain start (machine.processor, other))
    (same : view state = view other)
    (made : call.make console machine state = (outcome, next, rest)) (ends : outcome.Ends) :
    ∃ n later, after (plainCycle console.plain) n start = .error (outcome, next.processor, later) ∧
      view rest = view later := by
  cases onTrack with
  | @ended n _ _ _ run =>
      obtain ⟨halted, final, _⟩ := final_of_ended run
      obtain ⟨rfl, kept, rfl⟩ := make_of_final final halted made
      exact ⟨n, other, by rw [kept, run], same⟩
  | @going n _ _ final run =>
      obtain ⟨limit, within⟩ := call.exists_within
      obtain ⟨m, later, cycles, alike⟩ :=
        ended_of_ran (ran_call respects made same final within) ends
      exact ⟨n + m, later, (after_add run m).trans cycles, alike⟩

/-- Calls that do not fail stay on the track, and only go forward on it. -/
theorem OnTrack.forward (respects : console.Respects view)
    (onTrack : OnTrack console.plain start (machine.processor, other))
    (same : view state = view other)
    (made : call.make console machine state = (outcome, next, rest))
    (fine : ∀ error, outcome ≠ .failed error) :
    ∃ later, OnTrack console.plain start (next.processor, later) ∧ view rest = view later ∧
      machine.processor.registers.cycles ≤ next.processor.registers.cycles := by
  cases onTrack with
  | ended run =>
      obtain ⟨halted, final, _⟩ := final_of_ended run
      obtain ⟨_, kept, rfl⟩ := make_of_final final halted made
      rw [kept]
      exact ⟨other, .ended run, same, Nat.le_refl _⟩
  | going final run =>
      obtain ⟨limit, within⟩ := call.exists_within
      have ran := ran_call respects made same final within
      by_cases ends : outcome.Ends
      · obtain ⟨m, later, cycles, alike⟩ := ended_of_ran ran ends
        cases outcome with
        | stopped event =>
            obtain ⟨k, count, _⟩ := exists_count_of_ended cycles
            exact ⟨later, .ended ((after_add run m).trans cycles), alike, Nat.le.intro count.symm⟩
        | failed error => exact absurd rfl (fine error)
        | unfinished => exact ends.elim
      · obtain ⟨m, later, paused, alike⟩ := paused_of_ran ran ends
        have passed := passed_of_after paused.cycles
        exact ⟨later, .paused run paused, alike, Nat.le.intro passed.cycles.symm⟩

/-- Of two runs in a row that both stop, one executes an instruction, whatever
becomes of the breakpoints between them. -/
theorem lt_of_runs (respects : console.Respects view)
    (onTrack : OnTrack console.plain start (machine.processor, other))
    (same : view state = view other) {fuel more : Nat} {breakpoints : Breakpoints}
    {last : Machine} {final : τ} {first second : Event}
    (ran : machine.run console fuel state = (.stopped first, next, rest))
    (firstPauses : first.halted = false)
    (again : (Machine.mk next.processor breakpoints).run console more rest =
      (.stopped second, last, final))
    (secondPauses : second.halted = false) :
    machine.processor.registers.cycles < last.processor.registers.cycles := by
  have made : (Call.run fuel).make console machine state = (.stopped first, next, rest) := ran
  have madeAgain : (Call.run more).make console ⟨next.processor, breakpoints⟩ rest =
      (.stopped second, last, final) := again
  cases onTrack with
  | ended run =>
      obtain ⟨halted, ended, _⟩ := final_of_ended run
      obtain ⟨same, _, _⟩ := make_of_final ended halted made
      cases same
      exact absurd (firstPauses.symm.trans halted) Bool.false_ne_true
  | going going run =>
      obtain ⟨m, later, paused, alike⟩ := paused_of_ran (ran_call respects made same going rfl)
        (by simp [Outcome.Ends, firstPauses])
      obtain ⟨k, _, pausedAgain, _⟩ := paused_of_ran
        (ran_call respects madeAgain alike paused.final rfl) (by simp [Outcome.Ends, secondPauses])
      have count : next.processor.registers.cycles = machine.processor.registers.cycles + m :=
        (passed_of_after paused.cycles).cycles
      have countAgain : last.processor.registers.cycles = next.processor.registers.cycles + k :=
        (passed_of_after pausedAgain.cycles).cycles
      have progress : 0 < m + k := by
        apply Nat.pos_of_ne_zero
        intro nothing
        obtain ⟨rfl, rfl⟩ := Nat.add_eq_zero_iff.mp nothing
        have marked := (paused.progress (by simp) rfl).2
        exact (pausedAgain.progress (by simp) rfl).1 marked
      omega

end Calls

/-! ## Sequences of calls -/

/-- What is done to a machine between its loads, as long as no call fails. -/
inductive Called (console : Console τ) : Machine × τ → Machine × τ → Prop where
  | call {machine next : Machine} {state rest : τ} {outcome : Outcome} (call : Call)
      (made : call.make console machine state = (outcome, next, rest))
      (fine : ∀ error, outcome ≠ .failed error) : Called console (machine, state) (next, rest)
  | edit {processor : Processor} {breakpoints : Breakpoints} {state : τ} (others : Breakpoints) :
      Called console (⟨processor, breakpoints⟩, state) (⟨processor, others⟩, state)

variable {console : Console τ} {start : Processor × τ} {before later : Machine × τ}

theorem OnTrack.called (onTrack : OnTrack console.plain start (before.1.processor, before.2))
    (called : Called console before later) :
    OnTrack console.plain start (later.1.processor, later.2) ∧
      before.1.processor.registers.cycles ≤ later.1.processor.registers.cycles := by
  cases called with
  | call call made fine =>
      obtain ⟨_, reached, rfl, forward⟩ := onTrack.forward console.respects_id rfl made fine
      exact ⟨reached, forward⟩
  | edit others => exact ⟨onTrack, Nat.le_refl _⟩

theorem OnTrack.debugged (onTrack : OnTrack console.plain start (before.1.processor, before.2))
    (debugged : Relation.ReflTransGen (Called console) before later) :
    OnTrack console.plain start (later.1.processor, later.2) := by
  induction debugged with
  | refl => exact onTrack
  | tail _ called ih => exact (ih.called called).1

end DecimalMachine.Machine
