import DecimalMachine.Machine.Basic
import DecimalMachine.Proofs.Processor.Resumption

/-!
# Calls of a machine

Between its loads a machine is stepped and run.  To the processor each call is a
number of plain cycles on the console alone: the breakpoints only tell where a
run stops, and a stop is never reported as an end.
-/

namespace DecimalMachine

open Processor Semantics

variable {τ υ : Type}

/-! ## Breakpoints -/

namespace Breakpoints

/-- The event of the last stop is not the end of a program. -/
def Quiet (breakpoints : Breakpoints) : Prop :=
  ∀ event, breakpoints.lastEvent = some event → event.halted = false

theorem quiet_clearLastEvent (breakpoints : Breakpoints) :
    breakpoints.clearLastEvent.Quiet := by
  rintro event ⟨⟩

theorem quiet_keep {breakpoints : Breakpoints} {stop : Option Event} (quiet : breakpoints.Quiet)
    (pauses : ∀ event, stop = some event → event.halted = false) :
    (breakpoints.keep stop).2.Quiet := by
  cases stop with
  | none => exact quiet
  | some event =>
      rintro kept ⟨⟩
      exact pauses event rfl

theorem halted_of_stopBefore {breakpoints : Breakpoints} {readout : Readout} {address : Int}
    {word : String} {event : Event}
    (stop : breakpoints.stopBefore? readout address word = some event) :
    event.halted = false := by
  unfold stopBefore? at stop
  split at stop
  · cases stop
    rfl
  · obtain ⟨condition, _, rfl⟩ := Option.map_eq_some_iff.mp stop
    rfl

theorem halted_of_stopAfter {breakpoints : Breakpoints} {address : Int} {value : String}
    {event : Event} (stop : breakpoints.stopAfter? address value = some event) :
    event.halted = false := by
  unfold stopAfter? at stop
  split at stop
  · cases stop
    rfl
  · cases stop

end Breakpoints

/-! ## Consoles -/

namespace Console

/-- The surroundings that a console makes for a processor without an
observer. -/
def plain (console : Console τ) : Environment τ where
  input := console.input
  output := console.output
  trace := console.trace
  allows _ _ state := (true, state)
  accepts _ _ state := (true, state)

theorem unobserved_plain (console : Console τ) : Unobserved console.plain :=
  ⟨fun _ _ _ => rfl, fun _ _ _ => rfl⟩

/-- The answers of a console come from the part of its state that is in view,
and only this part decides about itself. -/
structure Respects (console : Console τ) (view : τ → υ) : Prop where
  input : ∀ {state other} address, view state = view other →
    (console.input address state).1 = (console.input address other).1 ∧
      view (console.input address state).2 = view (console.input address other).2
  output : ∀ {state other} address value, view state = view other →
    view (console.output address value state) = view (console.output address value other)
  trace : ∀ {state other} registers, view state = view other →
    view (console.trace registers state) = view (console.trace registers other)

/-- Every console answers from its whole state. -/
theorem respects_id (console : Console τ) : console.Respects id where
  input := by
    rintro state other address ⟨⟩
    exact ⟨rfl, rfl⟩
  output := by
    rintro state other address value ⟨⟩
    rfl
  trace := by
    rintro state other registers ⟨⟩
    rfl

end Console

namespace Machine

variable {console : Console τ} {view : τ → υ}

/-- States of the surroundings with and without breakpoints, of which the ones
are as they should be. -/
def Alike (view : τ → υ) (Kept : Breakpoints → Prop) (state : Breakpoints × τ) (other : τ) :
    Prop :=
  Kept state.1 ∧ view state.2 = view other

/-- The console does to the processor what it does without the breakpoints. -/
theorem mirrors_environment (respects : console.Respects view) {Kept : Breakpoints → Prop}
    (allows : ∀ {breakpoints} readout address word, Kept breakpoints →
      Kept (breakpoints.checkInstruction readout address word).2)
    (accepts : ∀ {breakpoints} address value, Kept breakpoints →
      Kept (breakpoints.checkWrite address value).2) :
    Mirrors (environment console) console.plain (Alike view Kept) where
  unobserved := console.unobserved_plain
  input := by
    rintro state other address ⟨kept, same⟩
    exact ⟨(respects.input address same).1, kept, (respects.input address same).2⟩
  output := by
    rintro state other address value ⟨kept, same⟩
    exact ⟨kept, respects.output address value same⟩
  trace := by
    rintro state other registers ⟨kept, same⟩
    exact ⟨kept, respects.trace registers same⟩
  allows := by
    rintro state other registers word ⟨kept, same⟩
    exact ⟨allows registers.readout registers.pc word kept, same⟩
  accepts := by
    rintro state other address value ⟨kept, same⟩
    exact ⟨accepts address value kept, same⟩

theorem mirrors_quiet (respects : console.Respects view) :
    Mirrors (environment console) console.plain (Alike view Breakpoints.Quiet) :=
  mirrors_environment respects
    (fun _ _ _ quiet =>
      Breakpoints.quiet_keep quiet fun _ stop => Breakpoints.halted_of_stopBefore stop)
    (fun _ _ quiet =>
      Breakpoints.quiet_keep quiet fun _ stop => Breakpoints.halted_of_stopAfter stop)

theorem mirrors_empty (respects : console.Respects view) :
    Mirrors (environment console) console.plain (Alike view (· = .empty)) :=
  mirrors_environment respects (by rintro _ _ _ _ rfl; rfl) (by rintro _ _ _ rfl; rfl)

/-- Without breakpoints nothing objects. -/
theorem not_objects_empty (console : Console τ) (view : τ → υ) :
    ¬Objects (environment console) (Alike view (· = .empty)) := by
  rintro ⟨⟨breakpoints, state⟩, other, ⟨rfl, _⟩, ⟨registers, word, denied⟩ |
    ⟨address, value, denied⟩⟩
  · cases denied
  · cases denied

/-! ## Reports -/

theorem reported_of_halted (breakpoints : Breakpoints) {event : Event}
    (halted : event.halted = true) : reported breakpoints event = event := by
  cases reason : event.reason with
  | breakpoint | memoryWrite => simp [Event.halted, reason] at halted
  | _ => simp only [reported, reason]

theorem halted_reported {breakpoints : Breakpoints} (quiet : breakpoints.Quiet) {event : Event}
    (pauses : event.halted = false) : (reported breakpoints event).halted = false := by
  unfold reported
  split
  · cases kept : breakpoints.lastEvent with
    | none => exact pauses
    | some last => exact quiet last kept
  · cases kept : breakpoints.lastEvent with
    | none => exact pauses
    | some last => exact quiet last kept
  · exact pauses

/-- The outcome of a run as the machine reports it. -/
def report (breakpoints : Breakpoints) : Outcome → Outcome
  | .stopped event => .stopped (reported breakpoints event)
  | other => other

theorem report_of_ends (breakpoints : Breakpoints) {outcome : Outcome} (ends : outcome.Ends) :
    report breakpoints outcome = outcome := by
  cases outcome with
  | stopped event => exact congrArg Outcome.stopped (reported_of_halted breakpoints ends)
  | failed error => rfl
  | unfinished => rfl

theorem run_eq (console : Console τ) (fuel : Nat) (machine : Machine) (state : τ) :
    machine.run console fuel state =
      let ran := machine.processor.run (environment console) fuel
        (machine.breakpoints.clearLastEvent, state)
      (report ran.2.2.1 ran.1, ⟨ran.2.1, ran.2.2.1⟩, ran.2.2.2) := by
  unfold run
  rcases machine.processor.run (environment console) fuel
    (machine.breakpoints.clearLastEvent, state) with ⟨outcome, processor, breakpoints, rest⟩
  cases outcome <;> rfl

/-- A machine tells of a stop what its breakpoints keep, and of an end what the
processor tells. -/
theorem ran_report {plain : Environment τ} {resumed : Option Nat} {start : Processor × τ}
    {limit : Nat} {outcome : Outcome} {next : Processor} {breakpoints : Breakpoints} {rest : τ}
    (ran : Ran plain (Alike view Breakpoints.Quiet) resumed start limit
      (outcome, next, breakpoints, rest)) :
    Ran plain (fun state other => view state = view other) resumed start limit
      (report breakpoints outcome, next, rest) := by
  cases ran with
  | ended cycles related =>
      rw [report_of_ends breakpoints (ends_of_ended cycles)]
      exact .ended cycles related.2
  | stopped stoppedAt pauses cycles progress related =>
      exact .stopped stoppedAt (halted_reported related.1 pauses) cycles progress related.2
  | unfinished cycles related => exact .unfinished cycles related.2

end Machine

end DecimalMachine
