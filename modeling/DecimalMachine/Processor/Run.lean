import DecimalMachine.Processor.Basic

/-!
# Steps and runs

A step executes one instruction without asking the observer.  A run goes on
until the program ends, an instruction fails, or the observer stops it; a run
that is resumed where the observer stopped it before an instruction executes
that instruction without asking again.  Once the program has ended, steps and
runs change nothing and report the same event.

A program may run forever, so a run is given a number of instructions and tells
when it has used them up.
-/

namespace DecimalMachine.Processor

variable {σ : Type}

/-- How a step or a run ended. -/
inductive Outcome where
  /-- Execution stopped. -/
  | stopped (event : Event)
  /-- An instruction failed. -/
  | failed (error : ExecutionError)
  /-- All the instructions that were granted have been executed. -/
  | unfinished
  deriving DecidableEq, Repr

/-- End the program with an event. -/
def finish (processor : Processor) (event : Event) (state : σ) : Outcome × Processor × σ :=
  (.stopped event, { processor with final := some event }, state)

/-- Whether the program counter is inside memory. -/
def inMemory (processor : Processor) : Bool :=
  processor.memory.isValid processor.registers.pc

/-- The event of a program counter outside memory. -/
def endEvent (processor : Processor) : Event :=
  { reason := .endOfMemory, address := some processor.registers.pc }

/-- The event of a halt. -/
def haltEvent (processor : Processor) : Event :=
  { reason := .halt, address := some processor.registers.pc, message := "Program terminated" }

/-- Execute one instruction. -/
def step (environment : Environment σ) (processor : Processor) (state : σ) :
    Outcome × Processor × σ :=
  match processor.final with
  | some event => (.stopped event, processor, state)
  | none =>
      let processor := { processor with stoppedAt := none }
      if processor.inMemory then
        match processor.cycle environment state with
        | (.advanced _, next, state) =>
            (.stopped { reason := .step, address := some next.registers.pc }, next, state)
        | (.halted, next, state) => next.finish next.haltEvent state
        | (.failed error, next, state) => (.failed error, next, state)
      else processor.finish processor.endEvent state

/-- Ask the observer about the instruction at the program counter, unless it is
the one at which the run is resumed. -/
def permits (environment : Environment σ) (processor : Processor) (resumed : Option Nat)
    (state : σ) : Bool × σ :=
  if resumed = some processor.registers.pc then (true, state)
  else environment.allows processor.registers processor.fetch state

/-- Run at most so many instructions, resumed at an address if the observer
stopped there. -/
def runFrom (environment : Environment σ) : Nat → Option Nat → Processor → σ →
    Outcome × Processor × σ
  | 0, _, processor, state => (.unfinished, processor, state)
  | fuel + 1, resumed, processor, state =>
      if processor.inMemory then
        match processor.permits environment resumed state with
        | (false, state) =>
            (.stopped { reason := .breakpoint, address := some processor.registers.pc },
              { processor with stoppedAt := some processor.registers.pc }, state)
        | (true, state) =>
            match processor.cycle environment state with
            | (.advanced none, next, state) => runFrom environment fuel none next state
            | (.advanced (some (address, value)), next, state) =>
                (.stopped
                    { reason := .memoryWrite, address := some address, value := some value },
                  next, state)
            | (.halted, next, state) => next.finish next.haltEvent state
            | (.failed error, next, state) => (.failed error, next, state)
      else processor.finish processor.endEvent state

/-- Run until the program ends, an instruction fails, the observer stops the
run or the instructions are used up. -/
def run (environment : Environment σ) (fuel : Nat) (processor : Processor) (state : σ) :
    Outcome × Processor × σ :=
  match processor.final with
  | some event => (.stopped event, processor, state)
  | none =>
      runFrom environment fuel processor.stoppedAt { processor with stoppedAt := none } state

end DecimalMachine.Processor
