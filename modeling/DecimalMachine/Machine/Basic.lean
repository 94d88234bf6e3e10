import DecimalMachine.Debug.Breakpoints
import DecimalMachine.Machine.Settings
import DecimalMachine.Processor.Run
import DecimalMachine.Program.Compilation

/-!
# The machine

A machine is a processor together with the breakpoints that stop it.  Its
console supplies the input and receives the output.  A run reports the event
that the breakpoints keep for its stop; a single step ignores them.
-/

namespace DecimalMachine

/-- Where a machine reads and writes, over a state of its own. -/
structure Console (τ : Type) where
  /-- The answer to a read into an address, if there is one. -/
  input : Nat → τ → Option String × τ
  /-- Receives a value written from an address. -/
  output : Nat → String → τ → τ
  /-- Is told of the registers after an instruction was decoded. -/
  trace : Registers → τ → τ

/-- A processor with its breakpoints. -/
structure Machine where
  processor : Processor
  breakpoints : Breakpoints
  deriving DecidableEq, Repr

/-- Why a source is not loaded. -/
inductive SourceLoadError where
  /-- It is not compiled. -/
  | rejected (rejection : Rejection)
  /-- Its program does not fit. -/
  | load (error : LoadError)
  deriving DecidableEq, Repr

namespace Machine

variable {τ : Type}

/-- A machine with empty memory and no breakpoints. -/
def ofSettings (settings : Settings) : Except SizeError Machine :=
  (⟨·, .empty⟩) <$> Processor.create settings.memorySize

/-- The surroundings of the processor: the console, with the breakpoints as the
observer. -/
def environment (console : Console τ) : Environment (Breakpoints × τ) where
  input address state :=
    let (answer, rest) := console.input address state.2
    (answer, (state.1, rest))
  output address value state := (state.1, console.output address value state.2)
  trace registers state := (state.1, console.trace registers state.2)
  allows registers word state :=
    let (allowed, breakpoints) :=
      state.1.checkInstruction registers.readout registers.pc word
    (allowed, (breakpoints, state.2))
  accepts address value state :=
    let (accepted, breakpoints) := state.1.checkWrite address value
    (accepted, (breakpoints, state.2))

/-- Load the words of a program. -/
def loadWords (machine : Machine) (words : List String) : Except LoadError Machine :=
  ({ machine with processor := · }) <$> machine.processor.load words

/-- Compile a source and load its program, whose number of words is told. -/
def loadSource (machine : Machine) (options : CompileOptions) (file source : String) :
    Except SourceLoadError (Nat × Machine) :=
  match Compilation.ofSource options file source with
  | .error rejection => .error (.rejected rejection)
  | .ok compilation =>
      match machine.loadWords compilation.words with
      | .error error => .error (.load error)
      | .ok loaded => .ok (compilation.words.length, loaded)

/-- Clear memory, registers, outputs and the event of the last stop. -/
def reset (machine : Machine) : Machine where
  processor := machine.processor.reset
  breakpoints := machine.breakpoints.clearLastEvent

/-- Execute one instruction. -/
def step (console : Console τ) (machine : Machine) (state : τ) :
    Processor.Outcome × Machine × τ :=
  let (outcome, processor, breakpoints, state) :=
    machine.processor.step (environment console) (machine.breakpoints, state)
  (outcome, ⟨processor, breakpoints⟩, state)

/-- The event that a run reports: at a stop of the observer the one that the
breakpoints keep. -/
def reported (breakpoints : Breakpoints) (event : Event) : Event :=
  match event.reason with
  | .breakpoint | .memoryWrite => breakpoints.lastEvent.getD event
  | _ => event

/-- Run until the program ends, an instruction fails, a breakpoint stops the run
or the instructions are used up. -/
def run (console : Console τ) (fuel : Nat) (machine : Machine) (state : τ) :
    Processor.Outcome × Machine × τ :=
  let (outcome, processor, breakpoints, state) :=
    machine.processor.run (environment console) fuel (machine.breakpoints.clearLastEvent, state)
  let outcome := match outcome with
    | .stopped event => .stopped (reported breakpoints event)
    | other => other
  (outcome, ⟨processor, breakpoints⟩, state)

end Machine

end DecimalMachine
