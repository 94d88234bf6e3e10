import DecimalMachine.CommandLine.Arguments
import DecimalMachine.CommandLine.Report
import DecimalMachine.Files.Programs
import DecimalMachine.Narration.Compiling
import DecimalMachine.Narration.Running

/-!
# The run tool

The run tool loads a program file, or compiles a source file in memory, and
executes the program.  Values to read are given as options or else asked for.
The program can be stepped through or stopped at breakpoints, and the machine
can be shown at the end.
-/

namespace DecimalMachine.CommandLine.RunTool

/-- The options of the tool. -/
inductive Key where
  | memorySize
  | input
  | breakpoint
  | step
  | dump
  | verbose
  | version
  | help
  deriving DecidableEq, Repr

/-- How the options are written. -/
def specs : List (OptionSpec Key) :=
  [⟨.memorySize, some 'm', some "memory-size", true⟩, ⟨.input, some 'i', some "input", true⟩,
    ⟨.breakpoint, some 'b', some "break", true⟩, ⟨.step, none, some "step", false⟩,
    ⟨.dump, none, some "dump", false⟩, ⟨.verbose, some 'v', some "verbose", false⟩,
    ⟨.version, none, some "version", false⟩, ⟨.help, none, some "help", false⟩]

/-- The use of the tool. -/
def usage : String :=
  "Usage: smprun [OPTIONS] PROGRAM\n\n" ++
    "  -m, --memory-size INTEGER  Number of memory cells (default: " ++
    "$SIMPLETRON_MEMORY_SIZE or 100)\n" ++
    "  -i, --input TEXT           Value for the next READ (can be repeated)\n" ++
    "  -b, --break INTEGER        Pause before executing the instruction at ADDRESS\n" ++
    "  --step                     Execute one instruction at a time\n" ++
    "  --dump                     Print memory and registers when the program ends\n" ++
    "  -v, --verbose              Verbose output\n" ++
    "  --version                  Show the version and exit.\n" ++
    "  --help                     Show this message and exit."

/-- The version of the tool. -/
def version : String := "smprun, version 1.0.0"

/-- What the tool is asked to do. -/
structure Request where
  program : Path
  memorySize : Option Int
  inputs : List String
  breakpoints : List Int
  step : Bool
  dump : Bool
  verbose : Bool
  deriving DecidableEq, Repr

/-- Accept a number that is not below a bound. -/
def acceptNumber (least : Int) (text : String) : Except Refusal Int :=
  match Decimal.numeral? text with
  | some number => if least ≤ number then .ok number else .error .misuse
  | none => .error .misuse

/-- Understand arguments. A memory has at least one cell, addresses are not
negative, and the program has to be a file. -/
def understand (directory : Directory) (arguments : List String) :
    Except Refusal (Invocation Request) :=
  match Arguments.read specs arguments with
  | none => .error .misuse
  | some given =>
      match given.options.find? fun option => option.1 = .version || option.1 = .help with
      | some (.version, _) => .ok .version
      | some _ => .ok .help
      | none => do
          let size ← (given.last? .memorySize).mapM (acceptNumber 1)
          let addresses ← (given.values .breakpoint).mapM (acceptNumber 0)
          let program ← acceptOperands directory given.operands
          pure (.work ⟨program, size, given.values .input, addresses, given.has .step,
            given.has .dump, given.has .verbose⟩)

/-- The paths that a call looks at: the operands. -/
def paths (arguments : List String) : List Path :=
  match Arguments.read specs arguments with
  | none => []
  | some given => given.operands.map .ofText

/-! ## The console -/

/-- What the machine's console works on: the terminal, the values given as
options if there are any, and whether instructions are told of. -/
structure Session where
  terminal : Terminal
  given : Option (List String)
  verbose : Bool
  deriving Repr

namespace Session

/-- Change the terminal of a session. -/
def onTerminal (session : Session) (f : Terminal → Terminal) : Session :=
  { session with terminal := f session.terminal }

/-- Answer a read by the next value given as an option, or else by a prompt. -/
def input (session : Session) : Option String × Session :=
  match session.given with
  | some values => (values.head?, { session with given := some values.tail })
  | none =>
      let (answer, terminal) := session.terminal.prompt
      (answer, { session with terminal := terminal })

/-- Show a value that the program writes. -/
def output (address : Nat) (value : String) (session : Session) : Session :=
  session.onTerminal fun terminal =>
    terminal.say ("\nData from Memory Address (" ++ Decimal.text address ++ ") : " ++ value ++ "\n")

/-- Tell records. -/
def tell (session : Session) (records : List Record) : Session :=
  session.onTerminal fun terminal => terminal.tell session.verbose records

/-- Tell of the end of a program, where an outcome is one. -/
def tellEnd (session : Session) (outcome : Processor.Outcome) (machine : Machine) : Session :=
  match outcome with
  | .stopped event =>
      if event.halted then
        session.tell [Narration.ended event machine.processor.registers.cycles]
      else session
  | _ => session

end Session

/-- The console of the tool. -/
def console : Console Session where
  input _ session := session.input
  output address value session := session.output address value
  trace registers session := session.tell [Narration.executed registers]

/-! ## Loading -/

/-- Load the program of a source file or the words of a program file, and tell
of it. The text of a source file may be blank. -/
def load (directory : Directory) (elapsed : Int) (path : Path) (machine : Machine) :
    List Record × Except Failure (Nat × Machine) :=
  if path.suffix == Files.sourceSuffix then
    match Files.readText directory path with
    | .error failure => ([], .error failure)
    | .ok text =>
        let records := Narration.ofSource {} elapsed path.render text
        match machine.loadSource {} path.render text with
        | .error (.rejected rejection) => (records, .error (.rejected rejection))
        | .error (.load error) => (records, .error (.load error))
        | .ok (count, machine) => (records ++ Narration.loaded count, .ok (count, machine))
  else
    match Files.readWords directory path with
    | .error failure => ([], .error failure)
    | .ok words =>
        let records := [Narration.read words.length path]
        match machine.loadWords words with
        | .error error => (records, .error (.load error))
        | .ok machine => (records ++ Narration.loaded words.length, .ok (words.length, machine))

/-! ## Running -/

/-- Step until the program ends, and show the registers after every step. -/
def stepThrough : Nat → Machine → Session → Processor.Outcome × Machine × Session
  | 0, machine, session => (.unfinished, machine, session)
  | fuel + 1, machine, session =>
      match machine.step console session with
      | (.stopped event, machine, session) =>
          let session := (session.tellEnd (.stopped event) machine).onTerminal
            (·.say machine.processor.listing)
          if event.halted then (.stopped event, machine, session)
          else stepThrough fuel machine session
      | other => other

/-- Run until the program ends, and show the machine at every stop. -/
def runThrough : Nat → Machine → Session → Processor.Outcome × Machine × Session
  | 0, machine, session => (.unfinished, machine, session)
  | fuel + 1, machine, session =>
      match machine.run console (fuel + 1) session with
      | (.stopped event, machine, session) =>
          let session := session.tellEnd (.stopped event) machine
          if event.halted then (.stopped event, machine, session)
          else
            runThrough fuel machine
              (session.onTerminal fun terminal =>
                (terminal.say event.render).say machine.processor.dump)
      | other => other

/-- What the tool says when the program has ended. -/
def farewell (event : Event) : String :=
  if event.reason = .halt then "Program terminated." else event.render ++ "."

/-- Execute a loaded program. -/
def execute (request : Request) (fuel : Nat) (directory : Directory) (machine : Machine)
    (session : Session) : Result :=
  let machine := request.breakpoints.foldl
    (fun machine address =>
      { machine with breakpoints := machine.breakpoints.addBreakpoint address }) machine
  let through := if request.step then stepThrough else runThrough
  match through fuel machine session with
  | (.stopped event, machine, session) =>
      let terminal := session.terminal.say (farewell event)
      let terminal := if request.dump then terminal.say machine.processor.dump else terminal
      .finished ⟨.success, terminal, directory⟩
  | (.failed error, _, session) =>
      .finished (failWith "Runtime" (.execution error) session.terminal directory)
  | (.unfinished, _, session) => .unfinished session.terminal

/-- The settings of the machine, and the record of a warning about them. -/
def settingsFor (request : Request) (surroundings : Surroundings) : Settings × List Record :=
  match request.memorySize with
  | some size => (⟨size⟩, [])
  | none =>
      let (settings, warning) := Settings.ofVariable surroundings.memorySize
      (settings, warning.toList.map (Record.mk .warning))

/-- Do what is asked for, with at most so many instructions between stops. -/
def work (request : Request) (surroundings : Surroundings) (fuel : Nat) (directory : Directory)
    (terminal : Terminal) : Result :=
  let (settings, warnings) := settingsFor request surroundings
  let terminal := terminal.tell request.verbose warnings
  match Machine.ofSettings settings with
  | .error error => .finished (failWith "Runtime" (.size error) terminal directory)
  | .ok machine =>
      let (records, loaded) := load directory surroundings.elapsed request.program machine
      let terminal := terminal.tell request.verbose records
      match loaded with
      | .error failure => .finished (failWith "Runtime" failure terminal directory)
      | .ok (count, machine) =>
          let terminal :=
            if request.verbose then
              terminal.say ("Loaded " ++ Decimal.text count ++ " words from " ++
                request.program.render)
            else terminal
          let given := if request.inputs.isEmpty then none else some request.inputs
          execute request fuel directory machine ⟨terminal, given, request.verbose⟩

end DecimalMachine.CommandLine.RunTool
