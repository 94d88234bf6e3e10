import DecimalMachine.CommandLine.CompileTool
import DecimalMachine.CommandLine.RunTool

/-!
# Tools

The two tools share a way of being called: the arguments are understood first,
and only a sensible call does any work.
-/

namespace DecimalMachine.CommandLine

/-- The tools. -/
inductive Tool where
  | compile
  | run
  deriving DecidableEq, Repr

namespace Tool

/-- The tool with a name. -/
def ofName? (name : String) : Option Tool :=
  if name == "smpc" then some .compile else if name == "smprun" then some .run else none

/-- The version of a tool. -/
def version : Tool → String
  | .compile => CompileTool.version
  | .run => RunTool.version

/-- The use of a tool. -/
def usage : Tool → String
  | .compile => CompileTool.usage
  | .run => RunTool.usage

/-- The paths that a call looks at. A directory that is right about them and
about the folders on the way to them serves the call as well as a complete
one. -/
def paths : Tool → List String → List Path
  | .compile => CompileTool.paths
  | .run => RunTool.paths

/-- Answer an invocation. -/
def answer {ρ : Type} (tool : Tool) (invocation : Except Refusal (Invocation ρ))
    (work : ρ → Result) (directory : Directory) (terminal : Terminal) : Result :=
  match invocation with
  | .error .misuse => .misuse
  | .error .nullCharacter => .finished ⟨.buildError, terminal, directory⟩
  | .ok .version => .finished ⟨.success, terminal.say tool.version, directory⟩
  | .ok .help => .finished ⟨.success, terminal.say tool.usage, directory⟩
  | .ok (.work request) => work request

/-- Call a tool, with at most so many instructions between stops. -/
def call (tool : Tool) (surroundings : Surroundings) (fuel : Nat) (arguments : List String)
    (directory : Directory) (input : List String) : Result :=
  let terminal := Terminal.ofInput input
  match tool with
  | .compile =>
      tool.answer (CompileTool.understand directory arguments)
        (fun request => .finished (CompileTool.work request surroundings directory terminal))
        directory terminal
  | .run =>
      tool.answer (RunTool.understand directory arguments)
        (fun request => RunTool.work request surroundings fuel directory terminal) directory
        terminal

end Tool

end DecimalMachine.CommandLine
