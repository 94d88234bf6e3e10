import DecimalMachine.CommandLine.Arguments
import DecimalMachine.CommandLine.Report
import DecimalMachine.Files.Programs
import DecimalMachine.Narration.Compiling
import DecimalMachine.Narration.Running

/-!
# The compiler tool

The compiler tool compiles a source file and writes the program next to it or
where it is told to.  Nothing is written unless the source compiles.
-/

namespace DecimalMachine.CommandLine.CompileTool

/-- The options of the tool. -/
inductive Key where
  | output
  | optimize
  | keepAll
  | verbose
  | version
  | help
  deriving DecidableEq, Repr

/-- How the options are written. -/
def specs : List (OptionSpec Key) :=
  [⟨.output, some 'o', some "output", true⟩, ⟨.optimize, some 'O', some "optimize", false⟩,
    ⟨.keepAll, none, some "no-optimize", false⟩, ⟨.verbose, some 'v', some "verbose", false⟩,
    ⟨.version, none, some "version", false⟩, ⟨.help, none, some "help", false⟩]

/-- The use of the tool. -/
def usage : String :=
  "Usage: smpc [OPTIONS] INPUT_FILE\n\n" ++
    "  -o, --output FILE               Output program file (default: input.sml)\n" ++
    "  -O, --optimize / --no-optimize  Drop expression declarations that nothing reads\n" ++
    "  -v, --verbose                   Verbose output\n" ++
    "  --version                       Show the version and exit.\n" ++
    "  --help                          Show this message and exit."

/-- The version of the tool. -/
def version : String := "smpc, version 1.0.0"

/-- What the tool is asked to do. -/
structure Request where
  input : Path
  output : Option Path
  optimize : Bool
  verbose : Bool
  deriving DecidableEq, Repr

/-- Whether expressions are left out, by the last option that says so. -/
def optimizes (options : List (Key × String)) : Bool :=
  ((options.map (·.1)).filter fun key => key = .optimize || key = .keepAll).getLast? !=
    some .keepAll

/-- Understand arguments. The output must not be a folder, and the input has to
be a file. -/
def understand (directory : Directory) (arguments : List String) :
    Except Refusal (Invocation Request) :=
  match Arguments.read specs arguments with
  | none => .error .misuse
  | some given =>
      match given.options.find? fun option => option.1 = .version || option.1 = .help with
      | some (.version, _) => .ok .version
      | some _ => .ok .help
      | none => do
          let output ← (given.last? .output).mapM (acceptOutput directory)
          let input ← acceptOperands directory given.operands
          pure (.work ⟨input, output, optimizes given.options, given.has .verbose⟩)

/-- The paths that a call looks at: the operands, the program files that go with
them, and the outputs. -/
def paths (arguments : List String) : List Path :=
  match Arguments.read specs arguments with
  | none => []
  | some given =>
      let sources := given.operands.map .ofText
      sources ++ sources.filterMap (fun source => (Files.programPath source).toOption) ++
        (given.values .output).map .ofText

/-- The options of the compilation. -/
def Request.options (request : Request) : CompileOptions :=
  { optimize := request.optimize }

/-- What compiling a source file tells. -/
def narrate (directory : Directory) (options : CompileOptions) (elapsed : Int) (path : Path) :
    List Record :=
  match Files.readText directory path with
  | .error _ => []
  | .ok text =>
      if (Text.trim text).isEmpty then []
      else Narration.ofSource options elapsed path.render text

/-- What the tool says at the end. -/
def summary (request : Request) (output : Path) (elapsed : Int) (compilation : Compilation)
    (directory : Directory) : Except Failure (List String) := do
  let last := "Compiled " ++ request.input.render ++ " -> " ++ output.render
  if request.verbose then
    let statistics ← Files.statistics directory output elapsed compilation.words
    let eliminated := compilation.program.eliminated
    if eliminated.isEmpty then pure [statistics, last]
    else pure [statistics, "Eliminated: " ++ ", ".intercalate eliminated, last]
  else pure [last]

/-- Compile a source file into a program file. -/
def produce (request : Request) (output : Path) (elapsed : Int) (directory : Directory)
    (terminal : Terminal) : Finish :=
  let terminal :=
    if request.verbose then terminal.say ("Compiling " ++ request.input.render ++ "...")
    else terminal
  let terminal := terminal.tell request.verbose
    (narrate directory request.options elapsed request.input)
  match Files.compile directory request.options request.input.render with
  | .error failure => failWith "Compilation" failure terminal directory
  | .ok compilation =>
      match Files.writeWords directory output compilation.words with
      | .error failure => failWith "Compilation" failure terminal directory
      | .ok written =>
          let terminal := terminal.tell request.verbose
            [Narration.wrote compilation.words.length output]
          match summary request output elapsed compilation written with
          | .error failure => failWith "Compilation" failure terminal written
          | .ok lines => ⟨.success, lines.foldl Terminal.say terminal, written⟩

/-- Do what is asked for. -/
def work (request : Request) (surroundings : Surroundings) (directory : Directory)
    (terminal : Terminal) : Finish :=
  match request.output with
  | some output => produce request output surroundings.elapsed directory terminal
  | none =>
      match Files.programPath request.input with
      | .ok output => produce request output surroundings.elapsed directory terminal
      | .error _ => ⟨.buildError, terminal, directory⟩

end DecimalMachine.CommandLine.CompileTool
