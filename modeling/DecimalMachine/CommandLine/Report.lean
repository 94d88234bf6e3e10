import DecimalMachine.CommandLine.Terminal
import DecimalMachine.Files.Failure

/-!
# Exit statuses and error reports

A tool ends with a status.  Errors in a source are reported as they are;
failures of loading and running are named after what the tool was doing; a file
that cannot be found is an invalid argument; whatever else fails is an internal
error.
-/

namespace DecimalMachine.CommandLine

/-- How a tool ended. -/
inductive Status where
  | success
  | buildError
  | invalidArguments
  | internalError
  deriving DecidableEq, Repr

/-- The number of a status. -/
def Status.code : Status → Nat
  | .success => 0
  | .buildError => 1
  | .invalidArguments => 2
  | .internalError => 3

/-- What is to blame for a failure. -/
inductive Blame where
  /-- The source. -/
  | source
  /-- The program or its input. -/
  | program
  /-- The arguments of the tool. -/
  | arguments
  /-- Nothing that the user has in hand. -/
  | tool
  deriving DecidableEq, Repr

/-- The status of a tool that a failure ends. -/
def Blame.status : Blame → Status
  | .source => .buildError
  | .program => .buildError
  | .arguments => .invalidArguments
  | .tool => .internalError

/-- The report of a failure, by what the tool was doing where that is known. -/
def Blame.report (activity : Option String) (message : String) : Blame → String
  | .source => message
  | .program =>
      match activity with
      | some activity => if activity.isEmpty then "Error: " ++ message
          else activity ++ " error: " ++ message
      | none => "Error: " ++ message
  | .arguments => "Error: " ++ message
  | .tool => "Internal error: " ++ message

/-- What is to blame for a failure of a tool. -/
def blame : Failure → Blame
  | .rejected (.source _) => .source
  | .rejected (.limit _) => .tool
  | .load _ => .program
  | .execution (.fault _) => .program
  | .execution (.limit _) => .tool
  | .size _ => .tool
  | .file (.missing _) => .arguments
  | .file (.noSource _) => .arguments
  | .file (.noProgram _) => .arguments
  | .file _ => .tool
  | .encoding _ => .tool

/-- The end of a tool's work. -/
structure Finish where
  status : Status
  terminal : Terminal
  directory : Directory
  deriving Repr

/-- End with the report of a failure. -/
def failWith (activity : String) (failure : Failure) (terminal : Terminal)
    (directory : Directory) : Finish :=
  let blamed := blame failure
  ⟨blamed.status, terminal.warn (blamed.report (some activity) failure.message), directory⟩

/-- The end of a call. -/
inductive Result where
  /-- The arguments make no sense, and nothing was done. -/
  | misuse
  /-- The work was done or failed. -/
  | finished (finish : Finish)
  /-- The program has used up the instructions that were granted. -/
  | unfinished (terminal : Terminal)
  deriving Repr

/-- What a tool is given besides its arguments: the text that sets the memory
size, and the time a compilation takes in thousandths of a millisecond. -/
structure Surroundings where
  memorySize : Option String
  elapsed : Int
  deriving Repr

/-! ## Paths among the arguments -/

/-- Why the arguments of a call are refused. -/
inductive Refusal where
  /-- They make no sense. -/
  | misuse
  /-- A path holds a null character, and the tool breaks off without a word. -/
  | nullCharacter
  deriving DecidableEq, Repr

/-- Where the text of a path leads. The length of the text counts as it is
written. -/
def locate (directory : Directory) (text : String) : Except Refusal Destination :=
  match directory.find (.ofText text) with
  | .nullCharacter => .error .nullCharacter
  | destination => .ok (if Path.lengthLimit < text.utf8ByteSize then .tooLong else destination)

/-- Whether the text of a path asks for a folder, by a slash or a dot at its
end. -/
def asksForFolder (text : String) : Bool :=
  let ending := text.toList.reverse
  ending.take 1 = ['/'] || ending.take 2 = ['.', '/']

/-- Accept the path of a file that is there. -/
def acceptFile (directory : Directory) (text : String) : Except Refusal Path := do
  match ← locate directory text with
  | .node _ .folder => .error .misuse
  | .node _ _ => if asksForFolder text then .error .misuse else pure (.ofText text)
  | _ => .error .misuse

/-- Accept the path of a file that may be there or not. The empty text is no
folder's. -/
def acceptOutput (directory : Directory) (text : String) : Except Refusal Path := do
  match ← locate directory text with
  | .node _ .folder => if text.isEmpty then pure (.ofText text) else .error .misuse
  | _ => pure (.ofText text)

/-- Accept operands that are the path of one file that is there. -/
def acceptOperands (directory : Directory) (operands : List String) : Except Refusal Path :=
  match operands with
  | [] => .error .misuse
  | text :: more => do
      let path ← acceptFile directory text
      if more.isEmpty then pure path else .error .misuse

end DecimalMachine.CommandLine
