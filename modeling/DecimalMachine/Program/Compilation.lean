import DecimalMachine.Program.Basic

/-!
# Compilation of sources

A source is compiled by reading its lines up to the first halt command and
compiling these.  The result remembers the name of the source and the number
of lines that were read.
-/

namespace DecimalMachine

/-- The result of compiling a source. -/
structure Compilation where
  file : String
  program : Program
  lineCount : Nat
  deriving Repr

namespace Compilation

/-- The words of the program. -/
def words (compilation : Compilation) : List String :=
  compilation.program.words

/-- The number of instruction words. -/
def instructionCount (compilation : Compilation) : Nat :=
  compilation.program.instructions.length

/-- The number of words that are not instructions. -/
def variableCount (compilation : Compilation) : Nat :=
  compilation.words.length - compilation.instructionCount

/-- The variables with an address, in the order of their addresses. -/
def variableAddresses (compilation : Compilation) : List (String × Int) :=
  SymbolTable.addresses compilation.program.symbols

/-- The labels in the order of definition, each with an instruction index. -/
def labels (compilation : Compilation) : List (String × Nat) :=
  compilation.program.labels.entries.map fun entry => (entry.name, entry.value)

/-- The text of the program file: a line for each word. -/
def text (compilation : Compilation) : String :=
  Text.unlines compilation.words

/-- Compile a source. -/
def ofSource (options : CompileOptions) (file source : String) : Except Rejection Compilation := do
  let lines ← Source.lines file source
  match Program.ofLines options (some (Source.endsWithHalt source)) lines with
  | .ok program => pure ⟨file, program, lines.length⟩
  | .error error => .error (.source error)

end Compilation

end DecimalMachine
