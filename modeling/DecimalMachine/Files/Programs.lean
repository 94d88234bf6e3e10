import DecimalMachine.Decimal.Places
import DecimalMachine.Files.Failure
import DecimalMachine.Machine.Basic

/-!
# Source and program files

Files are read as UTF-8, with every newline convention accepted.  A source file
has to hold something besides blanks; the compiled program is written with one
word on a line.  A program file is read line by line, and blank lines are
passed over.
-/

namespace DecimalMachine.Files

/-- The suffix of source files. -/
def sourceSuffix : String := ".smp"

/-- The suffix of program files. -/
def programSuffix : String := ".sml"

/-- The text that bytes encode, with a line feed for every newline. -/
def decodeText (content : List UInt8) : Except Failure String :=
  (Text.unifyNewlines <$> Text.Utf8.decode content).mapError .encoding

/-- The text of the file at a path. -/
def readText (directory : Directory) (path : Path) : Except Failure String := do
  let content ← (directory.read path).mapError .file
  decodeText content

/-- Compile the text of a source file. -/
def compileText (options : CompileOptions) (name text : String) : Except Failure Compilation :=
  if (Text.trim text).isEmpty then
    .error (.rejected (.source ⟨.emptyFile name, none, none⟩))
  else (Compilation.ofSource options name text).mapError .rejected

/-- Compile a source file, which goes by its name as it is written. -/
def compile (directory : Directory) (options : CompileOptions) (name : String) :
    Except Failure Compilation := do
  let path := Path.ofText name
  if ← (directory.hasPath path).mapError .file then
    let text ← readText directory path
    compileText options name text
  else .error (.file (.noSource name))

/-- The program file of a source file. -/
def programPath (path : Path) : Except NamelessPath Path :=
  path.withSuffix programSuffix

/-- Write the words of a program to a file. -/
def writeWords (directory : Directory) (path : Path) (words : List String) :
    Except Failure Directory :=
  (directory.write path (Text.Utf8.encode (Text.unlines words))).mapError .file

/-- Compile a source file and write its program to another one. -/
def compileTo (directory : Directory) (options : CompileOptions) (name : String) (path : Path) :
    Except Failure (Compilation × Directory) := do
  let compilation ← compile directory options name
  let directory ← writeWords directory path compilation.words
  pure (compilation, directory)

/-- The words of the text of a program file. -/
def wordsOfText (text : String) : List String :=
  ((Text.lines text).map Text.trim).filter (! ·.isEmpty)

/-- The words of a program file. -/
def readWords (directory : Directory) (path : Path) : Except Failure (List String) := do
  if ← (directory.hasPath path).mapError .file then
    let text ← readText directory path
    pure (wordsOfText text)
  else .error (.file (.noProgram path))

/-- Load a program file, whose number of words is told. -/
def load (directory : Directory) (path : Path) (machine : Machine) :
    Except Failure (Nat × Machine) := do
  let words ← readWords directory path
  let machine ← (machine.loadWords words).mapError .load
  pure (words.length, machine)

/-- The line above and below the statistics. -/
def statisticsRule : String :=
  .ofList (List.replicate 42 '-')

/-- The statistics of a compilation: the program file with its size, the time
in thousandths of a millisecond, and the number of words. The size is that of
the file if there is one. -/
def statistics (directory : Directory) (path : Path) (elapsed : Int) (words : List String) :
    Except Failure String := do
  let size ← (directory.size? path).mapError .file
  let bytes := size.getD (Text.Utf8.encode (Text.unlines words)).length
  pure ("\n".intercalate
    [statisticsRule,
      "Compiled to      : " ++ path.render ++ " (" ++ Decimal.text bytes ++ " bytes)",
      "Compilation time : " ++ Decimal.twoPlaces elapsed ++ " ms",
      "Number of lines  : " ++ Decimal.text words.length,
      statisticsRule])

end DecimalMachine.Files
