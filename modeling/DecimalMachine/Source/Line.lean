import DecimalMachine.Source.Form
import DecimalMachine.Text.Lines

/-!
# Source lines

A source is read line by line, each line by itself.  What follows the first
halt command is not part of the program and is not even read, except that the
last physical line decides whether the program needs a halt of its own.
-/

namespace DecimalMachine

/-- A line of a source: its form, its trimmed text and where it stands. -/
structure Line where
  form : Form
  text : String
  location : Location
  deriving DecidableEq, Repr

namespace Line

/-- An error at a line. -/
def complain (text : String) (location : Location) (complaint : Complaint) : CompileError :=
  ⟨complaint, some location, some text⟩

/-- Read a line of a source. -/
def read (text : String) (location : Location) : Except Rejection Line :=
  let trimmed := Text.trim text
  match Form.readTrimmed trimmed.toList with
  | .ok form => .ok ⟨form, trimmed, location⟩
  | .error (.malformed malformation) =>
      .error (.source (complain trimmed location (.malformed malformation)))
  | .error (.limit error) => .error (.limit error)

/-- Whether a line is the command that ends a program. -/
def isHalt (line : Line) : Bool :=
  line.form.isHalt

end Line

namespace Source

/-- The physical lines of a source, numbered from one. -/
def numbered (file source : String) : List (String × Location) :=
  (Text.lines source).mapIdx fun index text => (text, ⟨file, index + 1⟩)

/-- Read lines one after the other up to the first one that cannot be read,
which is reported beside those before it. -/
def readAll : List (String × Location) → List Line × Option Rejection
  | [] => ([], none)
  | (text, location) :: rest =>
      match Line.read text location with
      | .error rejection => ([], some rejection)
      | .ok line =>
          let (lines, stopped) := readAll rest
          (line :: lines, stopped)

/-- Read lines one after the other up to the first halt command. -/
def readToHalt : List (String × Location) → Except Rejection (List Line)
  | [] => .ok []
  | (text, location) :: rest => do
      let line ← Line.read text location
      if line.isHalt then pure [line]
      else
        let lines ← readToHalt rest
        pure (line :: lines)

/-- The lines of a source up to the first halt command. -/
def lines (file source : String) : Except Rejection (List Line) :=
  readToHalt (numbered file source)

/-- Whether the last physical line of a source is a halt command and nothing
else. -/
def endsWithHalt (source : String) : Bool :=
  match (Text.lines source).getLast? with
  | some last => Text.trim last == Form.haltCommand
  | none => false

end Source

end DecimalMachine
