import DecimalMachine.Narration.Record
import DecimalMachine.Text.Escape
import DecimalMachine.Text.Lines
import DecimalMachine.Text.Pieces

/-!
# Terminals

A tool writes to two streams and reads lines of input.  A terminal keeps what
was written, in order, together with the lines that have not been read.  The
lines that were read stand between what was written, as they do on a screen.
A tool's own lines are written without escape sequences; records and the lines
that were read are shown as they are.
-/

namespace DecimalMachine.CommandLine

/-- What can be seen on a terminal: the two streams that a tool writes to, and
the lines that it reads. -/
inductive Stream where
  | output
  | error
  | echo
  deriving DecidableEq, Repr

/-- What a tool has written and what it can still read. -/
structure Terminal where
  written : Array (Stream × String)
  unread : List String
  /-- How much had been written when first a line was asked for and none was
  left. -/
  wanted : Option Nat
  deriving Repr

namespace Terminal

/-- The lines of input. Newlines of every convention end a line. -/
def inputLines (input : String) : List String :=
  let (first, more) := Text.pieces (· = '\n') (Text.unifyNewlineChars input.toList)
  let lines := first :: more
  (if lines.getLast? = some [] then lines.dropLast else lines).map .ofList

/-- A terminal on which nothing was written. -/
def ofInput (lines : List String) : Terminal where
  written := #[]
  unread := lines
  wanted := none

/-- The output, with the lines that were read. -/
def output (terminal : Terminal) : String :=
  String.join ((terminal.written.toList.filter (·.1 ≠ .error)).map (·.2))

/-- The errors and records. -/
def errors (terminal : Terminal) : String :=
  String.join ((terminal.written.toList.filter (·.1 = .error)).map (·.2))

/-- Write a text as it is. -/
def print (terminal : Terminal) (stream : Stream) (text : String) : Terminal :=
  { terminal with written := terminal.written.push (stream, text) }

/-- Write a line of output. -/
def say (terminal : Terminal) (text : String) : Terminal :=
  terminal.print .output (Text.dropEscapes text ++ "\n")

/-- Write a line of errors. -/
def warn (terminal : Terminal) (text : String) : Terminal :=
  terminal.print .error (Text.dropEscapes text ++ "\n")

/-- Write the records that are shown. -/
def tell (terminal : Terminal) (verbose : Bool) (records : List Record) : Terminal :=
  (records.filter (·.isShown verbose)).foldl
    (fun terminal record => terminal.print .error (record.render verbose ++ "\n")) terminal

/-- Remember that a line was asked for and none was left. -/
def want (terminal : Terminal) : Terminal :=
  { terminal with
    unread := []
    wanted := terminal.wanted.or (some terminal.written.size) }

/-- Ask for a line that is not empty, with a text in front of it. -/
def askFor (text : String) (terminal : Terminal) : List String → Option String × Terminal
  | [] => (none, (terminal.print .output text).want)
  | line :: rest =>
      let asked := (terminal.print .output text).print .echo (line ++ "\n")
      if line.isEmpty then askFor text asked rest
      else (some line, { asked with unread := rest })

/-- Prompt for a value. -/
def prompt (terminal : Terminal) : Option String × Terminal :=
  askFor "Enter value: " terminal terminal.unread

end Terminal

end DecimalMachine.CommandLine
