import DecimalMachine.Files.Directory
import DecimalMachine.Memory.Basic
import DecimalMachine.Processor.Fault
import DecimalMachine.Source.Error

/-!
# Failures

Whatever a tool does can fail in one of these ways.  A failure keeps the error
of the part that failed and takes its wording.
-/

namespace DecimalMachine

/-- Why a tool did not do its work. -/
inductive Failure where
  /-- A source is not compiled. -/
  | rejected (rejection : Rejection)
  /-- A program does not fit. -/
  | load (error : LoadError)
  /-- An instruction failed. -/
  | execution (error : ExecutionError)
  /-- There is no memory of the size. -/
  | size (error : SizeError)
  /-- A file is not read or written. -/
  | file (error : FileError)
  /-- A file holds no text. -/
  | encoding (error : Text.Utf8.DecodeError)
  deriving DecidableEq, Repr

/-- The wording of a failure. -/
def Failure.message : Failure → String
  | .rejected rejection => rejection.message
  | .load error => error.message
  | .execution error => error.message
  | .size error => error.message
  | .file error => error.message
  | .encoding error => error.message

end DecimalMachine
