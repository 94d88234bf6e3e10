import DecimalMachine.Decimal.Basic

/-!
# Events

An event tells why execution stopped: the reason, the address and the value
that belong to it, and a message when the observer that asked for the stop has
one.
-/

namespace DecimalMachine

/-- Why execution stopped. -/
inductive StopReason where
  | unspecified
  /-- A halt was executed. -/
  | halt
  /-- The program counter left the memory. -/
  | endOfMemory
  /-- A single instruction was executed. -/
  | step
  /-- The program counter reached a breakpoint. -/
  | breakpoint
  /-- A watched cell was written. -/
  | memoryWrite
  /-- A register condition was met. -/
  | condition
  deriving DecidableEq, Repr

/-- A stop. -/
structure Event where
  reason : StopReason
  address : Option Int := none
  value : Option String := none
  message : String := ""
  deriving DecidableEq, Repr

namespace Event

/-- Whether the program has come to its end. -/
def halted (event : Event) : Bool :=
  event.reason = .halt || event.reason = .endOfMemory

/-- The wording of a stop at an address by its reason. -/
def describe (event : Event) : String :=
  match event.reason, event.address with
  | .unspecified, _ => "Unknown"
  | .halt, _ => "Program terminated"
  | .endOfMemory, _ => "Program ran off the end of memory"
  | .step, _ => "Single step"
  | .breakpoint, some address => "Breakpoint at " ++ Decimal.twoDigits address
  | .breakpoint, none => "Breakpoint"
  | .memoryWrite, some address =>
      "Write " ++ event.value.getD "None" ++ " to " ++ Decimal.twoDigits address
  | .memoryWrite, none => "Memory write"
  | .condition, _ => "Register condition met"

/-- The text of an event: its message, or a wording by its reason. -/
def render (event : Event) : String :=
  if event.message.isEmpty then event.describe else event.message

end Event

end DecimalMachine
