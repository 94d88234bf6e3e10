import DecimalMachine.Debug.Condition
import DecimalMachine.Processor.Event

/-!
# Breakpoints

Execution can be stopped before the instruction at a breakpoint, before an
instruction at which a register condition holds, and after a write into a
watched cell.  Breakpoints are looked at before conditions, and of the
conditions the first that holds counts.  The event of the last stop is kept
until it is cleared.
-/

namespace DecimalMachine

/-- The addresses and conditions at which execution stops, and the event of the
last stop. Addresses are kept in increasing order, each one once. -/
structure Breakpoints where
  addresses : List Int
  watched : List Int
  conditions : List Condition
  lastEvent : Option Event
  deriving DecidableEq, Repr

namespace Breakpoints

/-- No breakpoints at all. -/
def empty : Breakpoints := ⟨[], [], [], none⟩

/-- Put an address into its place among increasing ones. -/
def insert (address : Int) : List Int → List Int
  | [] => [address]
  | first :: rest =>
      if address < first then address :: first :: rest
      else if address = first then first :: rest
      else first :: insert address rest

/-- Stop before the instruction at an address. -/
def addBreakpoint (breakpoints : Breakpoints) (address : Int) : Breakpoints :=
  { breakpoints with addresses := insert address breakpoints.addresses }

/-- Stop no longer before the instruction at an address. -/
def removeBreakpoint (breakpoints : Breakpoints) (address : Int) : Breakpoints :=
  { breakpoints with addresses := breakpoints.addresses.filter (· ≠ address) }

/-- Whether an address has a breakpoint. -/
def hasBreakpoint (breakpoints : Breakpoints) (address : Int) : Bool :=
  breakpoints.addresses.contains address

/-- Stop after a write into a cell. -/
def addWatchpoint (breakpoints : Breakpoints) (address : Int) : Breakpoints :=
  { breakpoints with watched := insert address breakpoints.watched }

/-- Stop no longer after a write into a cell. -/
def removeWatchpoint (breakpoints : Breakpoints) (address : Int) : Breakpoints :=
  { breakpoints with watched := breakpoints.watched.filter (· ≠ address) }

/-- Stop where a condition holds. -/
def addCondition (breakpoints : Breakpoints) (condition : Condition) : Breakpoints :=
  { breakpoints with conditions := breakpoints.conditions ++ [condition] }

/-- Forget the event of the last stop. -/
def clearLastEvent (breakpoints : Breakpoints) : Breakpoints :=
  { breakpoints with lastEvent := none }

/-- The event of a breakpoint at an address with a word. -/
def breakpointEvent (address : Int) (word : String) : Event where
  reason := .breakpoint
  address := some address
  message := "Breakpoint at " ++ Decimal.twoDigits address ++ " (" ++ word ++ ")"

/-- The event of a condition that holds before the instruction at an address. -/
def conditionEvent (address : Int) (condition : Condition) : Event where
  reason := .condition
  address := some address
  message := "Condition: " ++ condition.description

/-- The event of a write into a watched cell. -/
def writeEvent (address : Int) (value : String) : Event where
  reason := .memoryWrite
  address := some address
  value := some value
  message := "Write " ++ value ++ " to " ++ Decimal.twoDigits address

/-- The event that stops execution before an instruction, if one does. -/
def stopBefore? (breakpoints : Breakpoints) (readout : Readout) (address : Int) (word : String) :
    Option Event :=
  if breakpoints.hasBreakpoint address then some (breakpointEvent address word)
  else (breakpoints.conditions.find? (·.holds readout)).map (conditionEvent address)

/-- The event that stops execution after a write, if one does. -/
def stopAfter? (breakpoints : Breakpoints) (address : Int) (value : String) : Option Event :=
  if breakpoints.watched.contains address then some (writeEvent address value) else none

/-- Keep the event of a stop and tell whether execution may go on. -/
def keep (breakpoints : Breakpoints) (stop : Option Event) : Bool × Breakpoints :=
  match stop with
  | some event => (false, { breakpoints with lastEvent := some event })
  | none => (true, breakpoints)

/-- Whether the instruction at an address may be executed. -/
def checkInstruction (breakpoints : Breakpoints) (readout : Readout) (address : Int)
    (word : String) : Bool × Breakpoints :=
  breakpoints.keep (breakpoints.stopBefore? readout address word)

/-- Whether execution may go on after a write. -/
def checkWrite (breakpoints : Breakpoints) (address : Int) (value : String) :
    Bool × Breakpoints :=
  breakpoints.keep (breakpoints.stopAfter? address value)

end Breakpoints

end DecimalMachine
