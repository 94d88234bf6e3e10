import DecimalMachine.Decimal.Numeral
import DecimalMachine.Memory.Basic
import DecimalMachine.Text.Quoted

/-!
# Settings of a machine

The only setting is the number of memory cells.  It may come from a variable of
the surroundings, whose text is read as a numeral; a text that gives no size is
ignored with a warning.
-/

namespace DecimalMachine

/-- The settings of a machine. -/
structure Settings where
  memorySize : Int
  deriving DecidableEq, Repr

/-- A memory size that is not positive. -/
structure SettingsError where
  memorySize : Int
  deriving DecidableEq, Repr

/-- The wording of refused settings. -/
def SettingsError.message (error : SettingsError) : String :=
  "memory_size must be positive, got " ++ Decimal.text error.memorySize

namespace Settings

/-- The settings that are used when nothing is set. -/
def default : Settings where
  memorySize := Memory.defaultSize

/-- Settings with a memory size, which has to be positive. -/
def ofSize (size : Int) : Except SettingsError Settings :=
  if 0 < size then .ok ⟨size⟩ else .error ⟨size⟩

/-- The variable of the surroundings that sets the memory size. -/
def sizeVariable : String := "SIMPLETRON_MEMORY_SIZE"

/-- The warning about a text that is no memory size. -/
def warning (text : String) : String :=
  "Ignoring invalid " ++ sizeVariable ++ "=" ++ Text.quoted text

/-- The settings that the surroundings make, and the warning about a text that
is ignored. An empty text sets nothing. -/
def ofVariable (text : Option String) : Settings × Option String :=
  match text with
  | none => (default, none)
  | some text =>
      if text.isEmpty then (default, none)
      else
        match Decimal.numeral? text with
        | some size => if 0 < size then (⟨size⟩, none) else (default, some (warning text))
        | none => (default, some (warning text))

end Settings

end DecimalMachine
