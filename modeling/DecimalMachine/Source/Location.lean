import DecimalMachine.Decimal.Basic

/-!
# Source locations

Sources are line oriented, so a place in a source is the name of its file and a
line number, counted from one.
-/

namespace DecimalMachine

/-- A line of a named source. -/
structure Location where
  file : String
  line : Int
  deriving DecidableEq, Repr

/-- A location as messages show it. -/
def Location.render (location : Location) : String :=
  location.file ++ ":" ++ Decimal.text location.line

end DecimalMachine
