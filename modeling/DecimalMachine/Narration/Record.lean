/-!
# Records

A record tells of one thing that was done, with a level.  Records are written
one on a line, either with their level or as the bare text.
-/

namespace DecimalMachine

/-- How much a record matters. -/
inductive Level where
  | debug
  | info
  | warning
  deriving DecidableEq, Repr

/-- The word for a level. -/
def Level.text : Level → String
  | .debug => "DEBUG"
  | .info => "INFO"
  | .warning => "WARNING"

/-- One thing that was done. -/
structure Record where
  level : Level
  text : String
  deriving DecidableEq, Repr

namespace Record

/-- A record of the lowest level. -/
def debug (text : String) : Record := ⟨.debug, text⟩

/-- A record of the middle level. -/
def info (text : String) : Record := ⟨.info, text⟩

/-- A record as it is written: with its level when all records are, and bare
when only warnings are. -/
def render (verbose : Bool) (record : Record) : String :=
  if verbose then record.level.text ++ ": " ++ record.text else record.text

/-- Whether a record is written at all. -/
def isShown (verbose : Bool) (record : Record) : Bool :=
  verbose || record.level = .warning

end Record

end DecimalMachine
