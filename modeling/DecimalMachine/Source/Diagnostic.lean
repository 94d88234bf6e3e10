import DecimalMachine.Source.Location

/-!
# Diagnostics

A diagnostic says what is wrong with a source: a message after the location,
then the source line it is about, then a hint.  All but the message may be
missing.
-/

namespace DecimalMachine

/-- A report about a source. -/
structure Diagnostic where
  message : String
  location : Option Location
  hint : Option String
  sourceLine : Option String
  deriving DecidableEq, Repr

namespace Diagnostic

/-- The lines of a diagnostic. An empty hint is not shown. -/
def lines (diagnostic : Diagnostic) : List String :=
  let head := match diagnostic.location with
    | some location => location.render ++ ": error: " ++ diagnostic.message
    | none => "error: " ++ diagnostic.message
  let context := diagnostic.sourceLine.toList.map ("    " ++ ·)
  let hint := (diagnostic.hint.toList.filter (! ·.isEmpty)).map ("hint: " ++ ·)
  head :: context ++ hint

/-- The text of a diagnostic. -/
def render (diagnostic : Diagnostic) : String :=
  "\n".intercalate diagnostic.lines

/-- The report of a symbol declared twice, under a word for its kind and a
name as it is shown. -/
def duplicate (kind name : String) (earlier : Option Location)
    (location : Option Location) (sourceLine : Option String) : Diagnostic where
  message := kind ++ " '" ++ name ++ "' already exists"
  location := location
  hint := earlier.map fun first => "'" ++ name ++ "' was first declared at " ++ first.render
  sourceLine := sourceLine

/-- Three suggestions at most, in quotes. -/
def suggestion (names : List String) : Option String :=
  match names with
  | [] => none
  | _ =>
      let shown := (names.take 3).map fun name => "'" ++ name ++ "'"
      some ("did you mean " ++ ", ".intercalate shown ++ "?")

/-- The report of a symbol that is not declared, under a word for its kind.
Labels have a wording of their own. -/
def undefined (kind name : String) (similar : List String)
    (location : Option Location) (sourceLine : Option String) : Diagnostic where
  message :=
    if kind = "label" then "branch label '@" ++ name ++ "' doesn't exist"
    else kind ++ " '" ++ name ++ "' not found"
  location := location
  hint := suggestion similar
  sourceLine := sourceLine

/-- The report of a command that is no mnemonic. -/
def unknownCommand (command : String) (similar : List String)
    (location : Option Location) (sourceLine : Option String) : Diagnostic where
  message := "unknown command '" ++ command ++ "'"
  location := location
  hint := suggestion (similar.take 1)
  sourceLine := sourceLine

/-- The report of a command without the operand it needs. -/
def missingOperand (command : String)
    (location : Option Location) (sourceLine : Option String) : Diagnostic where
  message := "incomplete command '" ++ command ++ "': missing operand"
  location := location
  hint := none
  sourceLine := sourceLine

end Diagnostic

end DecimalMachine
