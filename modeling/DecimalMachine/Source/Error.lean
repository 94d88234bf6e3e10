import DecimalMachine.Source.Diagnostic

/-!
# Errors in sources

Compilation stops at the first error.  An error keeps its cause, the location
of the line at fault and the text of that line; the wording follows from the
cause.  A literal that is too long to be read is not an error of the source but
a limit of the conversion, and is kept apart.
-/

namespace DecimalMachine

/-- What is wrong with the shape of a line. -/
inductive Malformation where
  /-- A label line does not name an identifier. -/
  | labelName (text : String)
  /-- More tokens follow the operand. -/
  | trailingTokens (tokens : List String)
  /-- A declaration does not name an identifier. -/
  | variableName (name : String)
  /-- A declaration has no right-hand side. -/
  | missingValue (name : String)
  /-- A declaration has a second equals sign. -/
  | secondEquals
  /-- An operator of an expression lacks a term beside it. -/
  | danglingOperator (expression : String)
  /-- A term of an expression is not an identifier. -/
  | termName (term : String)
  /-- A halt command has an operand. -/
  | haltOperand
  /-- A command that works on a variable has a label for its operand. -/
  | labelForVariable (command : String)
  /-- A branch command has an operand that is not a label. -/
  | variableForLabel (command operand : String)
  /-- A branch command has a label without a name. -/
  | emptyTarget
  /-- A branch command has a label that is not an identifier. -/
  | targetName (operand : String)
  deriving DecidableEq, Repr

namespace Malformation

/-- The wording of a malformation. -/
def message : Malformation → String
  | .labelName text => "invalid branch label '" ++ text ++ "'"
  | .trailingTokens tokens => "unexpected '" ++ " ".intercalate tokens ++ "' after operand"
  | .variableName name => "invalid variable name '" ++ name ++ "'"
  | .missingValue name => "missing value for variable '" ++ name ++ "'"
  | .secondEquals => "only one '=' is allowed per declaration"
  | .danglingOperator expression => "dangling operator in expression '" ++ expression ++ "'"
  | .termName term => "invalid term '" ++ term ++ "' in expression"
  | .haltOperand => "HALT takes no operand"
  | .labelForVariable command => command ++ " expects a variable, not a branch label"
  | .variableForLabel command _ => command ++ " target must be a branch label"
  | .emptyTarget => "empty branch label"
  | .targetName operand => "invalid branch label '" ++ operand ++ "'"

/-- How a malformed line should be written, where that can be said. -/
def hint : Malformation → Option String
  | .labelName _ => some "labels are written as @name"
  | .termName _ => some "expression terms must be declared variable names"
  | .variableForLabel command operand => some ("write '" ++ command ++ " @" ++ operand ++ "'")
  | _ => none

end Malformation

/-- The kinds of names that a program declares. -/
inductive SymbolKind where
  | variable
  | label
  deriving DecidableEq, Repr

namespace SymbolKind

/-- A name of a kind as declarations write it. -/
def shown : SymbolKind → String → String
  | .variable, name => name
  | .label, name => "@" ++ name

/-- The word for a kind where a declaration is at fault. -/
def declaredWord : SymbolKind → String
  | .variable => "variable"
  | .label => "branch label"

/-- The word for a kind where a reference is at fault. -/
def referencedWord : SymbolKind → String
  | .variable => "variable"
  | .label => "label"

end SymbolKind

/-- The cause of an error in a source. -/
inductive Complaint where
  /-- A line has none of the allowed forms. -/
  | malformed (malformation : Malformation)
  /-- A name is declared again. -/
  | duplicate (kind : SymbolKind) (name : String) (earlier : Location)
  /-- A name is not declared; similar names are. -/
  | undefined (kind : SymbolKind) (name : String) (similar : List String)
  /-- A command is no mnemonic; a similar one may be. -/
  | unknownCommand (command : String) (similar : List String)
  /-- A command lacks its operand. -/
  | missingOperand (command : String)
  /-- The program has more words than addresses. -/
  | tooLarge (instructions data : Nat) (limit : Int)
  /-- The source file holds nothing but blanks. -/
  | emptyFile (path : String)
  deriving DecidableEq, Repr

/-- An error in a source, with the line at fault where there is one. -/
structure CompileError where
  complaint : Complaint
  location : Option Location
  sourceLine : Option String
  deriving DecidableEq, Repr

/-- The report of an error. -/
def CompileError.diagnostic (error : CompileError) : Diagnostic :=
  match error.complaint with
  | .malformed malformation =>
      ⟨malformation.message, error.location, malformation.hint, error.sourceLine⟩
  | .duplicate kind name earlier =>
      .duplicate kind.declaredWord (kind.shown name) earlier error.location error.sourceLine
  | .undefined kind name similar =>
      .undefined kind.referencedWord name (similar.map kind.shown) error.location
        error.sourceLine
  | .unknownCommand command similar =>
      .unknownCommand command similar error.location error.sourceLine
  | .missingOperand command => .missingOperand command error.location error.sourceLine
  | .tooLarge instructions data limit =>
      ⟨"program needs " ++ Decimal.text (instructions + data : Nat) ++ " words (" ++
          Decimal.text instructions ++ " instructions, " ++ Decimal.text data ++
          " variables) but only " ++ Decimal.text limit ++ " are addressable",
        error.location, none, error.sourceLine⟩
  | .emptyFile path =>
      ⟨"source file '" ++ path ++ "' is empty", error.location, none, error.sourceLine⟩

/-- The text of an error. -/
def CompileError.render (error : CompileError) : String :=
  error.diagnostic.render

/-- Why a source is not compiled. -/
inductive Rejection where
  /-- The source is in error. -/
  | source (error : CompileError)
  /-- A literal of the source is too long to be read. -/
  | limit (error : Decimal.LimitError)
  deriving DecidableEq, Repr

/-- The wording of a rejection. -/
def Rejection.message : Rejection → String
  | .source error => error.render
  | .limit error => error.message

end DecimalMachine
