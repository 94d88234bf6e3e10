import DecimalMachine.Decimal.Literal
import DecimalMachine.Source.Error
import DecimalMachine.Text.Blank
import DecimalMachine.Word.Opcode

/-!
# Forms of source lines

A source line is blank, a comment, a declaration of a variable by a literal or
by an expression, a branch label, or an instruction.  The form is decided by
the trimmed text of the line alone: whether a command exists or a name is
declared is not looked at.
-/

namespace DecimalMachine

/-- The operators of expressions. -/
inductive Sign where
  | plus
  | minus
  deriving DecidableEq, Repr

namespace Sign

/-- The character that writes an operator. -/
def char : Sign → Char
  | .plus => '+'
  | .minus => '-'

/-- The operator that a character writes. -/
def ofChar? (c : Char) : Option Sign :=
  if c = '+' then some .plus else if c = '-' then some .minus else none

/-- The value of an operator. -/
def apply : Sign → Int → Int → Int
  | .plus, a, b => a + b
  | .minus, a, b => a - b

end Sign

/-- What a source line says. -/
inductive Form where
  | blank
  | comment
  /-- A variable with its initial value. -/
  | variable (name : String) (value : Int)
  /-- A variable computed from others, left to right. -/
  | expression (name first : String) (rest : List (Sign × String))
  /-- A mark on the next instruction. -/
  | label (name : String)
  /-- A command as it is written, with its operand. -/
  | instruction (command : String) (operand : Option String)
  deriving DecidableEq, Repr

namespace Form

/-- The character that opens a comment. -/
def commentMark : Char := '>'

/-- The character that marks a label. -/
def labelMark : Char := '@'

/-- The command that ends a program. -/
def haltCommand : String := Opcode.halt.mnemonic

/-- Whether an operand refers to a label. -/
def isLabelOperand (operand : String) : Bool :=
  operand.toList.head? = some labelMark

/-- Whether a form is the command that ends a program, with or without an
operand. -/
def isHalt : Form → Bool
  | .instruction command _ => command == haltCommand
  | _ => false

/-- The names of the terms of an expression, in order. -/
def terms (first : String) (rest : List (Sign × String)) : List String :=
  first :: rest.map (·.2)

/-- The variables that a form reads or writes by name, other than the one it
declares. -/
def references : Form → List String
  | .expression _ first rest => terms first rest
  | .instruction _ (some operand) => if isLabelOperand operand then [] else [operand]
  | _ => []

/-- The variable that a form declares. -/
def declares? : Form → Option String
  | .variable name _ => some name
  | .expression name _ _ => some name
  | _ => none

/-- Why a text has no form. -/
inductive Flaw where
  | malformed (malformation : Malformation)
  | limit (error : Decimal.LimitError)
  deriving DecidableEq, Repr

/-- Cut an expression at its operators. -/
def splitTerms : List Char → List Char × List (Sign × List Char)
  | [] => ([], [])
  | c :: text =>
      let (first, rest) := splitTerms text
      match Sign.ofChar? c with
      | some sign => ([], (sign, first) :: rest)
      | none => (c :: first, rest)

/-- Accept a term of an expression, which has to be an identifier. -/
def readTerm (expression term : List Char) : Except Flaw String :=
  if term.isEmpty then .error (.malformed (.danglingOperator (.ofList expression)))
  else if Text.isNameShape term then .ok (.ofList term)
  else .error (.malformed (.termName (.ofList term)))

/-- Read the right-hand side of a declaration that is no literal. -/
def readExpression (name : String) (text : List Char) : Except Flaw Form := do
  let (first, rest) := splitTerms text
  let first ← readTerm text first
  let rest ← rest.mapM fun (sign, term) => do
    let term ← readTerm text term
    pure (sign, term)
  pure (.expression name first rest)

/-- Read a declaration from which all blanks have been removed. -/
def readDeclaration (text : List Char) : Except Flaw Form :=
  let name := text.takeWhile (· ≠ '=')
  let value := (text.dropWhile (· ≠ '=')).drop 1
  if !Text.isNameShape name then .error (.malformed (.variableName (.ofList name)))
  else if value.isEmpty then .error (.malformed (.missingValue (.ofList name)))
  else if value.contains '=' then .error (.malformed .secondEquals)
  else if Decimal.isLiteralShape value then
    match Decimal.readShape value with
    | .ok value => .ok (.variable (.ofList name) value)
    | .error error => .error (.limit error)
  else readExpression (.ofList name) value

/-- Read a command line by its tokens. -/
def readTokens : List (List Char) → Except Flaw Form
  | [] => .ok .blank
  | [command] => .ok (.instruction (.ofList command) none)
  | [command, operand] => .ok (.instruction (.ofList command) (some (.ofList operand)))
  | _ :: _ :: more => .error (.malformed (.trailingTokens (more.map .ofList)))

/-- Read the form of a trimmed line. -/
def readTrimmed (text : List Char) : Except Flaw Form :=
  match text with
  | [] => .ok .blank
  | c :: rest =>
      if c = commentMark then .ok .comment
      else if c = labelMark then
        if Text.isNameShape rest then .ok (.label (.ofList rest))
        else .error (.malformed (.labelName (.ofList text)))
      else if text.contains '=' then readDeclaration (text.filter (! Text.isBlank ·))
      else readTokens (Text.tokenChars text)

end Form

end DecimalMachine
