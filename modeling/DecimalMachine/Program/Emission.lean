import DecimalMachine.Program.Layout
import DecimalMachine.Text.Capital

/-!
# Emission of code

Every line that is kept emits its code by itself, given the labels of the whole
program and the variables declared above it.  Operands are still symbolic: a
branch has the index of its label, and every other operation the name of its
variable.

An expression is worked off from left to right.  Its running value is stored in
the variable it declares after every operator and loaded from there for the
next one.
-/

namespace DecimalMachine.Program

/-- The operand of an emitted instruction. -/
inductive Operand where
  /-- A halt has no operand. -/
  | absent
  /-- A branch goes to the instruction with this index. -/
  | target (index : Nat)
  /-- Every other operation works on a variable. -/
  | variable (name : String)
  deriving DecidableEq, Repr

/-- An instruction before variables have addresses. -/
structure Emitted where
  opcode : Opcode
  operand : Operand
  deriving DecidableEq, Repr

namespace Emitted

/-- The instruction that ends a program. -/
def halt : Emitted := ⟨.halt, .absent⟩

/-- An operation on a variable. -/
def access (opcode : Opcode) (name : String) : Emitted := ⟨opcode, .variable name⟩

/-- The variable that an instruction works on. -/
def accessed? (emitted : Emitted) : Option String :=
  match emitted.operand with
  | .variable name => some name
  | _ => none

end Emitted

/-- The operation that an operator of an expression stands for. -/
def signOpcode : Sign → Opcode
  | .plus => .add
  | .minus => .subtract

/-- The code of a chain of operators, whose running value is in one variable at
first and in the target after every operator. -/
def chain (target : String) : String → List (Sign × String) → List Emitted
  | _, [] => []
  | running, (sign, term) :: rest =>
      .access .load running :: .access (signOpcode sign) term :: .access .store target ::
        chain target target rest

/-- The code of an expression. -/
def lower (target first : String) (rest : List (Sign × String)) : List Emitted :=
  if rest.isEmpty then [.access .load first, .access .store target]
  else chain target first rest

/-- The text of the initial value of a variable that an expression declares. -/
def expressionSeed : String := Decimal.text 0

/-- Find the operand of a branch, which has to be a declared label. -/
def branchOperand (labels : Table Nat) (line : Line) (command operand : String) :
    Except CompileError Operand := do
  let malformed := fun malformation =>
    Except.error (Line.complain line.text line.location (.malformed malformation))
  let name := operand.toList.drop 1
  if !Form.isLabelOperand operand then malformed (.variableForLabel command operand)
  else if name.isEmpty then malformed .emptyTarget
  else if !Text.isNameShape name then malformed (.targetName operand)
  else
    let entry ← labels.resolve .label (.ofList name) line.location line.text
    pure (.target entry.value)

/-- Emit the instruction of a command. -/
def emitCommand (labels : Table Nat) (symbols : SymbolTable) (line : Line)
    (command : String) (operand : Option String) : Except CompileError Emitted :=
  let complain := fun complaint => Except.error (Line.complain line.text line.location complaint)
  match Opcode.ofMnemonic? command, operand with
  | none, _ =>
      complain (.unknownCommand command
        (Text.closeMatches 1 (Text.capitalize command) (Opcode.all.map Opcode.mnemonic)))
  | some .halt, none => .ok .halt
  | some .halt, some _ => complain (.malformed .haltOperand)
  | some _, none => complain (.missingOperand command)
  | some opcode, some operand =>
      if opcode.isBranch then
        (Emitted.mk opcode ·) <$> branchOperand labels line command operand
      else if Form.isLabelOperand operand then complain (.malformed (.labelForVariable command))
      else do
        let entry ← symbols.resolve .variable operand line.location line.text
        pure (.access opcode entry.name)

/-- Emit the code of a line, and declare its variable if it has one. -/
def emitLine (labels : Table Nat) (symbols : SymbolTable) (marked : Marked) :
    Except CompileError (List Emitted × SymbolTable) := do
  let line := marked.line
  match line.form with
  | .variable name value =>
      let symbols ← symbols.declare name (Decimal.text value) line.location line.text
      pure ([], symbols)
  | .expression name first rest =>
      if marked.kept then
        let _ ← (Form.terms first rest).mapM fun term =>
          symbols.resolve .variable term line.location line.text
        let symbols ← symbols.declare name expressionSeed line.location line.text
        pure (lower name first rest, symbols)
      else pure ([], symbols)
  | .instruction command operand =>
      let emitted ← emitCommand labels symbols line command operand
      pure ([emitted], symbols)
  | _ => pure ([], symbols)

/-- Emit the code of lines one after the other, below some variables. -/
def emit (labels : Table Nat) : SymbolTable → List Marked →
    Except CompileError (List Emitted × SymbolTable)
  | symbols, [] => .ok ([], symbols)
  | symbols, marked :: below => do
      let (code, symbols) ← emitLine labels symbols marked
      let (more, symbols) ← emit labels symbols below
      pure (code ++ more, symbols)

/-- The expressions that lines leave out before the first error. -/
def leftOut (labels : Table Nat) : SymbolTable → List Marked → List (Location × String)
  | _, [] => []
  | symbols, marked :: below =>
      match emitLine labels symbols marked with
      | .error _ => []
      | .ok (_, symbols) =>
          (droppedNames [marked]).map (marked.line.location, ·) ++ leftOut labels symbols below

end DecimalMachine.Program
