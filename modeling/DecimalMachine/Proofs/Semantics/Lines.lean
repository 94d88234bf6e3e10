import DecimalMachine.Proofs.Semantics.Iteration
import DecimalMachine.Proofs.Semantics.Values
import DecimalMachine.Source.Line

/-!
# Execution of source lines

The lines of a source are executed one after the other, by the names of their
variables and labels.  Lines that only declare something do nothing, and so do
the expressions that were eliminated.
-/

namespace DecimalMachine.Semantics

/-- The literal by which a line declares a variable. -/
def declaredLiteral? (name : String) (line : Line) : Option Int :=
  match line.form with
  | .variable other value => if other = name then some value else none
  | _ => none

/-- The literal of a variable. -/
def literal? (lines : List Line) (name : String) : Option Int :=
  lines.findSome? (declaredLiteral? name)

/-- The point at which the execution of lines begins: a variable has the value
of its literal, and every other name stands for zero. -/
def initialPoint (lines : List Line) (inputs : List String) : Point where
  position := 0
  values :=
    { contents := fun name => (literal? lines name).getD 0
      accumulator := 0
      inputs := inputs
      outputs := [] }

/-- The line of the label that the operand of a branch names. -/
def target? (lines : List Line) (operand : String) : Option Nat :=
  lines.findIdx? fun line => line.form = .label (.ofList (operand.toList.drop 1))

/-- Execute an instruction line. -/
def commandStep (lines : List Line) (command : String) (operand : Option String)
    (point : Point) : Except (Stop × Values) Point :=
  match Opcode.ofMnemonic? command, operand with
  | some .halt, none => .error (.halted, point.values)
  | some opcode, some operand =>
      if opcode.isBranch then
        if point.values.branches opcode then
          match target? lines operand with
          | some line => .ok ⟨line, point.values⟩
          | none => .error (.meaningless, point.values)
        else .ok (point.next point.values)
      else point.proceed (point.values.perform operand opcode)
  | _, _ => .error (.meaningless, point.values)

/-- Execute the line at a point, given the expressions that were eliminated. -/
def lineStep (eliminated : List String) (lines : List Line) (point : Point) :
    Except (Stop × Values) Point :=
  match lines[point.position]? with
  | none => .error (.halted, point.values)
  | some line =>
      match line.form with
      | .expression name first rest =>
          if name ∈ eliminated then .ok (point.next point.values)
          else point.proceed (point.values.evaluate name first rest)
      | .instruction command operand => commandStep lines command operand point
      | _ => .ok (point.next point.values)

/-- The execution of a source, so many steps from its beginning. -/
def execution (eliminated : List String) (lines : List Line) (inputs : List String) (n : Nat) :
    Except (Stop × Values) Point :=
  after (lineStep eliminated lines) n (initialPoint lines inputs)

end DecimalMachine.Semantics
