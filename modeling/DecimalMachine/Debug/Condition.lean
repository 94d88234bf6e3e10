import DecimalMachine.Decimal.Numeral
import DecimalMachine.Processor.Registers

/-!
# Register conditions

A condition compares a register with a number.  The accumulator is read as a
numeral, more freely than the processor reads it, and a text that is no numeral
meets no condition.
-/

namespace DecimalMachine

/-- The registers that conditions can examine. -/
inductive RegisterName where
  | accumulator
  | operand
  | pc
  deriving DecidableEq, Repr

namespace RegisterName

/-- Every register, in the order of the names. -/
def all : List RegisterName :=
  [.accumulator, .operand, .pc]

/-- The name of a register. -/
def text : RegisterName → String
  | .accumulator => "accumulator"
  | .operand => "operand"
  | .pc => "pc"

/-- The register with a name, in capitals or small letters of ASCII. No other
letter has one of a register name for its small letter. -/
def ofText? (name : String) : Option RegisterName :=
  all.find? fun register => register.text.toList == name.toList.map Char.toLower

/-- The number in a register, if there is one. -/
def value? (register : RegisterName) (readout : Readout) : Option Int :=
  match register with
  | .accumulator => Decimal.numeral? readout.accumulator
  | .operand => some readout.operand
  | .pc => some readout.pc

end RegisterName

/-- The comparisons of conditions. -/
inductive Comparison where
  | ne
  | lt
  | le
  | eq
  | gt
  | ge
  deriving DecidableEq, Repr

namespace Comparison

/-- Every comparison, in the order of the operators' texts. -/
def all : List Comparison :=
  [.ne, .lt, .le, .eq, .gt, .ge]

/-- The operator of a comparison. -/
def text : Comparison → String
  | .ne => "!="
  | .lt => "<"
  | .le => "<="
  | .eq => "=="
  | .gt => ">"
  | .ge => ">="

/-- The comparison with an operator. -/
def ofText? (operator : String) : Option Comparison :=
  all.find? fun comparison => comparison.text == operator

/-- Whether two numbers compare so. -/
def holds : Comparison → Int → Int → Bool
  | .ne, a, b => a ≠ b
  | .lt, a, b => a < b
  | .le, a, b => a ≤ b
  | .eq, a, b => a = b
  | .gt, a, b => a > b
  | .ge, a, b => a ≥ b

end Comparison

/-- Why a condition cannot be made. -/
inductive ConditionError where
  | unknownRegister (name : String)
  | unknownOperator (operator : String)
  deriving DecidableEq, Repr

/-- The wording of a refused condition. -/
def ConditionError.message : ConditionError → String
  | .unknownRegister name =>
      "Unknown register '" ++ name ++ "'. Valid registers: " ++
        ", ".intercalate (RegisterName.all.map RegisterName.text)
  | .unknownOperator operator =>
      "Unknown operator '" ++ operator ++ "'. Valid operators: " ++
        ", ".intercalate (Comparison.all.map Comparison.text)

/-- A condition on a register. -/
structure Condition where
  register : RegisterName
  comparison : Comparison
  value : Int
  description : String
  deriving DecidableEq, Repr

namespace Condition

/-- Make a condition of its parts as they are written. Without a description it
is described by these parts. -/
def ofParts (register operator : String) (value : Int) (description : String) :
    Except ConditionError Condition :=
  match RegisterName.ofText? register, Comparison.ofText? operator with
  | none, _ => .error (.unknownRegister register)
  | some _, none => .error (.unknownOperator operator)
  | some name, some comparison =>
      let parts := register ++ " " ++ operator ++ " " ++ Decimal.text value
      .ok ⟨name, comparison, value, if description.isEmpty then parts else description⟩

/-- Whether registers meet a condition. -/
def holds (condition : Condition) (readout : Readout) : Bool :=
  match condition.register.value? readout with
  | some actual => condition.comparison.holds actual condition.value
  | none => false

/-- A condition as listings show it. -/
def render (condition : Condition) : String :=
  "RegisterCondition('" ++ condition.register.text ++ "', '" ++ condition.comparison.text ++
    "', " ++ Decimal.text condition.value ++ ")"

end Condition

end DecimalMachine
