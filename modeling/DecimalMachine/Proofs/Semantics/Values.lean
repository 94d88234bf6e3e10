import DecimalMachine.Proofs.Decimal.Canonical
import DecimalMachine.Source.Form
import Mathlib.Logic.Function.Basic

/-!
# Values of a running program

A running program has an integer in every variable and in the accumulator,
inputs that it has not consumed, and the outputs that it has produced.  The
operations on variables are the same whether the program is read as source
lines or as emitted code.

Integers are unbounded, but a number that is too long to be converted to text,
or from the text of an input, ends the program.
-/

namespace DecimalMachine.Semantics

/-- Why a program ends. -/
inductive Stop where
  /-- It executed a halt or passed its last line. -/
  | halted
  /-- It reads and there is no input left. -/
  | noInput
  /-- It reads an input that is no integer. -/
  | notInteger (text : String)
  /-- A number is too long. -/
  | tooLong (error : Decimal.LimitError)
  /-- What it should do next has no meaning. -/
  | meaningless
  deriving DecidableEq, Repr

/-- What a running program works on. -/
structure Values where
  contents : String → Int
  accumulator : Int
  inputs : List String
  outputs : List Int

/-- A place in a program, in lines or in instructions, with the values there. -/
structure Point where
  position : Nat
  values : Values

namespace Values

/-- The integer that an input denotes. -/
def integer (input : String) : Except Stop Int :=
  let text := Text.trim input
  if Decimal.isLiteral text then (Decimal.read text).mapError .tooLong
  else .error (.notInteger text)

/-- Give a variable a value. -/
def put (values : Values) (name : String) (value : Int) : Values :=
  { values with contents := Function.update values.contents name value }

/-- Give a variable a value and leave it in the accumulator. -/
def assign (values : Values) (name : String) (value : Int) : Values :=
  { values with
    contents := Function.update values.contents name value
    accumulator := value }

/-- Put the next input into a variable. -/
def read (values : Values) (name : String) : Except (Stop × Values) Values :=
  match values.inputs with
  | [] => .error (.noInput, values)
  | input :: rest =>
      let consumed := { values with inputs := rest }
      match integer input with
      | .ok value => .ok (consumed.put name value)
      | .error stop => .error (stop, consumed)

/-- Add a variable to the accumulator or subtract it. -/
def combine (values : Values) (sign : Sign) (name : String) : Except (Stop × Values) Values :=
  let result := sign.apply values.accumulator (values.contents name)
  if Decimal.Writable result then .ok { values with accumulator := result }
  else .error (.tooLong .result, values)

/-- Execute an operation on a variable. -/
def perform (values : Values) (name : String) : Opcode → Except (Stop × Values) Values
  | .read => values.read name
  | .write => .ok { values with outputs := values.outputs ++ [values.contents name] }
  | .load => .ok { values with accumulator := values.contents name }
  | .store => .ok (values.put name values.accumulator)
  | .add => values.combine .plus name
  | .subtract => values.combine .minus name
  | .branch | .branchNeg | .branchZero | .halt => .error (.meaningless, values)

/-- Whether a branch is taken. -/
def branches (values : Values) : Opcode → Bool
  | .branch => true
  | .branchNeg => values.accumulator < 0
  | .branchZero => values.accumulator = 0
  | _ => false

/-- The value of a chain of operators, from left to right. -/
def fold (contents : String → Int) : Int → List (Sign × String) → Except Decimal.LimitError Int
  | total, [] => .ok total
  | total, (sign, term) :: rest =>
      let result := sign.apply total (contents term)
      if Decimal.Writable result then fold contents result rest else .error .result

/-- Give a variable the value of an expression, if it is not too long. -/
def conclude (values : Values) (name : String) :
    Except Decimal.LimitError Int → Except (Stop × Values) Values
  | .ok value => .ok (values.assign name value)
  | .error error => .error (.tooLong error, values)

/-- Evaluate an expression from left to right, give its value to a variable and
leave it in the accumulator. -/
def evaluate (values : Values) (name first : String) (rest : List (Sign × String)) :
    Except (Stop × Values) Values :=
  values.conclude name (fold values.contents (values.contents first) rest)

@[simp]
theorem assign_assign (values : Values) (name : String) (first second : Int) :
    (values.assign name first).assign name second = values.assign name second := by
  simp [assign]

theorem contents_assign_of_ne {values : Values} {name other : String} (value : Int)
    (different : other ≠ name) : (values.assign name value).contents other =
      values.contents other := by
  simp [assign, different]

@[simp]
theorem contents_assign_self (values : Values) (name : String) (value : Int) :
    (values.assign name value).contents name = value := by
  simp [assign]

theorem fold_congr {first second : String → Int} {rest : List (Sign × String)}
    (agree : ∀ term ∈ rest, first term.2 = second term.2) (total : Int) :
    fold first total rest = fold second total rest := by
  induction rest generalizing total with
  | nil => rfl
  | cons term rest ih =>
      simp only [fold]
      rw [agree term List.mem_cons_self]
      split
      · exact ih (fun other member => agree other (List.mem_cons_of_mem _ member)) _
      · rfl

end Values

namespace Point

/-- Go on at the next place. -/
def next (point : Point) (values : Values) : Point :=
  ⟨point.position + 1, values⟩

/-- Go on at the next place with the outcome of an operation. -/
def proceed (point : Point) (outcome : Except (Stop × Values) Values) :
    Except (Stop × Values) Point :=
  outcome.map point.next

end Point

end DecimalMachine.Semantics
