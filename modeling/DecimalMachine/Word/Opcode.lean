/-!
# Operation codes

The machine has ten operations.  Each has a two-digit code, which stands at the
front of an instruction word, and a mnemonic, by which source lines name it.
-/

namespace DecimalMachine

/-- The operations of the machine. -/
inductive Opcode where
  | read
  | write
  | load
  | store
  | add
  | subtract
  | branch
  | branchNeg
  | branchZero
  | halt
  deriving DecidableEq, Repr

namespace Opcode

/-- Every operation, in the order of the codes. -/
def all : List Opcode :=
  [.read, .write, .load, .store, .add, .subtract, .branch, .branchNeg, .branchZero, .halt]

/-- The code of an operation. -/
def code : Opcode → Nat
  | .read => 10
  | .write => 11
  | .load => 20
  | .store => 21
  | .add => 30
  | .subtract => 31
  | .branch => 40
  | .branchNeg => 41
  | .branchZero => 42
  | .halt => 43

/-- The mnemonic of an operation. -/
def mnemonic : Opcode → String
  | .read => "READ"
  | .write => "WRITE"
  | .load => "LOAD"
  | .store => "STORE"
  | .add => "ADD"
  | .subtract => "SUBTRACT"
  | .branch => "BRANCH"
  | .branchNeg => "BRANCHNEG"
  | .branchZero => "BRANCHZERO"
  | .halt => "HALT"

/-- The operation with a given code. -/
def ofCode? (code : Int) : Option Opcode :=
  all.find? fun opcode => (opcode.code : Int) == code

/-- The operation with a given mnemonic, in capitals as it is. -/
def ofMnemonic? (text : String) : Option Opcode :=
  all.find? fun opcode => opcode.mnemonic == text

/-- Whether an operation transfers control to a label. -/
def isBranch : Opcode → Bool
  | .branch | .branchNeg | .branchZero => true
  | _ => false

@[simp]
theorem ofCode?_code (opcode : Opcode) : ofCode? opcode.code = some opcode := by
  cases opcode <;> rfl

theorem ofCode?_eq_some_iff {code : Int} {opcode : Opcode} :
    ofCode? code = some opcode ↔ code = opcode.code := by
  constructor
  · intro found
    have agrees := List.find?_some (show all.find? _ = some opcode from found)
    exact (eq_of_beq agrees).symm
  · rintro rfl
    exact ofCode?_code opcode

end Opcode

end DecimalMachine
