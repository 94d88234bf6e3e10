import DecimalMachine.Program.Emission
import DecimalMachine.Word.Instruction

/-!
# Relocation of variables

The variables that the code refers to follow the code in memory, one cell each,
in the order of their first reference.  A variable that no instruction refers
to has no cell.
-/

namespace DecimalMachine.Program

/-- The variables of a piece of code, in the order of first reference. -/
def slots (code : List Emitted) : List String :=
  (code.filterMap Emitted.accessed?).eraseDups

/-- The address of a variable, where the code takes so many words. -/
def address? (size : Nat) (slots : List String) (name : String) : Option Nat :=
  (slots.idxOf? name).map (size + ·)

/-- Give every variable its address. -/
def allocate (size : Nat) (slots : List String) (symbols : SymbolTable) : SymbolTable :=
  symbols.mapValues fun name entry =>
    { entry with address := (address? size slots name).map Int.ofNat }

/-- The instruction of an emitted one, where the code takes so many words. -/
def relocate (size : Nat) (slots : List String) (emitted : Emitted) : Instruction where
  opcode := emitted.opcode.code
  operand := match emitted.operand with
    | .absent => 0
    | .target index => index
    | .variable name => (size + slots.idxOf name : Nat)

/-- The initial values of the variables with a cell, in the order of the
cells. -/
def initialValues (slots : List String) (symbols : SymbolTable) : List String :=
  slots.filterMap fun name => (symbols.find? name).map (·.value.value)

end DecimalMachine.Program
