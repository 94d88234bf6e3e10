import DecimalMachine.Program.Relocation

/-!
# Programs

A program is compiled in three steps: its lines are laid out, their code is
emitted, and the variables of the code get their addresses.  The words are the
instructions followed by the initial values of the variables.  A program whose
source does not end with a halt gets one at its end.
-/

namespace DecimalMachine

/-- How to compile: whether to leave out expressions that nothing needs, and
how many words a program may have. -/
structure CompileOptions where
  optimize : Bool := true
  maxWords : Int := Instruction.addressSpace
  deriving DecidableEq, Repr

/-- A size limit that is no size of an address space. -/
structure OptionsError where
  maxWords : Int
  deriving DecidableEq, Repr

/-- The wording of a refused size limit. -/
def OptionsError.message (error : OptionsError) : String :=
  "max_words must be between 1 and 100, got " ++ Decimal.text error.maxWords

/-- Accept options whose size limit is positive and within the address space. -/
def CompileOptions.check (options : CompileOptions) : Except OptionsError CompileOptions :=
  if 0 < options.maxWords ∧ options.maxWords ≤ Instruction.addressSpace then .ok options
  else .error ⟨options.maxWords⟩

/-- A compiled program. -/
structure Program where
  /-- The code, before its variables had addresses. -/
  code : List Program.Emitted
  /-- The variables in the order of declaration, with their addresses. -/
  symbols : SymbolTable
  /-- The labels in the order of definition, each with an instruction index. -/
  labels : Table Nat
  /-- The expressions left out, in the order of the source. -/
  eliminated : List String
  /-- Whether the program got a halt that its source does not have. -/
  implicitHalt : Bool
  /-- The instruction words. -/
  instructions : List String
  /-- The initial values of the variables with a cell. -/
  data : List String
  deriving DecidableEq, Repr

namespace Program

/-- The words of a program. -/
def words (program : Program) : List String :=
  program.instructions ++ program.data

/-- Put a halt at the end of a piece of code, or leave it as it is. -/
def close (implicitHalt : Bool) (code : List Emitted) : List Emitted :=
  if implicitHalt then code ++ [.halt] else code

/-- Whether a program needs a halt at its end. Unless it is told, it does when
none of its lines is a halt command. -/
def needsHalt (terminated : Option Bool) (lines : List Marked) : Bool :=
  !terminated.getD (lines.any (·.line.isHalt))

/-- Assemble a program of its parts, if it is not too large. -/
def assemble (maxWords : Int) (code : List Emitted) (symbols : SymbolTable)
    (labels : Table Nat) (eliminated : List String) (implicitHalt : Bool) :
    Except CompileError Program :=
  let slots := slots code
  if maxWords < (code.length + slots.length : Nat) then
    .error ⟨.tooLarge code.length slots.length maxWords, none, none⟩
  else
    .ok {
      code := code
      symbols := allocate code.length slots symbols
      labels := labels
      eliminated := eliminated
      implicitHalt := implicitHalt
      instructions := code.map fun emitted => (relocate code.length slots emitted).render
      data := initialValues slots symbols }

/-- Compile lines. The flag tells whether the source is terminated by a halt of
its own. -/
def ofLines (options : CompileOptions) (terminated : Option Bool) (lines : List Line) :
    Except CompileError Program := do
  let lines := marks options.optimize lines
  let layout ← Layout.empty.placeAll lines
  let (code, symbols) ← emit layout.labels .empty lines
  let implicitHalt := needsHalt terminated lines
  assemble options.maxWords (close implicitHalt code) symbols layout.labels (droppedNames lines)
    implicitHalt

end Program

end DecimalMachine
