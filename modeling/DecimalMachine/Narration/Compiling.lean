import DecimalMachine.Decimal.Places
import DecimalMachine.Narration.Record
import DecimalMachine.Program.Compilation

/-!
# What compilation tells

Compilation tells of every label it places, every expression it leaves out, a
halt it adds, every variable it gives an address, and the size of the program.
A compilation that fails tells of what it did before.
-/

namespace DecimalMachine.Narration

/-- The record of a label. -/
def placed (label : String × Nat) : Record :=
  .debug ("Label @" ++ label.1 ++ " -> " ++ Decimal.twoDigits label.2)

/-- The record of an expression that is left out. -/
def leftOut (location : Location) (name : String) : Record :=
  .debug (location.render ++ ": dropped unused expression '" ++ name ++ "'")

/-- The record of a variable that has an address. -/
def relocated (name : String) (address : Nat) : Record :=
  .debug ("Relocated '" ++ name ++ "' to " ++ Decimal.twoDigits address)

/-- What relocation tells, down to the size of the program if that is within
the limit. -/
def relocation (maxWords : Int) (code : List Program.Emitted) : List Record :=
  let slots := Program.slots code
  let given := slots.mapIdx fun index name => relocated name (code.length + index)
  let sized :=
    if maxWords < (code.length + slots.length : Nat) then []
    else [.debug ("Generated " ++ Decimal.text code.length ++ " instructions and " ++
      Decimal.text slots.length ++ " data words")]
  given ++ sized

/-- What the compilation of lines tells. -/
def ofLines (options : CompileOptions) (terminated : Option Bool) (lines : List Line) :
    List Record :=
  let lines := Program.marks options.optimize lines
  let labels := (Program.Layout.empty.placements lines).map placed
  match Program.Layout.empty.placeAll lines with
  | .error _ => labels
  | .ok layout =>
      let dropped := (Program.leftOut layout.labels .empty lines).map fun entry =>
        leftOut entry.1 entry.2
      match Program.emit layout.labels .empty lines with
      | .error _ => labels ++ dropped
      | .ok (code, _) =>
          let implicitHalt := Program.needsHalt terminated lines
          let halt := if implicitHalt then [.debug "Appended implicit HALT"] else []
          labels ++ dropped ++ halt ++
            relocation options.maxWords (Program.close implicitHalt code)

/-- The record of a finished compilation, with the time it took in thousandths
of a millisecond. -/
def compiled (elapsed : Int) (compilation : Compilation) : Record :=
  .info ("Compiled " ++ compilation.file ++ ": " ++ Decimal.text compilation.instructionCount ++
    " instructions, " ++ Decimal.text compilation.variableCount ++ " variables in " ++
    Decimal.twoPlaces elapsed ++ " ms")

/-- What the compilation of a source tells. -/
def ofSource (options : CompileOptions) (elapsed : Int) (file source : String) : List Record :=
  match Source.lines file source with
  | .error _ => []
  | .ok lines =>
      let done := match Compilation.ofSource options file source with
        | .ok compilation => [compiled elapsed compilation]
        | .error _ => []
      ofLines options (some (Source.endsWithHalt source)) lines ++ done

end DecimalMachine.Narration
