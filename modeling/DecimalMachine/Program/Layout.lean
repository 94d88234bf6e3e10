import DecimalMachine.Program.Liveness
import DecimalMachine.Program.Table

/-!
# Layout of a program

Before any code is emitted the lines are laid out: every label is placed at the
number of words that the lines above it emit.  Branches can then refer to
labels above and below them alike.  Declarations are checked here too, so that
a name declared twice is refused even when one of its lines is not kept.
-/

namespace DecimalMachine.Program

/-- The number of words of an expression: a copy takes two, and otherwise each
operator takes three. -/
def expressionSize (rest : List (Sign × String)) : Nat :=
  if rest.isEmpty then 2 else 3 * rest.length

/-- The number of words that a line emits. -/
def Marked.size (marked : Marked) : Nat :=
  match marked.line.form with
  | .expression _ _ rest => if marked.kept then expressionSize rest else 0
  | .instruction _ _ => 1
  | _ => 0

/-- The lines laid out so far: the variables and the labels they declare, and
the number of words they emit. -/
structure Layout where
  declared : Table Unit
  labels : Table Nat
  size : Nat
  deriving Repr

namespace Layout

/-- The layout of no lines. -/
def empty : Layout := ⟨.empty, .empty, 0⟩

/-- Lay out one more line. -/
def place (layout : Layout) (marked : Marked) : Except CompileError Layout := do
  let line := marked.line
  let size := layout.size + marked.size
  match line.form with
  | .variable name _ | .expression name _ _ =>
      let declared ← layout.declared.declare .variable name () line.location line.text
      pure ⟨declared, layout.labels, size⟩
  | .label name =>
      let labels ← layout.labels.declare .label name layout.size line.location line.text
      pure ⟨layout.declared, labels, size⟩
  | _ => pure ⟨layout.declared, layout.labels, size⟩

/-- Lay out lines one after the other. -/
def placeAll (layout : Layout) (lines : List Marked) : Except CompileError Layout :=
  lines.foldlM place layout

/-- The labels that lines place before the first error, each with its index. -/
def placements (layout : Layout) : List Marked → List (String × Nat)
  | [] => []
  | marked :: below =>
      match layout.place marked with
      | .error _ => []
      | .ok next =>
          let placed := match marked.line.form with
            | .label name => [(name, layout.size)]
            | _ => []
          placed ++ placements next below

end Layout

end DecimalMachine.Program
