import DecimalMachine.Source.Line

/-!
# Liveness of expressions

An expression is needed when an instruction below it refers to the variable it
declares, or a needed expression below it does.  Whether a line is kept is
therefore known once all the lines below it are, and the lines are walked from
the last to the first.  Lines other than expressions are always kept.
-/

namespace DecimalMachine.Program

/-- A line together with the decision to keep it. -/
structure Marked where
  line : Line
  kept : Bool
  deriving DecidableEq, Repr

/-- Decide which lines to keep, given that all expressions are kept unless the
program is optimized. The second component lists the names that the kept lines
refer to. -/
def mark (optimize : Bool) : List Line → List Marked × List String
  | [] => ([], [])
  | line :: below =>
      let (marked, needed) := mark optimize below
      match line.form with
      | .expression name _ _ =>
          if optimize && !needed.contains name then (⟨line, false⟩ :: marked, needed)
          else (⟨line, true⟩ :: marked, line.form.references ++ needed)
      | form => (⟨line, true⟩ :: marked, form.references ++ needed)

/-- The lines up to the first halt command, and the halt command itself. -/
def upToHalt : List Marked → List Marked
  | [] => []
  | marked :: below => if marked.line.isHalt then [marked] else marked :: upToHalt below

/-- The lines of a program: those up to the first halt command, each with the
decision to keep it. -/
def marks (optimize : Bool) (lines : List Line) : List Marked :=
  upToHalt (mark optimize lines).1

/-- The names of the expressions that are not kept, in order. -/
def droppedNames (lines : List Marked) : List String :=
  lines.filterMap fun marked => if marked.kept then none else marked.line.form.declares?

end DecimalMachine.Program
