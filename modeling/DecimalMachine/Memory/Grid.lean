import DecimalMachine.Memory.Basic

/-!
# The memory grid

Cells are shown in rows of equal length under a heading of column numbers, each
row after the address of its first cell.  Every field is five characters wide
at least and is never cut.
-/

namespace DecimalMachine.Grid

/-- A field of the grid. -/
def field (text : String) : String :=
  .ofList (Decimal.padLeft ' ' 5 text.toList)

/-- The line above and below the grid. -/
def rule : String :=
  "\t" ++ .ofList (List.replicate 67 '-')

/-- The line of column numbers. -/
def heading (columns : Nat) : String :=
  "\t" ++ "\t".intercalate
    ((List.range columns).map fun (column : Nat) => field (Decimal.text column))

/-- The number of rows. -/
def rowCount (columns cells : Nat) : Nat :=
  (cells + columns - 1) / columns

/-- The cells of a row. -/
def rowCells (columns : Nat) (cells : List String) (row : Nat) : List String :=
  (cells.drop (row * columns)).take columns

/-- The line of a row. -/
def rowLine (columns : Nat) (cells : List String) (row : Nat) : String :=
  field (Decimal.text (row * columns : Nat)) ++ "\t" ++
    "\t".intercalate ((rowCells columns cells row).map field)

/-- The lines of the grid. -/
def lines (columns : Nat) (cells : List String) : List String :=
  rule :: heading columns ::
    ((List.range (rowCount columns cells.length)).map (rowLine columns cells) ++ [rule])

/-- A grid cannot have rows of no cells. -/
inductive ColumnError where
  | zero
  deriving DecidableEq, Repr

/-- The wording of a refused number of columns. -/
def ColumnError.message : ColumnError → String
  | .zero => "range() arg 3 must not be zero"

/-- The grid of some cells. A negative number of columns leaves the heading and
the rows empty. -/
def render (columns : Int) (cells : List String) : Except ColumnError String :=
  if columns = 0 then .error .zero
  else if columns < 0 then .ok ("\n".intercalate [rule, "\t", rule])
  else .ok ("\n".intercalate (lines columns.toNat cells))

/-- The grid of ten columns. -/
def dump (cells : List String) : String :=
  "\n".intercalate (lines 10 cells)

end DecimalMachine.Grid
