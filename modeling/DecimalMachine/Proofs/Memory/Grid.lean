import DecimalMachine.Memory.Grid
import DecimalMachine.Proofs.Decimal.Canonical
import Mathlib.Algebra.Order.Floor.Div

/-!
# Reading the memory grid

A grid is read as it is looked at: its lines lie between line feeds, their fields
between tabs, and the spaces in front of a field only pad it.  So read, it has a
heading between two rules and then its rows, again with a rule below them.  The
cells of all rows, one row after the other, are the cells that were shown, whatever
their number and however long they are.
-/

namespace DecimalMachine.Grid

/-! ## Lines and fields -/

/-- The lines of a text. -/
def linesOf (text : String) : List (List Char) :=
  text.toList.splitOn '\n'

/-- The fields of a line, without the spaces that pad them. -/
def fieldsOf (line : List Char) : List String :=
  (line.splitOn '\t').map fun field => .ofList (field.dropWhile (· == ' '))

/-- A text that can be told from what surrounds it in a grid: there is no tab and no
line feed in it, nor does it start with a space. -/
structure IsPlain (text : String) : Prop where
  tab : '\t' ∉ text.toList
  newline : '\n' ∉ text.toList
  start : text.toList.head? ≠ some ' '

instance (text : String) : Decidable (IsPlain text) :=
  decidable_of_iff
    ('\t' ∉ text.toList ∧ '\n' ∉ text.toList ∧ text.toList.head? ≠ some ' ')
    ⟨fun ⟨tab, newline, start⟩ => ⟨tab, newline, start⟩,
      fun plain => ⟨plain.tab, plain.newline, plain.start⟩⟩

theorem isPlain_text (n : Int) : IsPlain (Decimal.text n) where
  tab := by
    rw [Decimal.toList_text]
    intro member
    simpa using Decimal.isDigit_or_eq_of_mem_chars member
  newline := by
    rw [Decimal.toList_text]
    intro member
    simpa using Decimal.isDigit_or_eq_of_mem_chars member
  start := by
    rw [Decimal.toList_text]
    intro first
    simpa using Decimal.isDigit_or_eq_of_mem_chars (List.mem_of_head? first)

theorem toList_field (text : String) :
    (field text).toList = List.replicate (5 - text.toList.length) ' ' ++ text.toList :=
  String.toList_ofList

/-- Padding adds nothing but spaces. -/
theorem notMem_field {c : Char} {text : String} (visible : c ≠ ' ') (free : c ∉ text.toList) :
    c ∉ (field text).toList := by
  rw [toList_field, List.mem_append, List.mem_replicate]
  rintro (⟨_, space⟩ | inside)
  · exact visible space
  · exact free inside

/-- A padded text is read whole. -/
theorem dropWhile_field {text : String} (plain : IsPlain text) :
    (field text).toList.dropWhile (· == ' ') = text.toList := by
  rw [toList_field, List.dropWhile_append_of_pos (by simp)]
  apply Text.dropWhile_eq_self
  intro c first
  rw [beq_eq_false_iff_ne]
  rintro rfl
  exact plain.start first

theorem fieldsOf_field {text : String} (plain : IsPlain text) :
    fieldsOf (field text).toList = [text] := by
  have alone := notMem_field (by decide) plain.tab
  rw [fieldsOf, List.splitOn_eq_singleton alone, List.map_singleton, dropWhile_field plain,
    String.ofList_toList]

/-- A tab stands between two fields. -/
theorem fieldsOf_append_tab (front rest : List Char) :
    fieldsOf (front ++ '\t' :: rest) = fieldsOf front ++ fieldsOf rest := by
  simp [fieldsOf, List.splitOn, List.splitOnP_append_cons]

/-- Fields that are joined by tabs are read one by one. -/
theorem fieldsOf_intercalate {texts : List String} (given : texts ≠ [])
    (plain : ∀ text ∈ texts, IsPlain text) :
    fieldsOf ("\t".intercalate (texts.map field)).toList = texts := by
  have free : ∀ line ∈ (texts.map field).map String.toList, '\t' ∉ line := by
    simp only [List.map_map, List.forall_mem_map, Function.comp_apply]
    exact fun text member => notMem_field (by decide) (plain text member).tab
  have joined : fieldsOf ("\t".intercalate (texts.map field)).toList =
      ((texts.map field).map String.toList).map fun line =>
        .ofList (line.dropWhile (· == ' ')) := by
    rw [fieldsOf, String.toList_intercalate]
    exact congrArg _ (List.splitOn_intercalate '\t' free (by simpa using given))
  rw [joined, List.map_map, List.map_map]
  refine (List.map_congr_left fun text member => ?_).trans (List.map_id texts)
  simp only [Function.comp_apply, dropWhile_field (plain text member), String.ofList_toList, id_eq]

/-- Texts without line feeds that are joined by them are the lines again. -/
theorem linesOf_intercalate {texts : List String} (given : texts ≠ [])
    (free : ∀ text ∈ texts, '\n' ∉ text.toList) :
    linesOf ("\n".intercalate texts) = texts.map String.toList := by
  rw [linesOf, String.toList_intercalate]
  refine List.splitOn_intercalate '\n' ?_ (by simpa using given)
  intro line member
  rcases List.mem_map.mp member with ⟨text, here, rfl⟩
  exact free text here

/-! ## The lines of a grid -/

section Lines

variable {columns row : Nat} {cells : List String}

theorem newline_notMem_rule : '\n' ∉ rule.toList := by
  simp [rule]

/-- No line feed comes between fields. -/
theorem newline_notMem_intercalate {texts : List String} (plain : ∀ text ∈ texts, IsPlain text) :
    '\n' ∉ ("\t".intercalate (texts.map field)).toList := by
  rw [String.toList_intercalate]
  induction texts with
  | nil => simp
  | cons first texts ih =>
      have here := notMem_field (by decide) (plain first List.mem_cons_self).newline
      have below := ih fun text member => plain text (List.mem_cons_of_mem first member)
      cases texts with
      | nil => simpa using here
      | cons second rest =>
          simp only [List.map_cons, List.intercalate_cons_cons, List.mem_append] at below ⊢
          rintro ((inside | tab) | later)
          · exact here inside
          · simp at tab
          · exact below later

theorem newline_notMem_heading (columns : Nat) : '\n' ∉ (heading columns).toList := by
  have plain : ∀ text ∈ (List.range columns).map fun (column : Nat) => Decimal.text column,
      IsPlain text := by
    simp [isPlain_text]
  have numbers := newline_notMem_intercalate plain
  rw [List.map_map] at numbers
  rw [heading, String.toList_append, List.mem_append]
  rintro (tab | inside)
  · simp at tab
  · exact numbers inside

theorem isPlain_of_mem_rowCells (plain : ∀ cell ∈ cells, IsPlain cell) :
    ∀ cell ∈ rowCells columns cells row, IsPlain cell :=
  fun cell member => plain cell (List.mem_of_mem_drop (List.mem_of_mem_take member))

theorem newline_notMem_rowLine (plain : ∀ cell ∈ cells, IsPlain cell) :
    '\n' ∉ (rowLine columns cells row).toList := by
  rw [rowLine, String.toList_append, String.toList_append, List.mem_append, List.mem_append]
  rintro ((address | tab) | inside)
  · exact notMem_field (by decide) (isPlain_text _).newline address
  · simp at tab
  · exact newline_notMem_intercalate (isPlain_of_mem_rowCells plain) inside

theorem fieldsOf_heading (positive : 0 < columns) :
    fieldsOf (heading columns).toList =
      "" :: (List.range columns).map fun (column : Nat) => Decimal.text column := by
  have given : ((List.range columns).map fun (column : Nat) => Decimal.text column) ≠ [] := by
    simpa using Nat.ne_of_gt positive
  have numbers := fieldsOf_intercalate given (by simp [isPlain_text])
  rw [List.map_map] at numbers
  rw [heading, String.toList_append]
  refine (fieldsOf_append_tab [] _).trans ?_
  rw [← numbers]
  rfl

end Lines

/-! ## The rows of a grid -/

section Rows

variable {columns row : Nat} {cells : List String} {line : List Char}

/-- There is a row for every cell that begins one. -/
theorem lt_rowCount_iff (positive : 0 < columns) {count : Nat} :
    row < rowCount columns count ↔ row * columns < count := by
  rw [← not_le, ← not_le, Nat.mul_comm]
  exact not_congr (ceilDiv_le_iff_le_mul positive)

theorem length_rowCells (columns : Nat) (cells : List String) (row : Nat) :
    (rowCells columns cells row).length = min columns (cells.length - row * columns) := by
  rw [rowCells, List.length_take, List.length_drop]

/-- The first rows hold the first cells. -/
theorem flatMap_rowCells (columns : Nat) (cells : List String) (count : Nat) :
    (List.range count).flatMap (rowCells columns cells) = cells.take (count * columns) := by
  induction count with
  | zero => simp
  | succ count ih =>
      rw [List.range_succ, List.flatMap_append, ih, Nat.succ_mul, List.take_add]
      simp [rowCells]

/-- All rows together hold all cells. -/
theorem flatMap_rowCells_rowCount (positive : 0 < columns) :
    (List.range (rowCount columns cells.length)).flatMap (rowCells columns cells) = cells := by
  have enough : cells.length ≤ rowCount columns cells.length * columns := by
    rw [← Nat.not_lt, ← lt_rowCount_iff positive]
    exact Nat.lt_irrefl _
  rw [flatMap_rowCells, List.take_of_length_le enough]

/-- A row shows its cells behind the address of the first one. -/
theorem fieldsOf_rowLine (positive : 0 < columns) (plain : ∀ cell ∈ cells, IsPlain cell)
    (shown : row < rowCount columns cells.length) :
    fieldsOf (rowLine columns cells row).toList =
      Decimal.text (row * columns : Nat) :: rowCells columns cells row := by
  have given : rowCells columns cells row ≠ [] := by
    apply List.ne_nil_of_length_pos
    rw [length_rowCells]
    have left := (lt_rowCount_iff positive).mp shown
    omega
  rw [rowLine, String.toList_append, String.toList_append, List.append_assoc]
  refine (fieldsOf_append_tab _ _).trans ?_
  rw [fieldsOf_field (isPlain_text _)]
  exact congrArg _ (fieldsOf_intercalate given (isPlain_of_mem_rowCells plain))

/-- The lines of the rows. -/
def rows (columns : Nat) (cells : List String) : List (List Char) :=
  (List.range (rowCount columns cells.length)).map fun row => (rowLine columns cells row).toList

theorem length_rows (columns : Nat) (cells : List String) :
    (rows columns cells).length = rowCount columns cells.length := by
  rw [rows, List.length_map, List.length_range]

theorem fieldsOf_of_getElem?_rows (positive : 0 < columns)
    (plain : ∀ cell ∈ cells, IsPlain cell) (here : (rows columns cells)[row]? = some line) :
    fieldsOf line = Decimal.text (row * columns : Nat) :: rowCells columns cells row := by
  have shown := (List.getElem?_eq_some_iff.mp here).1
  rw [length_rows] at shown
  rw [rows, List.getElem?_map, List.getElem?_range shown, Option.map_some,
    Option.some.injEq] at here
  rw [← here, fieldsOf_rowLine positive plain shown]

/-- The lines of a grid are read as they are. -/
theorem linesOf_lines (plain : ∀ cell ∈ cells, IsPlain cell) :
    linesOf ("\n".intercalate (lines columns cells)) =
      rule.toList :: (heading columns).toList :: rows columns cells ++ [rule.toList] := by
  rw [linesOf_intercalate]
  · simp [lines, rows, Function.comp_def]
  · exact List.cons_ne_nil _ _
  · intro text member
    simp only [lines, List.mem_cons, List.mem_append, List.mem_map] at member
    rcases member with rfl | rfl | ⟨row, _, rfl⟩ | rfl | ⟨⟨⟩⟩
    · exact newline_notMem_rule
    · exact newline_notMem_heading columns
    · exact newline_notMem_rowLine plain
    · exact newline_notMem_rule

end Rows

/-! ## Nothing is lost -/

/-- A text shows cells in so many columns, the last row with those that are left. -/
structure Shows (columns : Nat) (cells : List String) (text : String) (heading : List Char)
    (rows : List (List Char)) : Prop where
  /-- The same rule stands above the heading and below the rows. -/
  lines : linesOf text = ('\t' :: List.replicate 67 '-') :: heading :: rows ++
    ['\t' :: List.replicate 67 '-']
  /-- The heading numbers the columns, with nothing above the addresses. -/
  heading : fieldsOf heading =
    "" :: (List.range columns).map fun (column : Nat) => Decimal.text column
  /-- There are as many rows as the cells take. -/
  count : rows.length = cells.length ⌈/⌉ columns
  /-- A row starts with the address of its first cell. -/
  address : ∀ (row : Nat) line, rows[row]? = some line →
    (fieldsOf line).head? = some (Decimal.text (row * columns : Nat))
  /-- All rows but the last one are full. -/
  full : ∀ (row : Nat) line, rows[row]? = some line → row + 1 < rows.length →
    (fieldsOf line).tail.length = columns
  /-- The cells of the rows are the cells. -/
  cells : rows.flatMap (fun line => (fieldsOf line).tail) = cells

theorem shows_lines {columns : Nat} {cells : List String} (positive : 0 < columns)
    (plain : ∀ cell ∈ cells, IsPlain cell) :
    Shows columns cells ("\n".intercalate (lines columns cells)) (heading columns).toList
      (rows columns cells) where
  lines := by
    rw [linesOf_lines plain]
    simp [rule]
  heading := fieldsOf_heading positive
  count := length_rows columns cells
  address := by
    intro row line here
    rw [fieldsOf_of_getElem?_rows positive plain here, List.head?_cons]
  full := by
    intro row line here more
    rw [fieldsOf_of_getElem?_rows positive plain here, List.tail_cons, length_rowCells]
    rw [length_rows, lt_rowCount_iff positive, Nat.succ_mul] at more
    omega
  cells := by
    have fields : ∀ row ∈ List.range (rowCount columns cells.length),
        (fieldsOf (rowLine columns cells row).toList).tail = rowCells columns cells row := by
      intro row member
      rw [fieldsOf_rowLine positive plain (List.mem_range.mp member), List.tail_cons]
    rw [rows, List.flatMap_map, List.flatMap_congr fields]
    exact flatMap_rowCells_rowCount positive

/-- The grid of cells that can be told apart is read back, in so many columns as are
asked for, and in ten unless it is told. -/
theorem render_shows_cells {columns : Nat} {cells : List String} (positive : 0 < columns)
    (plain : ∀ cell ∈ cells, IsPlain cell) :
    ∃ text heading rows, render columns cells = .ok text ∧ Shows columns cells text heading rows ∧
      (columns = 10 → dump cells = text) := by
  refine ⟨_, _, _, ?_, shows_lines positive plain, ?_⟩
  · rw [render, if_neg (by omega), if_neg (by omega), Int.toNat_natCast]
  · rintro rfl
    rfl

/-- Seven cells in three columns, of which one is empty, one is wider than a field and
two are negative. -/
theorem render_shows_cells_seven :
    0 < 3 ∧ (∀ cell ∈ ["2005", "", "-123456789", "4300 ", "0", "-7", "x"], IsPlain cell) ∧
    ∃ text heading rows,
      render 3 ["2005", "", "-123456789", "4300 ", "0", "-7", "x"] = .ok text ∧
      Shows 3 ["2005", "", "-123456789", "4300 ", "0", "-7", "x"] text heading rows := by
  have plain : ∀ cell ∈ ["2005", "", "-123456789", "4300 ", "0", "-7", "x"], IsPlain cell := by
    decide
  obtain ⟨text, heading, rows, rendered, shows, _⟩ := render_shows_cells (by decide : 0 < 3) plain
  exact ⟨by decide, plain, text, heading, rows, rendered, shows⟩

end DecimalMachine.Grid
