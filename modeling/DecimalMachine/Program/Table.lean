import DecimalMachine.Source.Error
import DecimalMachine.Text.Similarity

/-!
# Tables of declared names

A table lists names in the order of their declaration, each with its location
and a value.  A name is declared once: the first declaration wins, and a later
one is an error that points back to it.  Looking up a name that is missing
suggests the declared names that resemble it.
-/

namespace DecimalMachine

/-- A declared name. -/
structure Entry (α : Type) where
  name : String
  location : Location
  value : α
  deriving DecidableEq, Repr

/-- Names in the order of their declaration. -/
structure Table (α : Type) where
  entries : List (Entry α)
  deriving DecidableEq, Repr

namespace Table

variable {α : Type}

/-- The table without names. -/
def empty : Table α := ⟨[]⟩

/-- The declared names, in order. -/
def names (table : Table α) : List String :=
  table.entries.map (·.name)

/-- The entry of a name. -/
def find? (table : Table α) (name : String) : Option (Entry α) :=
  table.entries.find? (·.name == name)

/-- Whether a name is declared. -/
def contains (table : Table α) (name : String) : Bool :=
  (table.find? name).isSome

/-- Add a name at the end of a table. -/
def add (table : Table α) (name : String) (location : Location) (value : α) : Table α :=
  ⟨table.entries ++ [⟨name, location, value⟩]⟩

/-- Declare a name. The error of a second declaration is at the second one and
tells where the first one is. -/
def declare (kind : SymbolKind) (table : Table α) (name : String) (value : α)
    (location : Location) (sourceLine : Option String) : Except CompileError (Table α) :=
  match table.find? name with
  | some first => .error ⟨.duplicate kind name first.location, some location, sourceLine⟩
  | none => .ok (table.add name location value)

/-- Look up a name that has to be declared. -/
def resolve (kind : SymbolKind) (table : Table α) (name : String)
    (location : Option Location) (sourceLine : Option String) :
    Except CompileError (Entry α) :=
  match table.find? name with
  | some entry => .ok entry
  | none =>
      .error ⟨.undefined kind name (Text.closeMatches 3 name table.names), location, sourceLine⟩

/-- Change the value of every name. -/
def mapValues (table : Table α) (f : String → α → α) : Table α :=
  ⟨table.entries.map fun entry => { entry with value := f entry.name entry.value }⟩

theorem find?_add (table : Table α) (name : String) (location : Location) (value : α)
    (other : String) :
    (table.add name location value).find? other =
      (table.find? other).or (if name = other then some ⟨name, location, value⟩ else none) := by
  by_cases same : name = other <;> simp [find?, add, List.find?_append, same]

theorem names_add (table : Table α) (name : String) (location : Location) (value : α) :
    (table.add name location value).names = table.names ++ [name] := by
  simp [names, add]

theorem declare_eq_ok_iff {kind : SymbolKind} {table next : Table α} {name : String} {value : α}
    {location : Location} {sourceLine : Option String} :
    table.declare kind name value location sourceLine = .ok next ↔
      table.find? name = none ∧ next = table.add name location value := by
  unfold declare
  cases table.find? name <;> simp [eq_comm]

theorem resolve_eq_ok_iff {kind : SymbolKind} {table : Table α} {name : String}
    {location : Option Location} {sourceLine : Option String} {entry : Entry α} :
    table.resolve kind name location sourceLine = .ok entry ↔ table.find? name = some entry := by
  unfold resolve
  cases table.find? name <;> simp

end Table

/-- A variable: the text of its initial value, and its address once it has
one. -/
structure Variable where
  value : String
  address : Option Int
  deriving DecidableEq, Repr

/-- The variables of a program. -/
abbrev SymbolTable := Table Variable

namespace SymbolTable

/-- Declare a variable, which has no address yet. -/
def declare (table : SymbolTable) (name value : String) (location : Location)
    (sourceLine : Option String) : Except CompileError SymbolTable :=
  Table.declare .variable table name ⟨value, none⟩ location sourceLine

/-- The variables with an address, in the order of their addresses. Variables
that share an address stay in the order of declaration. -/
def allocated (table : SymbolTable) : List (Entry Variable × Int) :=
  (table.entries.filterMap fun entry => entry.value.address.map (entry, ·)).mergeSort
    fun first second => first.2 ≤ second.2

/-- The names of the variables with an address, with these addresses. -/
def addresses (table : SymbolTable) : List (String × Int) :=
  table.allocated.map fun slot => (slot.1.name, slot.2)

/-- Give a variable an address, or take it away. -/
def setAddress (table : SymbolTable) (name : String) (address : Option Int) : SymbolTable :=
  table.mapValues fun other entry =>
    if other = name then { entry with address := address } else entry

end SymbolTable

end DecimalMachine
