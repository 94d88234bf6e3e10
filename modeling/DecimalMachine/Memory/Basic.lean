import DecimalMachine.Decimal.Basic
import DecimalMachine.Text.Blank

/-!
# Memory

Memory is a fixed number of cells that hold text.  Code and data are not told
apart, so a program can read and overwrite its own instructions.  A cell that
was never written holds the empty word.
-/

namespace DecimalMachine

/-- The cells of a machine. -/
structure Memory where
  cells : Array String
  deriving DecidableEq, Repr

/-- An access outside the memory. -/
structure AddressError where
  address : Int
  size : Int
  deriving DecidableEq, Repr

/-- The wording of an access outside the memory. -/
def AddressError.message (error : AddressError) : String :=
  "address " ++ Decimal.text error.address ++ " out of range (memory size " ++
    Decimal.text error.size ++ ")"

/-- Why there is no memory of some size. -/
inductive SizeError where
  /-- A memory has at least one cell. -/
  | notPositive (size : Int)
  /-- The cells cannot be numbered. -/
  | tooLarge
  /-- The cells cannot be provided. -/
  | exhausted
  deriving DecidableEq, Repr

/-- The wording of a refused size. -/
def SizeError.message : SizeError → String
  | .notPositive size => "memory size must be positive, got " ++ Decimal.text size
  | .tooLarge => "cannot fit 'int' into an index-sized integer"
  | .exhausted => ""

/-- Why words cannot be loaded. -/
inductive LoadError where
  /-- There are more words than cells. -/
  | tooManyWords (words cells : Nat)
  /-- A word is blank. -/
  | emptyWord (address : Nat)
  deriving DecidableEq, Repr

/-- The wording of a refused load. -/
def LoadError.message : LoadError → String
  | .tooManyWords words cells =>
      "program has " ++ Decimal.text words ++ " words but memory holds only " ++
        Decimal.text cells
  | .emptyWord address => "empty word at address " ++ Decimal.twoDigits address

namespace Memory

/-- The content of a cell that was never written. -/
def emptyWord : String := "0000"

/-- The number of cells that two-digit operands can address. -/
def defaultSize : Nat := 100

/-- The number of cells that a computer can number. -/
def numberable : Nat := 1 <<< 63

/-- The number of cells that a computer can provide. -/
def providable : Nat := 1 <<< 32

/-- The number of cells. -/
def size (memory : Memory) : Nat :=
  memory.cells.size

/-- A memory of empty words. -/
def ofSize (size : Nat) : Memory :=
  ⟨Array.replicate size emptyWord⟩

/-- A memory of a given size. Sizes that no computer can number or provide are
refused, like those that are not positive. -/
def create (size : Int) : Except SizeError Memory :=
  if size ≤ 0 then .error (.notPositive size)
  else if numberable ≤ size then .error .tooLarge
  else if providable ≤ size then .error .exhausted
  else .ok (ofSize size.toNat)

/-- Whether an address is one of a cell. -/
def isValid (memory : Memory) (address : Int) : Bool :=
  0 ≤ address && address < memory.size

/-- The content of a cell. -/
def read (memory : Memory) (address : Int) : Except AddressError String :=
  if memory.isValid address then .ok (memory.cells.getD address.toNat emptyWord)
  else .error ⟨address, memory.size⟩

/-- Replace the content of a cell. -/
def write (memory : Memory) (address : Int) (value : String) : Except AddressError Memory :=
  if memory.isValid address then .ok ⟨memory.cells.setIfInBounds address.toNat value⟩
  else .error ⟨address, memory.size⟩

/-- Empty all cells. -/
def clear (memory : Memory) : Memory :=
  ofSize memory.size

/-- The address of the first blank word. -/
def blankWord? (words : List String) : Option Nat :=
  words.findIdx? (·.isEmpty)

/-- Put words, without the blanks around them, into the first cells and empty
all others. -/
def load (memory : Memory) (words : List String) : Except LoadError Memory :=
  let words := words.map Text.trim
  if memory.size < words.length then .error (.tooManyWords words.length memory.size)
  else
    match blankWord? words with
    | some address => .error (.emptyWord address)
    | none =>
        .ok ⟨words.toArray ++ Array.replicate (memory.size - words.length) emptyWord⟩

@[simp]
theorem size_ofSize (size : Nat) : (ofSize size).size = size := by
  simp [ofSize, Memory.size]

@[simp]
theorem size_clear (memory : Memory) : memory.clear.size = memory.size := by
  simp [clear]

theorem size_of_write {memory next : Memory} {address : Int} {value : String}
    (written : memory.write address value = .ok next) : next.size = memory.size := by
  unfold write at written
  split at written
  · cases written
    simp [size]
  · cases written

theorem size_of_load {memory next : Memory} {words : List String}
    (loaded : memory.load words = .ok next) : next.size = memory.size := by
  unfold load at loaded
  simp only [List.length_map] at loaded
  split at loaded
  · cases loaded
  · split at loaded
    · cases loaded
    · cases loaded
      simp only [size, Array.size_append, List.size_toArray, List.length_map,
        Array.size_replicate] at *
      omega

end Memory

end DecimalMachine
