import DecimalMachine.Memory.Basic
import DecimalMachine.Proofs.Text.Tokens

/-!
# Cells as a list

Reading and writing a memory are looking up and replacing an element of the
list of its cells.  Words are loaded into the first of them, and empty the others.
-/

namespace DecimalMachine.Memory

variable {memory : Memory} {address : Nat} {text : String}

theorem size_eq_length (memory : Memory) : memory.size = memory.cells.toList.length :=
  Array.length_toList.symm

theorem isValid_iff : memory.isValid address = true ↔ address < memory.size := by
  simp [isValid]

/-- A cell of the list is read. -/
theorem read_of_getElem? (cell : memory.cells.toList[address]? = some text) :
    memory.read address = .ok text := by
  have inside : address < memory.size := by
    rw [size_eq_length]
    exact (List.getElem?_eq_some_iff.mp cell).1
  rw [Array.getElem?_toList] at cell
  simp [read, isValid_iff.mpr inside, Array.getD_eq_getD_getElem?, cell]

/-- A written cell is replaced in the list. -/
theorem write_of_lt (inside : address < memory.size) (value : String) :
    memory.write address value = .ok ⟨memory.cells.setIfInBounds address value⟩ := by
  simp [write, isValid_iff.mpr inside]

/-- A written cell is read as it was written. -/
theorem read_setIfInBounds (inside : address < memory.size) (value : String) :
    (Memory.mk (memory.cells.setIfInBounds address value)).read address = .ok value := by
  have room : address < memory.cells.size := inside
  simp [read, isValid, size, room]

/-! ## Loading -/

section Loading

variable {next other : Memory} {words : List String}

theorem blankWord?_eq_none_iff :
    blankWord? (words.map Text.trim) = none ↔ ∀ word ∈ words, Text.trim word ≠ "" := by
  simp [blankWord?, List.findIdx?_eq_none_iff]

/-- Words that fit and are not blank are loaded in front of empty words. -/
theorem load_eq_ok_iff : memory.load words = .ok next ↔
    words.length ≤ memory.size ∧ (∀ word ∈ words, Text.trim word ≠ "") ∧
      next = ⟨(words.map Text.trim).toArray ++
        Array.replicate (memory.size - words.length) emptyWord⟩ := by
  rw [← blankWord?_eq_none_iff]
  simp only [load, List.length_map]
  by_cases fits : words.length ≤ memory.size
  · rw [if_neg (Nat.not_lt_of_le fits)]
    cases blankWord? (words.map Text.trim) <;> simp [fits, eq_comm]
  · simp [fits, Nat.lt_of_not_le fits]

theorem load_eq_ok (trimmed : ∀ word ∈ words, Text.trim word = word)
    (nonempty : ∀ word ∈ words, word ≠ "") (fits : words.length ≤ memory.size) :
    memory.load words =
      .ok ⟨words.toArray ++ Array.replicate (memory.size - words.length) emptyWord⟩ := by
  refine load_eq_ok_iff.mpr ⟨fits, ?_, ?_⟩
  · intro word member
    rw [trimmed word member]
    exact nonempty word member
  · rw [List.map_congr_left trimmed, List.map_id']

/-- Words are refused if they are too many, or one of them is blank. -/
theorem load_eq_error_iff : (∃ error, memory.load words = .error error) ↔
    memory.size < words.length ∨ ∃ word ∈ words, Text.trim word = "" := by
  have refused : (∃ error, memory.load words = .error error) ↔
      ¬ ∃ next, memory.load words = .ok next := by
    cases memory.load words <;> simp
  simp only [refused, load_eq_ok_iff, exists_and_left, exists_eq, and_true, ne_eq,
    Classical.not_and_iff_not_or_not, Nat.not_le, Classical.not_forall, Classical.not_not,
    exists_prop]

/-- A loaded cell holds the word at its address, or is empty. -/
theorem read_of_load (loaded : memory.load words = .ok next) (inside : address < memory.size) :
    next.read address = .ok ((words[address]?.map Text.trim).getD "0000") := by
  obtain ⟨_, _, rfl⟩ := load_eq_ok_iff.mp loaded
  apply read_of_getElem?
  rw [Array.toList_append, Array.toList_replicate, List.getElem?_append, List.length_map,
    List.getElem?_map]
  by_cases word : address < words.length
  · simp [word]
  · have beyond : address - words.length < memory.size - words.length := by omega
    simp [word, beyond, emptyWord]

/-- Blanks around words do not matter. -/
theorem load_map_trim (memory : Memory) (words : List String) :
    memory.load (words.map Text.trim) = memory.load words := by
  have trimmed : (words.map Text.trim).map Text.trim = words.map Text.trim := by
    rw [List.map_map]
    exact List.map_congr_left fun word _ => Text.trim_trim word
  rw [load, load, trimmed]

/-- What is loaded depends on the number of cells, not on what they hold. -/
theorem load_eq_of_size_eq (same : memory.size = other.size) (words : List String) :
    memory.load words = other.load words := by
  unfold load
  rw [same]

end Loading

end DecimalMachine.Memory
