import DecimalMachine.Proofs.Files.Programs
import DecimalMachine.Proofs.Machine.Loading

/-!
# Program files that are loaded

A program file is another form of the list of its words: loading the file that
words were written to does what loading the words does, whatever they are, as
long as each of them is one word on a line.
-/

namespace DecimalMachine

namespace Machine

variable {directory : Directory} {path : Path} {place : Place} {words : List String}

/-- Loading a file does to a machine what loading words does: they are all loaded
if the machine has cells for them, and otherwise nothing is changed. -/
structure LoadsAs (directory : Directory) (path : Path) (words : List String)
    (machine : Machine) : Prop where
  same : (loadInPlace (.file directory path)).run machine =
    (loadInPlace (.words words)).run machine
  fits : words.length ≤ machine.processor.memory.size →
    ∃ next, (loadInPlace (.words words)).run machine = .ok words.length next ∧
      machine.processor.load words = .ok next.processor ∧
      next.breakpoints = machine.breakpoints
  overflows : machine.processor.memory.size < words.length →
    (loadInPlace (.words words)).run machine =
      .error (.load (.tooManyWords words.length machine.processor.memory.size)) machine

/-- A file is loaded as words if these are read from it, but for blanks around
them. -/
theorem load_file_eq_load_words (reads : Files.readWords directory path =
      .ok (words.map Text.trim)) (machine : Machine) :
    machine.load (.file directory path) = machine.load (.words words) := by
  have loads : machine.processor.load (words.map Text.trim) = machine.processor.load words := by
    rw [Processor.load, Processor.load, Memory.load_map_trim]
  simp only [load_eq, LoadRequest.program, reads, loads, List.length_map]

theorem loadsAs_of_readWords (reads : Files.readWords directory path = .ok (words.map Text.trim))
    (given : ∀ word ∈ words, Text.trim word ≠ "") (machine : Machine) :
    LoadsAs directory path words machine where
  same := by
    rw [loadInPlace_eq, loadInPlace_eq]
    simp only [EStateM.run, wholly, load_file_eq_load_words reads]
  fits := by
    intro room
    have loaded : ∃ memory, machine.processor.memory.load words = .ok memory :=
      ⟨_, Memory.load_eq_ok_iff.mpr ⟨room, given, rfl⟩⟩
    obtain ⟨memory, loaded⟩ := loaded
    have load : machine.processor.load words = .ok (.ofMemory memory) :=
      map_eq_ok_iff.mpr ⟨memory, loaded, rfl⟩
    refine ⟨⟨.ofMemory memory, machine.breakpoints⟩, ?_, load, rfl⟩
    rw [loadInPlace_eq, wholly_eq_ok_iff, load_eq_ok_iff]
    exact ⟨words, rfl, rfl, load, rfl⟩
  overflows := by
    intro many
    have refused : machine.processor.load words =
        .error (.tooManyWords words.length machine.processor.memory.size) := by
      rw [Processor.load, map_eq_error_iff, Memory.load]
      simp [many]
    rw [loadInPlace_eq, wholly_eq_error_iff, load_eq]
    simp only [LoadRequest.program, refused, and_self]

theorem exists_loadsAs (takes : (directory.find path).Takes place)
    (whole : ∀ word ∈ words, Text.IsWord word) :
    ∃ written, Files.writeWords directory path words = .ok written ∧
      ∀ machine, LoadsAs written path words machine :=
  ⟨_, Files.writeWords_of_takes takes,
    loadsAs_of_readWords (Files.readWords_put takes whole) fun word member =>
      (whole word member).given⟩

/-- Wherever a file can be put, words are loaded from the file that they were
written to as they are loaded themselves. So are the words of every
compilation. -/
theorem written_words_load_alike (takes : (directory.find path).Takes place) :
    (∀ words : List String, (∀ word ∈ words, Text.IsWord word) →
      ∃ written, Files.writeWords directory path words = .ok written ∧
        ∀ machine, LoadsAs written path words machine) ∧
    ∀ (options : CompileOptions) (file source : String) (compilation : Compilation),
      options.check = .ok options →
      Compilation.ofSource options file source = .ok compilation →
      ∃ written, Files.writeWords directory path compilation.words = .ok written ∧
        ∀ machine, LoadsAs written path compilation.words machine := by
  refine ⟨fun words whole => exists_loadsAs takes whole, ?_⟩
  intro options file source compilation valid compiled
  exact exists_loadsAs takes fun word member =>
    (Compilation.isVisible_of_mem_words valid compiled member).isWord

/-- Words with blanks around them and with characters of two, three and four
bytes are written over another file. -/
theorem written_words_load_alike_long_characters :
    let directory : Directory := ⟨[(["out.sml"], .file [0xFF])]⟩
    let path := Path.ofText "out.sml"
    let words := ["4300 ", "\té中", "𝄞x"]
    (directory.find path).Takes ["out.sml"] ∧ (∀ word ∈ words, Text.IsWord word) ∧
      (∃ written, Files.writeWords directory path words = .ok written ∧
        ∀ machine, LoadsAs written path words machine) ∧
      ∀ (options : CompileOptions) (file source : String) (compilation : Compilation),
        options.check = .ok options →
        Compilation.ofSource options file source = .ok compilation →
        ∃ written, Files.writeWords directory path compilation.words = .ok written ∧
          ∀ machine, LoadsAs written path compilation.words machine := by
  intro directory path words
  have takes : (directory.find path).Takes ["out.sml"] := by
    have found : directory.find path = .node ["out.sml"] (.file [0xFF]) := by decide +kernel
    rw [found]
    exact .file _ _
  have whole : ∀ word ∈ words, Text.IsWord word := by
    have checked : (words.all fun word =>
        word.toList.all (! Text.isLineEnd ·) && Text.trim word != "") = true := by decide +kernel
    intro word member
    have each := List.all_eq_true.mp checked word member
    simp only [Bool.and_eq_true, List.all_eq_true, Bool.not_eq_true', bne_iff_ne] at each
    exact ⟨each.1, each.2⟩
  have alike := written_words_load_alike takes
  exact ⟨takes, whole, alike.1 words whole, alike.2⟩

end Machine

end DecimalMachine
