import DecimalMachine.Files.Programs
import DecimalMachine.Proofs.InPlace
import DecimalMachine.Proofs.Memory.Cells
import DecimalMachine.Proofs.Outcomes
import DecimalMachine.Proofs.Processor.Consistency

/-!
# Loading

A program is loaded wholly or not at all.  The functions that load give no new
state at a failure, so the loads are also stated in place, as programs whose
failures keep what was changed before them: the words are looked at, memory is
cleared and filled, and the registers are reset.  These programs fail before they
change anything, whether they load words, a source or a program file.

What a load leaves depends on the words and on the number of cells.  Nothing
remains of what the machine did before.
-/

namespace DecimalMachine

/-! ## Memory -/

namespace Memory

/-- Put words over the first cells. -/
def overwrite (memory : Memory) (words : List String) : Memory :=
  ⟨words.toArray ++ memory.cells.extract words.length memory.cells.size⟩

/-- Load words in place: all of them are looked at before the memory is
cleared. -/
def loadInPlace (words : List String) : EStateM LoadError Memory Nat := do
  let words := words.map Text.trim
  let memory ← get
  if memory.size < words.length then
    throw (.tooManyWords words.length memory.size)
  else
    match blankWord? words with
    | some address => throw (.emptyWord address)
    | none =>
        modify clear
        modify (·.overwrite words)
        pure words.length

theorem overwrite_clear (memory : Memory) (words : List String) :
    memory.clear.overwrite words =
      ⟨words.toArray ++ Array.replicate (memory.size - words.length) emptyWord⟩ := by
  simp [overwrite, clear, ofSize, Array.extract_replicate]

/-- Loading in place is loading. -/
theorem loadInPlace_eq (words : List String) :
    loadInPlace words = wholly fun memory => (words.length, ·) <$> memory.load words := by
  funext memory
  have length : (words.map Text.trim).length = words.length := List.length_map _
  unfold loadInPlace wholly load
  generalize words.map Text.trim = program at length
  simp only [bind_apply, get_apply, length]
  by_cases many : memory.size < words.length
  · simp [many, throw_apply]
  · cases blank : blankWord? program with
    | some address => simp [many, throw_apply]
    | none =>
        simp only [if_neg many, bind_apply, modify_apply, pure_apply, overwrite_clear, length]
        rfl

end Memory

/-! ## Processors -/

namespace Processor

/-- Reset all but the memory. -/
def resetRegisters (processor : Processor) : Processor :=
  { processor with registers := .initial, outputs := [], final := none, stoppedAt := none }

/-- Load words in place: the registers are reset after the memory is loaded. -/
def loadInPlace (words : List String) : EStateM LoadError Processor Nat := do
  let count ← within memory (fun processor memory => { processor with memory := memory })
    (Memory.loadInPlace words)
  modify resetRegisters
  pure count

theorem loadInPlace_eq (words : List String) :
    loadInPlace words = wholly fun processor => (words.length, ·) <$> processor.load words := by
  funext processor
  simp only [loadInPlace, Memory.loadInPlace_eq, bind_apply, within, wholly, load]
  cases processor.memory.load words <;> rfl

end Processor

/-! ## Machines -/

/-- What a machine is asked to load. -/
inductive LoadRequest where
  | words (words : List String)
  | source (options : CompileOptions) (name text : String)
  | file (directory : Directory) (path : Path)

/-- The words that are to be loaded. -/
def LoadRequest.program : LoadRequest → Except Failure (List String)
  | .words given => .ok given
  | .source options name text =>
      Compilation.words <$> (Compilation.ofSource options name text).mapError .rejected
  | .file directory path => Files.readWords directory path

/-- The words of a request are never refused for what they are. -/
theorem LoadRequest.program_ne_load (request : LoadRequest) (error : LoadError) :
    request.program ≠ .error (.load error) := by
  intro failed
  cases request with
  | words given => cases failed
  | source options name text =>
      obtain ⟨_, _, ⟨⟩⟩ := mapError_eq_error_iff.mp (map_eq_error_iff.mp failed)
  | file directory path =>
      simp only [program, Files.readWords] at failed
      rcases bind_eq_error_iff.mp failed with missing | ⟨known, _, failed⟩
      · rcases mapError_eq_error_iff.mp missing with ⟨_, _, ⟨⟩⟩
      · split at failed
        · rcases bind_eq_error_iff.mp failed with unread | ⟨_, _, ⟨⟩⟩
          rcases bind_eq_error_iff.mp unread with unread | ⟨content, _, garbled⟩
          · rcases mapError_eq_error_iff.mp unread with ⟨_, _, ⟨⟩⟩
          · rcases mapError_eq_error_iff.mp garbled with ⟨_, _, ⟨⟩⟩
        · cases failed

/-- The failure of a source that is not loaded. -/
def SourceLoadError.failure : SourceLoadError → Failure
  | .rejected rejection => .rejected rejection
  | .load error => .load error

namespace Machine

/-- Load what is asked for, and tell the number of words. -/
def load (machine : Machine) : LoadRequest → Except Failure (Nat × Machine)
  | .words words => (words.length, ·) <$> (machine.loadWords words).mapError .load
  | .source options file text => (machine.loadSource options file text).mapError (·.failure)
  | .file directory path => Files.load directory path machine

/-- Load what is asked for in place, once its words are known. -/
def loadInPlace (request : LoadRequest) : EStateM Failure Machine Nat :=
  match request.program with
  | .error failure => throw failure
  | .ok words =>
      within processor (fun machine processor => { machine with processor := processor })
        ((Processor.loadInPlace words).adaptExcept .load)

/-- Every request loads its words into the processor. -/
theorem load_eq (machine : Machine) (request : LoadRequest) :
    machine.load request =
      match request.program with
      | .error failure => .error failure
      | .ok words =>
          match machine.processor.load words with
          | .error error => .error (.load error)
          | .ok processor => .ok (words.length, { machine with processor := processor }) := by
  have loadWords_eq : ∀ words, machine.loadWords words =
      match machine.processor.load words with
      | .error error => .error error
      | .ok processor => .ok { machine with processor := processor } := by
    intro words
    rw [loadWords]
    cases machine.processor.load words <;> rfl
  cases request with
  | words words =>
      simp only [load, LoadRequest.program, loadWords_eq]
      cases machine.processor.load words <;> rfl
  | source options name text =>
      simp only [load, loadSource, LoadRequest.program, loadWords_eq]
      cases Compilation.ofSource options name text with
      | error rejection => rfl
      | ok compilation =>
          simp only [Except.mapError, Functor.map, Except.map]
          cases machine.processor.load compilation.words <;> rfl
  | file directory path =>
      simp only [load, Files.load, LoadRequest.program, loadWords_eq]
      cases Files.readWords directory path with
      | error failure => rfl
      | ok words =>
          simp only [bind, Except.bind]
          cases machine.processor.load words <;> rfl

/-- Loading in place is loading. -/
theorem loadInPlace_eq (request : LoadRequest) :
    loadInPlace request = wholly (·.load request) := by
  funext machine
  simp only [wholly, load_eq, loadInPlace]
  cases request.program with
  | error failure => rfl
  | ok words =>
      simp only [within, EStateM.adaptExcept, Processor.loadInPlace_eq, wholly]
      cases machine.processor.load words <;> rfl

end Machine

/-! ## Histories -/

/-- Words that cannot be loaded into so many cells. -/
def Unfit (size : Int) (words : List String) : Prop :=
  size < words.length ∨ ∃ word ∈ words, Text.trim word = ""

namespace Processor

variable {size : Int} {processor next : Processor} {words : List String}

/-- A processor that holds so many words and has not started. -/
structure Ready (size : Int) (words : List String) (processor : Processor) : Prop where
  room : (processor.memory.size : Int) = size
  cells : ∀ address : Nat, (address : Int) < size →
    processor.memory.read address = .ok ((words[address]?.map Text.trim).getD "0000")
  registers : processor.registers = .initial
  outputs : processor.outputs = []
  final : processor.final = none
  stoppedAt : processor.stoppedAt = none

theorem ready_of_load (cells : (processor.memory.size : Int) = size)
    (loaded : processor.load words = .ok next) : Ready size words next := by
  rcases map_eq_ok_iff.mp loaded with ⟨memory, filled, rfl⟩
  refine ⟨?_, ?_, rfl, rfl, rfl, rfl⟩
  · rw [← cells]
    exact congrArg Int.ofNat (Memory.size_of_load filled)
  · intro address inside
    exact Memory.read_of_load filled (by omega)

/-- There is a new processor of the size of every other one. -/
theorem Reached.exists_created (reached : Reached size processor) :
    ∃ fresh, Processor.create size = .ok fresh := by
  induction reached with
  | create created => exact ⟨_, created⟩
  | load _ _ ih => exact ih
  | reset _ ih => exact ih
  | call _ _ ih => exact ih

/-- A load gives what it gives in a new processor. -/
theorem Reached.load_eq_fresh (reached : Reached size processor) {fresh : Processor}
    (created : Processor.create size = .ok fresh) (words : List String) :
    processor.load words = fresh.load words := by
  have same : processor.memory.size = fresh.memory.size := by
    have cells := reached.consistent.cells
    have freshCells := (Reached.create created).consistent.cells
    omega
  rw [Processor.load, Processor.load, Memory.load_eq_of_size_eq same]

theorem Reached.load_eq_error_iff (reached : Reached size processor) (words : List String) :
    (∃ error, processor.load words = .error error) ↔ Unfit size words := by
  have failed : (∃ error, processor.load words = .error error) ↔
      ∃ error, processor.memory.load words = .error error := by
    simp only [Processor.load, map_eq_error_iff]
  rw [failed, Memory.load_eq_error_iff, Unfit, ← reached.consistent.cells]
  simp

end Processor

namespace Machine

/-- Loads are wholly done or not at all, and nothing of what was done before
remains after one. -/
structure LoadsAfresh (size : Int) (machine : Machine) : Prop where
  /-- Words are refused for their number or a blank one among them. -/
  refuses : ∀ words, (∃ error, machine.processor.load words = .error error) ↔ Unfit size words
  /-- What is asked for is refused for its words, once these are known. -/
  refusesRequest : ∀ request, (∃ error, machine.load request = .error (.load error)) ↔
    ∃ words, request.program = .ok words ∧ Unfit size words
  /-- Words that are refused leave the processor as it was. -/
  keepsProcessor : ∀ words error left,
    (Processor.loadInPlace words).run machine.processor = .error error left →
      machine.processor.load words = .error error ∧ left = machine.processor
  /-- Nothing that fails leaves a change behind it. -/
  keeps : ∀ request failure left, (loadInPlace request).run machine = .error failure left →
    machine.load request = .error failure ∧ left = machine
  /-- What succeeds gives the processor that a new one of the same size becomes. -/
  loads : ∀ request count next, (loadInPlace request).run machine = .ok count next →
    machine.load request = .ok (count, next) ∧ next.breakpoints = machine.breakpoints ∧
      ∃ words fresh, request.program = .ok words ∧ count = words.length ∧
        Processor.create size = .ok fresh ∧ fresh.load words = .ok next.processor ∧
        Processor.Ready size words next.processor

theorem load_eq_ok_iff {machine next : Machine} {request : LoadRequest} {count : Nat} :
    machine.load request = .ok (count, next) ↔
      ∃ words, request.program = .ok words ∧ count = words.length ∧
        machine.processor.load words = .ok next.processor ∧
        next.breakpoints = machine.breakpoints := by
  rw [load_eq]
  cases request.program with
  | error failure => simp
  | ok words =>
      cases loaded : machine.processor.load words with
      | error error => simp [loaded]
      | ok processor =>
          obtain ⟨nextProcessor, nextBreakpoints⟩ := next
          simp [loaded, eq_comm]

theorem load_eq_refused_iff {machine : Machine} {request : LoadRequest} :
    (∃ error, machine.load request = .error (.load error)) ↔
      ∃ words, request.program = .ok words ∧
        ∃ error, machine.processor.load words = .error error := by
  rw [load_eq]
  cases program : request.program with
  | error failure =>
      have other : ∀ error, failure ≠ .load error := by
        rintro error rfl
        exact request.program_ne_load error program
      simp [other]
  | ok words => cases loaded : machine.processor.load words <;> simp [loaded]

theorem loadsAfresh_of_reached {size : Int} {machine : Machine}
    (reached : Processor.Reached size machine.processor) : LoadsAfresh size machine := by
  refine ⟨reached.load_eq_error_iff, ?_, ?_, ?_, ?_⟩
  · intro request
    simp only [load_eq_refused_iff, reached.load_eq_error_iff]
  · intro words error left failed
    rw [Processor.loadInPlace_eq, wholly_eq_error_iff] at failed
    rcases failed with ⟨failed, same⟩
    exact ⟨map_eq_error_iff.mp failed, same⟩
  · intro request failure left failed
    rw [loadInPlace_eq, wholly_eq_error_iff] at failed
    exact failed
  · intro request count next loaded
    rw [loadInPlace_eq, wholly_eq_ok_iff] at loaded
    refine ⟨loaded, ?_⟩
    rcases load_eq_ok_iff.mp loaded with ⟨words, program, rfl, loaded, breakpoints⟩
    rcases reached.exists_created with ⟨fresh, created⟩
    refine ⟨breakpoints, words, fresh, program, rfl, created, ?_, ?_⟩
    · rw [← reached.load_eq_fresh created, loaded]
    · exact Processor.ready_of_load reached.consistent.cells loaded

/-- A machine of two cells has run its program to the halt, with the halt command
in its accumulator. -/
theorem loadsAfresh_of_reached_halted :
    ∃ loaded processor : Processor,
      (Processor.ofMemory (.ofSize 2)).load ["2001", "4300"] = .ok loaded ∧
      processor = (loaded.run .ofInputs 5 []).2.1 ∧ processor.halted = true ∧
      processor.registers.accumulator = "4300" ∧
      LoadsAfresh 2 ⟨processor, .empty⟩ := by
  have loaded : (Processor.ofMemory (.ofSize 2)).load ["2001", "4300"] =
      .ok (Processor.ofMemory ⟨#["2001", "4300"]⟩) := by
    decide +kernel
  exact ⟨_, _, loaded, rfl, by decide +kernel, by decide +kernel,
    loadsAfresh_of_reached (.call (.run _ _ _) (.load loaded (.create rfl)))⟩

end Machine

end DecimalMachine
