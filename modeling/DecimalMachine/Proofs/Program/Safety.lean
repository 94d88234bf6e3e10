import DecimalMachine.Proofs.Processor.Environments
import DecimalMachine.Proofs.Processor.Stops
import DecimalMachine.Proofs.Program.Refinement

/-!
# Safety of compiled programs

A compiled program cannot go wrong.  Whatever its environment answers and
whenever it stops execution, the processor stays at a point of the program: the
program counter stays among the instructions, which stay as they are, every
other cell of the program holds an integer, and the cells behind it stay empty.
Steps and runs fail only for lack of an input that is an integer, or at the
limit of number conversion.
-/

namespace DecimalMachine

namespace Processor

/-- The processors that steps and runs lead to, each in an environment of its
own. -/
inductive Reachable (start : Processor) : Processor → Prop where
  | start : Reachable start start
  | step {σ : Type} (environment : Environment σ) (state : σ) {processor : Processor}
      (reachable : Reachable start processor) :
      Reachable start (processor.step environment state).2.1
  | run {σ : Type} (environment : Environment σ) (fuel : Nat) (state : σ) {processor : Processor}
      (reachable : Reachable start processor) :
      Reachable start (processor.run environment fuel state).2.1

/-- An outcome that a program can have without being at fault itself: it does
not run off the end of memory, and it fails only at an input or at the limit of
number conversion. -/
inductive Harmless : Outcome → Prop where
  | stopped {event : Event} (reason : event.reason ≠ .endOfMemory) : Harmless (.stopped event)
  | noInput {fault : Fault} {address : Nat} (cause : fault.cause = .noInput address) :
      Harmless (.failed (.fault fault))
  | notInteger {fault : Fault} {text : String} (cause : fault.cause = .inputNotInteger text) :
      Harmless (.failed (.fault fault))
  | limit {error : Decimal.LimitError} : Harmless (.failed (.limit error))
  | unfinished : Harmless .unfinished

end Processor

namespace Program

open Semantics Processor

/-- The processor of a program that has not gone wrong. -/
structure Intact (program : Program) (size : Nat) (processor : Processor) : Prop where
  pc : processor.registers.pc < program.instructions.length
  memorySize : processor.memory.size = size
  instructions : ∀ address : Nat, address < program.instructions.length →
    processor.memory.cells[address]? = program.instructions[address]?
  data : ∀ address : Nat, program.instructions.length ≤ address → address < program.words.length →
    ∃ text, processor.memory.cells[address]? = some text ∧ Decimal.isCanonical text = true
  empty : ∀ address : Nat, program.words.length ≤ address → address < size →
    processor.memory.cells[address]? = some Memory.emptyWord
  accumulator : Decimal.isCanonical processor.registers.accumulator = true
  outputs : ∀ text ∈ processor.outputs, Decimal.isCanonical text = true

section Points

variable {code : List Emitted} {size : Nat} {processor : Processor} {point : Point} {σ : Type}

/-- The processor is at a point of the program, and the program has not ended
unless with a halt. -/
structure Sound (code : List Emitted) (size : Nat) (processor : Processor) : Prop where
  point : ∃ point, Represents code size processor point
  ended : ∀ event, processor.final = some event → event.reason = .halt

theorem harmless_of_stopOfError {error : ExecutionError}
    (meaning : stopOfError error ≠ .meaningless) :
    Harmless (.failed error) := by
  cases error with
  | limit error => exact .limit
  | fault fault =>
      cases cause : fault.cause with
      | noInput address => exact .noInput cause
      | inputNotInteger text => exact .notInteger cause
      | _ => exact absurd (by simp [stopOfError, cause]) meaning

/-- A cycle in any environment leads to a point of the program, and fails only
for a reason that is not the program's. -/
theorem represents_cycle (executable : Executable code) (fits : extent code ≤ size)
    (represents : Represents code size processor point) (environment : Environment σ) (state : σ) :
    (∃ next, Represents code size (processor.cycle environment state).2.1 next) ∧
      ∀ error, (processor.cycle environment state).1 = .failed error →
        Harmless (.failed error) := by
  obtain ⟨inputs, same⟩ := exists_inputs_cycle environment processor state
  have follows := follows_cycle executable (represents.withInputs inputs) fits
  generalize processor.cycle .ofInputs inputs = executed at follows same
  generalize codeStep code _ = result at follows
  generalize processor.cycle environment state = outcome at same
  obtain ⟨progress, next, rest⟩ := outcome
  cases follows with
  | advanced after =>
      obtain ⟨settled, rfl⟩ := Prod.mk.inj same
      refine ⟨⟨_, after⟩, ?_⟩
      rintro error rfl
      cases settled
  | halted last =>
      obtain ⟨settled, rfl⟩ := Prod.mk.inj same
      refine ⟨⟨_, last⟩, ?_⟩
      rintro error rfl
      cases settled
  | failed meaning last =>
      obtain ⟨settled, rfl⟩ := Prod.mk.inj same
      refine ⟨⟨_, last⟩, ?_⟩
      rintro error rfl
      cases settled
      exact harmless_of_stopOfError meaning

theorem Sound.withStops (sound : Sound code size processor) (final : Option Event)
    (stoppedAt : Option Nat) (ended : ∀ event, final = some event → event.reason = .halt) :
    Sound code size (processor.withStops final stoppedAt) := by
  obtain ⟨⟨point, represents⟩, _⟩ := sound
  exact ⟨⟨point, { represents with }⟩, ended⟩

theorem Sound.cycle (executable : Executable code) (fits : extent code ≤ size)
    (sound : Sound code size processor) (environment : Environment σ) (state : σ) :
    Sound code size (processor.cycle environment state).2.1 := by
  obtain ⟨⟨point, represents⟩, ended⟩ := sound
  constructor
  · exact (represents_cycle executable fits represents environment state).1
  · rw [final_cycle]
    exact ended

/-- What a call leaves behind is sound, and what it reports is harmless. -/
def Safe (code : List Emitted) (size : Nat) (outcome : Outcome × Processor × σ) : Prop :=
  Sound code size outcome.2.1 ∧ Harmless outcome.1

theorem safe_finish (sound : Sound code size processor) (state : σ) :
    Safe code size (processor.finish processor.haltEvent state) := by
  refine ⟨sound.withStops (some processor.haltEvent) processor.stoppedAt ?_,
    .stopped (by simp [haltEvent])⟩
  rintro event ⟨⟩
  rfl

theorem Sound.inMemory (sound : Sound code size processor) (fits : extent code ≤ size) :
    processor.inMemory = true := by
  obtain ⟨⟨point, represents⟩, _⟩ := sound
  exact represents.inMemory fits

theorem Sound.harmless_of_failed (executable : Executable code) (fits : extent code ≤ size)
    (sound : Sound code size processor) {environment : Environment σ} {state rest : σ}
    {next : Processor} {error : ExecutionError}
    (executed : processor.cycle environment state = (.failed error, next, rest)) :
    Harmless (.failed error) := by
  obtain ⟨⟨point, represents⟩, _⟩ := sound
  apply (represents_cycle executable fits represents environment state).2
  rw [executed]

theorem Sound.step (executable : Executable code) (fits : extent code ≤ size)
    (sound : Sound code size processor) (environment : Environment σ) (state : σ) :
    Safe code size (processor.step environment state) := by
  unfold Processor.step
  split
  · next event ended =>
      exact ⟨sound, .stopped (by simp [sound.ended event ended])⟩
  · next going =>
      have fresh : Sound code size { processor with stoppedAt := none } :=
        sound.withStops processor.final none sound.ended
      have inside := fresh.inMemory fits
      have after := fresh.cycle executable fits environment state
      simp only [inside, if_true]
      rcases executed : Processor.cycle environment { processor with stoppedAt := none } state with
        ⟨progress, next, rest⟩
      rw [executed] at after
      cases progress with
      | advanced refused => exact ⟨after, .stopped (by simp)⟩
      | halted => exact safe_finish after rest
      | failed error => exact ⟨after, fresh.harmless_of_failed executable fits executed⟩

theorem Sound.runFrom (executable : Executable code) (fits : extent code ≤ size)
    (environment : Environment σ) (fuel : Nat) (resumed : Option Nat)
    (sound : Sound code size processor) (state : σ) :
    Safe code size (runFrom environment fuel resumed processor state) := by
  induction fuel generalizing resumed processor state with
  | zero => exact ⟨sound, .unfinished⟩
  | succ fuel ih =>
      rw [Processor.runFrom, if_pos (sound.inMemory fits)]
      rcases processor.permits environment resumed state with ⟨allowed, state⟩
      cases allowed with
      | false =>
          have stops := sound.withStops processor.final (some processor.registers.pc) sound.ended
          exact ⟨stops, .stopped (by simp)⟩
      | true =>
          have after := sound.cycle executable fits environment state
          rcases executed : processor.cycle environment state with ⟨progress, next, rest⟩
          rw [executed] at after
          simp only [executed]
          cases progress with
          | advanced refused =>
              cases refused with
              | none => exact ih none after rest
              | some write => exact ⟨after, .stopped (by simp)⟩
          | halted => exact safe_finish after rest
          | failed error => exact ⟨after, sound.harmless_of_failed executable fits executed⟩

theorem Sound.run (executable : Executable code) (fits : extent code ≤ size)
    (sound : Sound code size processor) (environment : Environment σ) (fuel : Nat) (state : σ) :
    Safe code size (processor.run environment fuel state) := by
  unfold Processor.run
  split
  · next event ended =>
      exact ⟨sound, .stopped (by simp [sound.ended event ended])⟩
  · next going =>
      have fresh := sound.withStops processor.final none sound.ended
      exact Sound.runFrom executable fits environment fuel processor.stoppedAt fresh state

/-- Steps and runs stay at points of the program. -/
theorem Sound.reachable (executable : Executable code) (fits : extent code ≤ size)
    {start : Processor} (sound : Sound code size start) (reachable : Reachable start processor) :
    Sound code size processor := by
  induction reachable with
  | start => exact sound
  | step environment state _ ih => exact (ih.step executable fits environment state).1
  | run environment fuel state _ ih => exact (ih.run executable fits environment fuel state).1

end Points

/-- A sound processor holds the program as it was loaded, but for the values of
its variables. -/
theorem Accepted.intact {options : CompileOptions} {file source : String} {lines : List Line}
    {layout : Layout} {body : List Emitted} {symbols : SymbolTable} {program : Program}
    (accepted : Accepted options file source lines layout body symbols program) {size : Nat}
    (fits : extent program.code ≤ size) {processor : Processor}
    (sound : Sound program.code size processor) : Intact program size processor := by
  obtain ⟨⟨point, represents⟩, _⟩ := sound
  have assembled := accepted.assembled
  have count : program.instructions.length = program.code.length := by
    rw [assembled.instructions, List.length_map]
  have total : program.words.length = extent program.code := assembled.length_words
  have cell : ∀ address : Nat, processor.memory.cells[address]? =
      (image program.code point.values.contents size)[address]? := by
    intro address
    rw [← represents.cells, Array.getElem?_toList]
  exact {
    pc := by
      rw [count, represents.pc]
      exact represents.inside
    memorySize := represents.size_eq fits
    instructions := by
      intro address inside
      rw [count] at inside
      rw [cell, image_code (List.getElem?_eq_getElem inside), assembled.instructions,
        List.getElem?_map, List.getElem?_eq_getElem inside]
      rfl
    data := by
      intro address behind inside
      rw [count] at behind
      rw [total] at inside
      obtain ⟨name, member, rfl⟩ := exists_cellOf behind inside
      exact ⟨_, by rw [cell, image_variable member], Decimal.isCanonical_text _⟩
    empty := by
      intro address behind inside
      rw [total] at behind
      rw [cell, image_empty behind inside]
    accumulator := by
      rw [represents.accumulator]
      exact Decimal.isCanonical_text _
    outputs := by
      intro text member
      rw [represents.outputs] at member
      obtain ⟨value, _, rfl⟩ := List.mem_map.mp member
      exact Decimal.isCanonical_text value }

/-- A compiled program stays intact, and every step and every run of it is
harmless, in whatever environments. -/
theorem reachable_intact {options : CompileOptions} {file source : String}
    {compilation : Compilation} (valid : options.check = .ok options)
    (compiled : Compilation.ofSource options file source = .ok compilation)
    {processor : Processor} (fits : compilation.words.length ≤ processor.memory.size) :
    ∃ loaded, processor.load compilation.words = .ok loaded ∧
      ∀ reached, Reachable loaded reached →
        Intact compilation.program processor.memory.size reached ∧
          (∀ {σ : Type} (environment : Environment σ) (state : σ),
            Harmless (reached.step environment state).1) ∧
          ∀ {σ : Type} (environment : Environment σ) (fuel : Nat) (state : σ),
            Harmless (reached.run environment fuel state).1 := by
  obtain ⟨lines, layout, body, symbols, accepted⟩ := exists_accepted valid compiled
  obtain ⟨loaded, load, going, _, small, represents⟩ := accepted.represents_load fits
  have executable := accepted.executable
  have start : Sound compilation.program.code processor.memory.size loaded := by
    refine ⟨⟨_, represents []⟩, ?_⟩
    rw [going]
    rintro event ⟨⟩
  refine ⟨loaded, load, ?_⟩
  intro reached reachable
  have sound := start.reachable executable small reachable
  exact ⟨accepted.intact small sound,
    fun environment state => (sound.step executable small environment state).2,
    fun environment fuel state => (sound.run executable small environment fuel state).2⟩

theorem reachable_intact_countdown :
    CompileOptions.check {} = .ok {} ∧
      ∃ compilation,
        Compilation.ofSource {} "countdown"
            "n=0\none=1\nREAD n\n@a\nm=n-one\nSTORE n\nBRANCHNEG @b\nBRANCH @a\n@b\nWRITE m" =
              .ok compilation ∧
          compilation.words.length ≤ (Processor.ofMemory (.ofSize 100)).memory.size ∧
          ∃ loaded, (Processor.ofMemory (.ofSize 100)).load compilation.words = .ok loaded ∧
            ∀ reached, Reachable loaded reached →
              Intact compilation.program (Processor.ofMemory (.ofSize 100)).memory.size reached ∧
                (∀ {σ : Type} (environment : Environment σ) (state : σ),
                  Harmless (reached.step environment state).1) ∧
                ∀ {σ : Type} (environment : Environment σ) (fuel : Nat) (state : σ),
                  Harmless (reached.run environment fuel state).1 := by
  have size : ((Compilation.ofSource {} "countdown"
      "n=0\none=1\nREAD n\n@a\nm=n-one\nSTORE n\nBRANCHNEG @b\nBRANCH @a\n@b\nWRITE m").map
        fun compilation => compilation.words.length).toOption = some 12 := by decide +kernel
  obtain ⟨compilation, compiled, length⟩ := of_toOption_map_eq_some size
  have fits : compilation.words.length ≤ (Processor.ofMemory (.ofSize 100)).memory.size := by
    rw [length, Processor.ofMemory, Memory.size_ofSize]
    decide
  exact ⟨rfl, compilation, compiled, fits, reachable_intact rfl compiled fits⟩

end Program

end DecimalMachine
