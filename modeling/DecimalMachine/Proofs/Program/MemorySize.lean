import DecimalMachine.Proofs.Machine.Debugging
import DecimalMachine.Proofs.Processor.Agreement
import DecimalMachine.Proofs.Program.Safety

/-!
# The size of the memory

A compiled program does not see how large its memory is.  As long as it goes
right, every instruction is among its words and has its operand there, so that
machines with more or fewer cells behind the words go through the same steps.
-/

namespace DecimalMachine

open Program Semantics Processor

section Points

variable {code : List Emitted} {size : Nat} {processor other : Processor} {σ : Type}

/-- The operand of an instruction is the address of a word. -/
theorem Program.Executable.operand_lt_extent (executable : Executable code) {emitted : Emitted}
    (member : emitted ∈ code) : (word code emitted).operand.toNat < extent code := by
  have fits := executable.fits emitted member
  have below : code.length ≤ extent code := Nat.le_add_right _ _
  obtain ⟨opcode, operand⟩ := emitted
  cases operand with
  | absent => exact Nat.lt_of_lt_of_le executable.length_pos below
  | target index => exact Nat.lt_of_lt_of_le fits.2 below
  | «variable» name => exact cellOf_lt_extent (mem_slots_of_accessed member rfl)

namespace Program.Sound

theorem confined (sound : Sound code size processor) (executable : Executable code) :
    Confined (extent code) processor := by
  obtain ⟨⟨point, represents⟩, _⟩ := sound
  have here := List.getElem?_eq_getElem represents.inside
  constructor
  · rw [represents.pc]
    exact Nat.lt_of_lt_of_le represents.inside (Nat.le_add_right _ _)
  · intro instruction decoded
    rw [represents.ofText?_fetch executable here] at decoded
    cases decoded
    exact executable.operand_lt_extent (List.mem_of_getElem? here)

theorem confined_withStops (sound : Sound code size processor) (executable : Executable code) :
    Confined (extent code) { processor with final := none, stoppedAt := none } :=
  (sound.withStops none none (by rintro event ⟨⟩)).confined executable

/-- A step does the same in a memory of another size. -/
theorem agree_step (executable : Executable code) (sound : Sound code size processor)
    (agree : Agree (extent code) processor other) (environment : Environment σ) (state : σ) :
    AgreeAfter (extent code) (processor.step environment state)
      (other.step environment state) := by
  unfold Processor.step
  rw [← agree.final]
  cases processor.final with
  | some event => exact ⟨rfl, agree, rfl⟩
  | none =>
      have fresh := agree.withStops none none
      have confined := sound.confined_withStops executable
      have after := fresh.cycle confined environment state
      obtain ⟨inside, otherInside⟩ := fresh.inMemory confined.pc
      simp only [inside, otherInside, if_true]
      rcases executed : Processor.cycle environment
        { processor with final := none, stoppedAt := none } state with ⟨progress, next, rest⟩
      rcases otherExecuted : Processor.cycle environment
        { other with final := none, stoppedAt := none } state with
          ⟨otherProgress, otherNext, otherRest⟩
      rw [executed, otherExecuted] at after
      obtain ⟨⟨⟩, agree, ⟨⟩⟩ := after
      cases progress with
      | advanced refused =>
          have registers : next.registers = otherNext.registers := agree.registers
          exact ⟨by simp only [registers], agree, rfl⟩
      | halted => exact agree.finish_halt rest
      | failed error => exact ⟨rfl, agree, rfl⟩

/-- A run does the same in a memory of another size: cycle by cycle the
processors agree, and the program stays at its points. -/
theorem agree_runFrom (executable : Executable code) (fits : extent code ≤ size)
    (environment : Environment σ) (fuel : Nat) (resumed : Option Nat)
    (sound : Sound code size processor) (agree : Agree (extent code) processor other)
    (state : σ) :
    AgreeAfter (extent code) (Processor.runFrom environment fuel resumed processor state)
      (Processor.runFrom environment fuel resumed other state) := by
  induction fuel generalizing resumed processor other state with
  | zero => exact ⟨rfl, agree, rfl⟩
  | succ fuel ih =>
      have confined := sound.confined executable
      obtain ⟨inside, otherInside⟩ := agree.inMemory confined.pc
      rw [Processor.runFrom, Processor.runFrom, if_pos inside, if_pos otherInside,
        ← agree.permits confined.pc environment resumed state]
      rcases processor.permits environment resumed state with ⟨allowed, state⟩
      cases allowed with
      | false =>
          exact ⟨by rw [agree.registers], agree.pause, rfl⟩
      | true =>
          have after := agree.cycle confined environment state
          have still := sound.cycle executable fits environment state
          rcases executed : processor.cycle environment state with ⟨progress, next, rest⟩
          rcases otherExecuted : other.cycle environment state with
            ⟨otherProgress, otherNext, otherRest⟩
          rw [executed] at still
          rw [executed, otherExecuted] at after
          obtain ⟨⟨⟩, agree, ⟨⟩⟩ := after
          simp only [executed, otherExecuted]
          cases progress with
          | advanced refused =>
              cases refused with
              | none => exact ih none still agree rest
              | some write => exact ⟨rfl, agree, rfl⟩
          | halted => exact agree.finish_halt rest
          | failed error => exact ⟨rfl, agree, rfl⟩

theorem agree_run (executable : Executable code) (fits : extent code ≤ size)
    (sound : Sound code size processor) (agree : Agree (extent code) processor other)
    (environment : Environment σ) (fuel : Nat) (state : σ) :
    AgreeAfter (extent code) (processor.run environment fuel state)
      (other.run environment fuel state) := by
  unfold Processor.run
  rw [← agree.final, ← agree.stoppedAt]
  cases processor.final with
  | some event => exact ⟨rfl, agree, rfl⟩
  | none =>
      have fresh := sound.withStops none none (by rintro event ⟨⟩)
      exact agree_runFrom executable fits environment fuel processor.stoppedAt fresh
        (agree.withStops none none) state

end Program.Sound

end Points

/-! ## Calls -/

namespace Machine

variable {τ : Type}

/-- Make calls one after another, and collect their outcomes. -/
def Call.makeAll (console : Console τ) :
    Machine → τ → List Call → List Outcome × Machine × τ
  | machine, state, [] => ([], machine, state)
  | machine, state, call :: calls =>
      let (outcome, next, rest) := call.make console machine state
      let (outcomes, last) := Call.makeAll console next rest calls
      (outcome :: outcomes, last)

/-- Machines with the same breakpoints whose processors agree on the first
cells. -/
structure Agree (count : Nat) (machine other : Machine) : Prop where
  processor : Processor.Agree count machine.processor other.processor
  breakpoints : machine.breakpoints = other.breakpoints

/-- Calls that told the same and left machines that agree and the same
surroundings. -/
structure AgreeAfter {α : Type} (count : Nat) (made other : α × Machine × τ) : Prop where
  report : made.1 = other.1
  machine : Agree count made.2.1 other.2.1
  state : made.2.2 = other.2.2

section Calls

variable {code : List Emitted} {size : Nat} {machine other : Machine}

theorem sound_make (executable : Executable code) (fits : extent code ≤ size)
    (sound : Sound code size machine.processor) (console : Console τ) (state : τ) (call : Call) :
    Sound code size (call.make console machine state).2.1.processor := by
  cases call with
  | step =>
      exact (sound.step executable fits (environment console) (machine.breakpoints, state)).1
  | run fuel =>
      rw [Call.make, run_eq]
      exact (sound.run executable fits (environment console) fuel
        (machine.breakpoints.clearLastEvent, state)).1

theorem agree_make (executable : Executable code) (fits : extent code ≤ size)
    (sound : Sound code size machine.processor) (agree : Agree (extent code) machine other)
    (console : Console τ) (state : τ) (call : Call) :
    AgreeAfter (extent code) (call.make console machine state)
      (call.make console other state) := by
  obtain ⟨agree, same⟩ := agree
  cases call with
  | step =>
      have after := sound.agree_step executable agree (environment console)
        (machine.breakpoints, state)
      have kept := congrArg Prod.fst after.state
      have rest := congrArg Prod.snd after.state
      simp only [Call.make, step, ← same]
      exact ⟨after.report, ⟨after.processor, kept⟩, rest⟩
  | run fuel =>
      have after := sound.agree_run executable fits agree (environment console) fuel
        (machine.breakpoints.clearLastEvent, state)
      have kept := congrArg Prod.fst after.state
      have rest := congrArg Prod.snd after.state
      simp only [Call.make, run_eq, ← same]
      exact ⟨by rw [after.report, after.state], ⟨after.processor, kept⟩, rest⟩

/-- Whatever calls are made, the machines stay in agreement. -/
theorem agree_makeAll (executable : Executable code) (fits : extent code ≤ size)
    (console : Console τ) (calls : List Call) (sound : Sound code size machine.processor)
    (agree : Agree (extent code) machine other) (state : τ) :
    AgreeAfter (extent code) (Call.makeAll console machine state calls)
      (Call.makeAll console other state calls) := by
  induction calls generalizing machine other state with
  | nil => exact ⟨rfl, agree, rfl⟩
  | cons call calls ih =>
      have after := agree_make executable fits sound agree console state call
      have still := sound_make executable fits sound console state call
      have rest := ih still after.machine (call.make console machine state).2.2
      simp only [Call.makeAll, ← after.state, after.report, rest.report]
      exact ⟨rfl, rest.machine, rest.state⟩

end Calls

/-- Machines that load a compiled program, however many cells they have for it,
answer the same calls in the same way: their outcomes, the surroundings, the
breakpoints, the registers, the outputs and the cells of the program stay the
same. -/
theorem makeAll_agrees_of_compiled {options : CompileOptions} {file source : String}
    {compilation : Compilation} (valid : options.check = .ok options)
    (compiled : Compilation.ofSource options file source = .ok compilation)
    {machine other : Machine} (fits : compilation.words.length ≤ machine.processor.memory.size)
    (otherFits : compilation.words.length ≤ other.processor.memory.size)
    (breakpoints : machine.breakpoints = other.breakpoints) :
    ∃ loaded otherLoaded, machine.loadWords compilation.words = .ok loaded ∧
      other.loadWords compilation.words = .ok otherLoaded ∧
      ∀ {τ : Type} (console : Console τ) (state : τ) (calls : List Call),
        AgreeAfter compilation.words.length (Call.makeAll console loaded state calls)
          (Call.makeAll console otherLoaded state calls) := by
  obtain ⟨lines, layout, body, symbols, accepted⟩ := exists_accepted valid compiled
  obtain ⟨loaded, load, going, _, small, represents⟩ := accepted.represents_load fits
  obtain ⟨otherLoaded, otherLoad, _⟩ := accepted.represents_load otherFits
  have sound : Sound compilation.program.code machine.processor.memory.size loaded := by
    refine ⟨⟨_, represents []⟩, ?_⟩
    rw [going]
    rintro event ⟨⟩
  have total : compilation.words.length = extent compilation.program.code :=
    accepted.assembled.length_words
  have agree : Agree compilation.words.length ⟨loaded, machine.breakpoints⟩
      ⟨otherLoaded, other.breakpoints⟩ := ⟨agree_load load otherLoad, breakpoints⟩
  refine ⟨_, _, map_eq_ok_iff.mpr ⟨loaded, load, rfl⟩,
    map_eq_ok_iff.mpr ⟨otherLoaded, otherLoad, rfl⟩, ?_⟩
  intro τ console state calls
  rw [total] at agree ⊢
  exact agree_makeAll accepted.executable small console calls sound agree state

theorem makeAll_agrees_of_compiled_countdown :
    let breakpoints : Breakpoints := ⟨[4], [10], [⟨.accumulator, .lt, 3, "low"⟩], none⟩
    let tight : Machine := ⟨.ofMemory (.ofSize 12), breakpoints⟩
    let roomy : Machine := ⟨.ofMemory (.ofSize 100), breakpoints⟩
    CompileOptions.check {} = .ok {} ∧
      ∃ compilation,
        Compilation.ofSource {} "countdown"
            "n=0\none=1\nREAD n\n@a\nm=n-one\nSTORE n\nBRANCHNEG @b\nBRANCH @a\n@b\nWRITE m" =
              .ok compilation ∧
          compilation.words.length ≤ tight.processor.memory.size ∧
          compilation.words.length ≤ roomy.processor.memory.size ∧
          ∃ loaded otherLoaded, tight.loadWords compilation.words = .ok loaded ∧
            roomy.loadWords compilation.words = .ok otherLoaded ∧
            ∀ {τ : Type} (console : Console τ) (state : τ) (calls : List Call),
              AgreeAfter compilation.words.length (Call.makeAll console loaded state calls)
                (Call.makeAll console otherLoaded state calls) := by
  intro breakpoints tight roomy
  have size : ((Compilation.ofSource {} "countdown"
      "n=0\none=1\nREAD n\n@a\nm=n-one\nSTORE n\nBRANCHNEG @b\nBRANCH @a\n@b\nWRITE m").map
        fun compilation => compilation.words.length).toOption = some 12 := by decide +kernel
  obtain ⟨compilation, compiled, length⟩ := of_toOption_map_eq_some size
  have fits : compilation.words.length ≤ tight.processor.memory.size :=
    Nat.le_of_eq (length.trans (Memory.size_ofSize 12).symm)
  have otherFits : compilation.words.length ≤ roomy.processor.memory.size := by
    rw [length, show roomy.processor.memory.size = 100 from Memory.size_ofSize 100]
    decide
  exact ⟨rfl, compilation, compiled, fits, otherFits,
    makeAll_agrees_of_compiled rfl compiled fits otherFits rfl⟩

/-- Words that no source compiles to can tell how large their memory is. -/
example :
    let console : Console Unit := ⟨fun _ state => (none, state), fun _ _ state => state,
      fun _ state => state⟩
    let outcomes (size : Nat) :=
      (Machine.loadWords ⟨.ofMemory (.ofSize size), .empty⟩ ["2000"]).map fun loaded =>
        (Call.makeAll console loaded () [.run 2]).1
    outcomes 1 ≠ outcomes 2 := by
  decide +kernel

end Machine

end DecimalMachine
