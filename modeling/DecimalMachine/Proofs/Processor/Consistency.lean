import DecimalMachine.Proofs.Processor.Counting
import DecimalMachine.Proofs.Processor.Effects
import DecimalMachine.Proofs.Processor.Writes
import Mathlib.Logic.Relation

/-!
# Consistent processors

Whatever is done to a processor, its registers keep to what they can hold, and
the event that ended its program is a halt or the end of the memory at the
program counter.  Cells can hold any text and branches can leave the memory, so
this is proved along every history of calls, those that fail included.

Between loads nothing is taken back.  The count of cycles grows, the outputs are
extended, and a program that has ended stays as it is.
-/

namespace DecimalMachine.Processor

/-! ## Calls -/

/-- The calls that go on with a loaded program, each step and each run in an
environment of its own.  A call that fails is one of them. -/
inductive GoesOnBy (processor : Processor) : Processor → Prop where
  | store {next : Processor} {address : Int} {word : String}
      (stored : processor.store address word = .ok next) : GoesOnBy processor next
  | step {σ : Type} (environment : Environment σ) (state : σ) :
      GoesOnBy processor (processor.step environment state).2.1
  | run {σ : Type} (environment : Environment σ) (fuel : Nat) (state : σ) :
      GoesOnBy processor (processor.run environment fuel state).2.1

/-- The processors to which calls lead from one with so many cells.  A load or a
store that is refused leaves the processor as it was. -/
inductive Reached (size : Int) : Processor → Prop where
  | create {processor : Processor} (created : create size = .ok processor) :
      Reached size processor
  | load {processor next : Processor} {words : List String}
      (loaded : processor.load words = .ok next) (before : Reached size processor) :
      Reached size next
  | reset {processor : Processor} (before : Reached size processor) :
      Reached size processor.reset
  | call {processor next : Processor} (goesOn : GoesOnBy processor next)
      (before : Reached size processor) : Reached size next

/-! ## What calls preserve -/

/-- What holds of every processor with so many cells. -/
structure Consistent (size : Int) (processor : Processor) : Prop where
  cells : (processor.memory.size : Int) = size
  pc : 0 ≤ processor.registers.readout.pc ∧ processor.registers.readout.pc ≤ max size 99
  operand : 0 ≤ processor.registers.readout.operand ∧ processor.registers.readout.operand ≤ 99
  opcode : ∀ code, processor.registers.readout.opcode = some code →
    code ∈ ([10, 11, 20, 21, 30, 31, 40, 41, 42, 43] : List Int)
  ir : ∀ word, processor.registers.readout.ir = some word → Instruction.isWord word = true
  stoppedAt : ∀ address, processor.stoppedAt = some address → address = processor.registers.pc
  halted : processor.halted = true ↔ ∃ event, processor.final = some event
  final : ∀ event, processor.final = some event →
    event = processor.haltEvent ∨ event = processor.endEvent ∧ processor.inMemory = false

/-- What a program that goes on leaves behind it. -/
structure Extends (processor next : Processor) : Prop where
  cycles : processor.registers.cycles ≤ next.registers.cycles
  outputs : processor.outputs <+: next.outputs

namespace Extends

variable {first second third : Processor}

theorem refl (processor : Processor) : Extends processor processor :=
  ⟨Nat.le_refl _, List.prefix_refl _⟩

theorem trans (before : Extends first second) (after : Extends second third) :
    Extends first third :=
  ⟨Nat.le_trans before.cycles after.cycles, before.outputs.trans after.outputs⟩

end Extends

/-- A processor whose program has ended answers every call with the event that
ended it, and stays as it is. -/
structure Ended (event : Event) (processor : Processor) : Prop where
  step : ∀ {σ : Type} (environment : Environment σ) (state : σ),
    processor.step environment state = (.stopped event, processor, state)
  run : ∀ {σ : Type} (environment : Environment σ) (fuel : Nat) (state : σ),
    processor.run environment fuel state = (.stopped event, processor, state)

theorem ended_of_final {processor : Processor} {event : Event}
    (final : processor.final = some event) : Ended event processor where
  step := by
    intro σ environment state
    rw [Processor.step, final]
  run := by
    intro σ environment fuel state
    rw [Processor.run, final]

theorem mem_codes_of_readout (registers : Registers) {code : Int}
    (shown : registers.readout.opcode = some code) :
    code ∈ ([10, 11, 20, 21, 30, 31, 40, 41, 42, 43] : List Int) := by
  rcases Option.map_eq_some_iff.mp shown with ⟨opcode, _, rfl⟩
  cases opcode <;> decide

theorem halted_iff (processor : Processor) :
    processor.halted = true ↔ ∃ event, processor.final = some event :=
  Option.isSome_iff_exists

section Cycles

variable {σ : Type} {environment : Environment σ} {processor next : Processor} {state rest : σ}
  {size : Int} {progress : Progress}

theorem consistent_ofMemory {memory : Memory} (cells : (memory.size : Int) = size) :
    Consistent size (ofMemory memory) where
  cells := cells
  pc := by
    change 0 ≤ (0 : Int) ∧ (0 : Int) ≤ max size 99
    omega
  operand := by
    change 0 ≤ (0 : Int) ∧ (0 : Int) ≤ 99
    decide
  opcode := fun _ => mem_codes_of_readout _
  ir := by rintro word ⟨⟩
  stoppedAt := by rintro address ⟨⟩
  halted := halted_iff _
  final := by rintro event ⟨⟩

/-- A program that goes on: nothing has ended it, and it is paused nowhere. -/
structure Going (size : Int) (processor : Processor) : Prop where
  consistent : Consistent size processor
  final : processor.final = none
  stoppedAt : processor.stoppedAt = none

/-- The registers of a program that goes on can be any that keep their bounds. -/
theorem Going.of_registers (going : Going size processor)
    (cells : next.memory.size = processor.memory.size)
    (pc : (next.registers.pc : Int) ≤ max size 99) (operand : next.registers.operand ≤ 99)
    (ir : ∀ word, next.registers.ir = some word → Instruction.isWord word = true)
    (final : next.final = processor.final) (stoppedAt : next.stoppedAt = processor.stoppedAt) :
    Going size next := by
  refine ⟨?_, final.trans going.final, stoppedAt.trans going.stoppedAt⟩
  constructor
  case cells => rw [cells, going.consistent.cells]
  case pc => exact ⟨Int.natCast_nonneg _, pc⟩
  case operand => exact ⟨Int.natCast_nonneg _, Int.ofNat_le.mpr operand⟩
  case opcode => exact fun _ => mem_codes_of_readout _
  case ir => exact ir
  case stoppedAt =>
    rw [stoppedAt, going.stoppedAt]
    rintro address ⟨⟩
  case halted => exact halted_iff _
  case final =>
    rw [final, going.final]
    rintro event ⟨⟩

theorem lt_of_inMemory (inside : processor.inMemory = true) :
    processor.registers.pc < processor.memory.size :=
  Memory.isValid_iff.mp inside

/-- A cycle keeps a program going. -/
theorem Going.cycle (going : Going size processor) (inside : processor.inMemory = true)
    (executed : processor.cycle environment state = (progress, next, rest)) :
    Going size next ∧ Extends processor next := by
  have final := final_cycle environment processor state
  have stoppedAt := stoppedAt_cycle environment processor state
  have cells := going.consistent.cells
  have here := lt_of_inMemory inside
  have pcBound := going.consistent.pc.2
  have operandBound : processor.registers.operand ≤ 99 :=
    Int.ofNat_le.mp going.consistent.operand.2
  have how := cycled environment processor state
  rw [executed] at final stoppedAt how
  cases how with
  | malformed => exact ⟨going, .refl processor⟩
  | unknown word =>
      refine ⟨going.of_registers rfl pcBound operandBound ?_ final stoppedAt,
        ⟨Nat.le_refl _, List.prefix_refl _⟩⟩
      rintro _ ⟨⟩
      rw [Instruction.isWord, word]
      rfl
  | @executed opcode operand _ word small execute =>
      have isWord : ∀ text, (some processor.fetch) = some text →
          Instruction.isWord text = true := by
        rintro _ ⟨⟩
        rw [Instruction.isWord, word]
        rfl
      have decoded : Going size (processor.atInstruction opcode operand) :=
        going.of_registers rfl pcBound (Nat.le_of_lt_succ small) isWord rfl rfl
      have counted : Extends processor (processor.atInstruction opcode operand) :=
        ⟨Nat.le_succ _, List.prefix_refl _⟩
      cases progress with
      | advanced refused =>
          have advances := advances_of_execute execute
          have registers := advances.registers
          refine ⟨decoded.of_registers advances.size ?_ ?_ ?_ final stoppedAt,
            counted.trans ⟨?_, advances.outputs⟩⟩
          · rcases advances.pc with pc | pc
            · rw [pc]
              change ((processor.registers.pc + 1 : Nat) : Int) ≤ max size 99
              omega
            · rw [pc]
              have bound : operand ≤ 99 := Nat.le_of_lt_succ small
              omega
          · rw [registers]
            exact Nat.le_of_lt_succ small
          · rw [registers]
            exact isWord
          · exact Nat.le_of_eq (congrArg Registers.cycles registers).symm
      | halted =>
          rw [eq_of_execute_halted execute]
          exact ⟨decoded, counted⟩
      | failed error =>
          have same := execute_of_failed (congrArg Prod.fst execute)
          rw [execute] at same
          rw [show next = _ from same]
          exact ⟨decoded, counted⟩

/-- A halt ends the program at the program counter. -/
theorem Going.finish_halt (going : Going size processor) (state : σ) :
    Consistent size (processor.finish processor.haltEvent state).2.1 :=
  { going.consistent with
    halted := halted_iff _
    final := by
      rintro event ⟨⟩
      exact .inl rfl }

/-- A program counter outside the memory ends the program there. -/
theorem Going.finish_end (going : Going size processor) (outside : processor.inMemory = false)
    (state : σ) : Consistent size (processor.finish processor.endEvent state).2.1 :=
  { going.consistent with
    halted := halted_iff _
    final := by
      rintro event ⟨⟩
      exact .inr ⟨rfl, outside⟩ }

theorem Going.pause (going : Going size processor) :
    Consistent size { processor with stoppedAt := some processor.registers.pc } :=
  { going.consistent with
    stoppedAt := by
      rintro address ⟨⟩
      rfl
    halted := halted_iff _
    final := going.consistent.final }

/-- A consistent processor whose program has not ended is going once it forgets
where it was paused. -/
theorem Consistent.going (consistent : Consistent size processor)
    (final : processor.final = none) : Going size { processor with stoppedAt := none } where
  consistent :=
    { consistent with
      stoppedAt := by rintro address ⟨⟩
      halted := halted_iff _
      final := consistent.final }
  final := final
  stoppedAt := rfl

end Cycles

/-! ## Steps and runs -/

section Calls

variable {σ : Type} {processor next : Processor} {size : Int}

theorem consistent_runFrom (environment : Environment σ) (fuel : Nat) (resumed : Option Nat)
    (going : Going size processor) (state : σ) :
    Consistent size (runFrom environment fuel resumed processor state).2.1 ∧
      Extends processor (runFrom environment fuel resumed processor state).2.1 := by
  induction fuel generalizing resumed processor state with
  | zero => exact ⟨going.consistent, .refl processor⟩
  | succ fuel ih =>
      rw [runFrom]
      split
      · next inside =>
          rcases processor.permits environment resumed state with ⟨allowed, asked⟩
          cases allowed with
          | false => exact ⟨going.pause, ⟨Nat.le_refl _, List.prefix_refl _⟩⟩
          | true =>
              simp only
              rcases executed : processor.cycle environment asked with ⟨progress, after, rest⟩
              rcases going.cycle inside executed with ⟨later, extended⟩
              cases progress with
              | advanced refused =>
                  cases refused with
                  | none =>
                      rcases ih none later rest with ⟨consistent, further⟩
                      exact ⟨consistent, extended.trans further⟩
                  | some write => exact ⟨later.consistent, extended⟩
              | halted => exact ⟨later.finish_halt rest, extended.cycles, extended.outputs⟩
              | failed error => exact ⟨later.consistent, extended⟩
      · next outside =>
          rw [Bool.not_eq_true] at outside
          exact ⟨going.finish_end outside state, ⟨Nat.le_refl _, List.prefix_refl _⟩⟩

theorem Consistent.run (consistent : Consistent size processor) (environment : Environment σ)
    (fuel : Nat) (state : σ) :
    Consistent size (processor.run environment fuel state).2.1 ∧
      Extends processor (processor.run environment fuel state).2.1 := by
  rw [Processor.run]
  split
  · exact ⟨consistent, .refl processor⟩
  · next final =>
      rcases consistent_runFrom environment fuel processor.stoppedAt (consistent.going final) state
        with ⟨after, extended⟩
      exact ⟨after, extended.cycles, extended.outputs⟩

theorem Consistent.step (consistent : Consistent size processor) (environment : Environment σ)
    (state : σ) :
    Consistent size (processor.step environment state).2.1 ∧
      Extends processor (processor.step environment state).2.1 := by
  rw [Processor.step]
  split
  · exact ⟨consistent, .refl processor⟩
  · next final =>
      have going := consistent.going final
      simp only
      split
      · next inside =>
          rcases executed : Processor.cycle environment { processor with stoppedAt := none } state
            with ⟨progress, after, rest⟩
          rcases going.cycle inside executed with ⟨later, extended⟩
          have forward : Extends processor after := ⟨extended.cycles, extended.outputs⟩
          cases progress with
          | advanced refused => exact ⟨later.consistent, forward⟩
          | halted => exact ⟨later.finish_halt rest, forward.cycles, forward.outputs⟩
          | failed error => exact ⟨later.consistent, forward⟩
      · next outside =>
          rw [Bool.not_eq_true] at outside
          exact ⟨going.finish_end outside state, ⟨Nat.le_refl _, List.prefix_refl _⟩⟩

/-- Every call keeps a processor consistent and extends it. -/
theorem Consistent.goesOnBy (consistent : Consistent size processor)
    (goesOn : GoesOnBy processor next) : Consistent size next ∧ Extends processor next := by
  cases goesOn with
  | step environment state => exact consistent.step environment state
  | run environment fuel state => exact consistent.run environment fuel state
  | store stored =>
      rcases map_eq_ok_iff.mp stored with ⟨memory, written, rfl⟩
      have cells := Memory.size_of_write written
      have bounds : ∀ pc : Nat, memory.isValid pc = processor.memory.isValid pc := by
        intro pc
        rw [Memory.isValid, Memory.isValid, cells]
      refine ⟨?_, ⟨Nat.le_refl _, List.prefix_refl _⟩⟩
      exact
        { consistent with
          cells := by rw [cells, consistent.cells]
          final := by
            intro event ended
            refine (consistent.final event ended).imp_right ?_
            rintro ⟨same, outside⟩
            exact ⟨same, (bounds _).trans outside⟩ }

/-- A program that has ended is left as it is by every call, except that cells
can be changed. -/
theorem GoesOnBy.of_final (goesOn : GoesOnBy processor next) {event : Event}
    (final : processor.final = some event) :
    next.final = some event ∧ next.registers = processor.registers ∧
      next.outputs = processor.outputs := by
  have ended := ended_of_final final
  cases goesOn with
  | store stored =>
      rcases map_eq_ok_iff.mp stored with ⟨memory, _, rfl⟩
      exact ⟨final, rfl, rfl⟩
  | step environment state =>
      rw [ended.step environment state]
      exact ⟨final, rfl, rfl⟩
  | run environment fuel state =>
      rw [ended.run environment fuel state]
      exact ⟨final, rfl, rfl⟩

end Calls

/-! ## Refused writes -/

section Writes

variable {σ : Type} {environment : Environment σ} {processor next : Processor} {state rest : σ}
  {event : Event}

/-- A refused write is that of the instruction itself. -/
theorem refused_of_cycle {address : Nat} {value : String}
    (executed : processor.cycle environment state =
      (.advanced (some (address, value)), next, rest)) :
    next.written? = some (address, value) ∧
      ∃ asked, environment.accepts address value asked = (false, rest) := by
  rw [cycle_eq_ask] at executed
  rcases unobserved : processor.cycle environment.unobserved state with ⟨progress, after, asked⟩
  rw [unobserved] at executed
  cases progress with
  | advanced refused =>
      unfold ask at executed
      cases written : after.written? with
      | none =>
          simp only [written] at executed
          cases executed
      | some cell =>
          rcases cell with ⟨place, text⟩
          rcases answer : environment.accepts place text asked with ⟨accepted, told⟩
          simp only [written, answer] at executed
          cases accepted with
          | true => cases executed
          | false =>
              cases executed
              exact ⟨written, asked, answer⟩
  | halted => cases executed
  | failed error => cases executed

/-- A run that stops at a write made it itself, and its own observer refused
it. -/
structure StoppedAtWrite (environment : Environment σ) (processor next : Processor) (rest : σ)
    (event : Event) : Prop where
  cycles : processor.registers.cycles < next.registers.cycles
  refused : ∃ address value asked,
    event = { reason := .memoryWrite, address := some (address : Nat), value := some value } ∧
      next.written? = some (address, value) ∧
      environment.accepts address value asked = (false, rest)

theorem stoppedAtWrite_of_runFrom {size : Int} {fuel : Nat} {resumed : Option Nat}
    (going : Going size processor)
    (ran : runFrom environment fuel resumed processor state = (.stopped event, next, rest))
    (reason : event.reason = .memoryWrite) :
    StoppedAtWrite environment processor next rest event := by
  induction fuel generalizing resumed processor state with
  | zero => cases ran
  | succ fuel ih =>
      rw [runFrom] at ran
      split at ran
      · next inside =>
          rcases permitted : processor.permits environment resumed state with ⟨allowed, asked⟩
          rw [permitted] at ran
          cases allowed with
          | false =>
              cases ran
              cases reason
          | true =>
              simp only at ran
              rcases executed : processor.cycle environment asked with ⟨progress, after, told⟩
              rw [executed] at ran
              rcases going.cycle inside executed with ⟨later, extended⟩
              cases progress with
              | advanced refused =>
                  cases refused with
                  | none =>
                      have stopped := ih later ran
                      exact ⟨Nat.lt_of_le_of_lt extended.cycles stopped.cycles, stopped.refused⟩
                  | some write =>
                      rcases write with ⟨address, value⟩
                      cases ran
                      rcases refused_of_cycle executed with ⟨written, before, answer⟩
                      refine ⟨?_, address, value, before, rfl, written, answer⟩
                      rw [cycles_cycle executed (by rintro error ⟨⟩)]
                      exact Nat.lt_succ_self _
              | halted =>
                  cases ran
                  cases reason
              | failed error => cases ran
      · cases ran
        cases reason

/-- No write of an earlier call stops a run. -/
theorem Consistent.stoppedAtWrite_of_run {size : Int} {fuel : Nat}
    (consistent : Consistent size processor)
    (ran : processor.run environment fuel state = (.stopped event, next, rest))
    (reason : event.reason = .memoryWrite) :
    StoppedAtWrite environment processor next rest event := by
  rw [Processor.run] at ran
  split at ran
  · next ended =>
      cases ran
      rcases consistent.final _ ended with rfl | ⟨rfl, _⟩
      · cases reason
      · cases reason
  · next final =>
      have stopped := stoppedAtWrite_of_runFrom (consistent.going final) ran reason
      exact ⟨stopped.cycles, stopped.refused⟩

end Writes

/-! ## Histories -/

theorem Reached.consistent {size : Int} {processor : Processor}
    (reached : Reached size processor) : Consistent size processor := by
  induction reached with
  | create created =>
      rcases map_eq_ok_iff.mp created with ⟨memory, made, rfl⟩
      apply consistent_ofMemory
      unfold Memory.create at made
      split at made
      · cases made
      split at made
      · cases made
      split at made
      · cases made
      next positive _ _ =>
      cases made
      rw [Memory.size_ofSize]
      omega
  | load loaded _ ih =>
      rcases map_eq_ok_iff.mp loaded with ⟨memory, filled, rfl⟩
      apply consistent_ofMemory
      rw [Memory.size_of_load filled, ih.cells]
  | reset _ ih =>
      apply consistent_ofMemory
      rw [Memory.size_clear, ih.cells]
  | call goesOn _ ih => exact (ih.goesOnBy goesOn).1

/-- Every processor that calls lead to is consistent, no write of an earlier call
stops it, and until it is loaded or reset its count grows, its outputs are
extended, and it stays ended once it has. -/
theorem consistent_of_reached {size : Int} {processor : Processor}
    (reached : Reached size processor) :
    Consistent size processor ∧
    (∀ {σ : Type} (environment : Environment σ) fuel state event next rest,
      processor.run environment fuel state = (.stopped event, next, rest) →
        event.reason = .memoryWrite → StoppedAtWrite environment processor next rest event) ∧
    ∀ next, Relation.ReflTransGen GoesOnBy processor next →
      Extends processor next ∧
      ∀ event, processor.final = some event →
        next.final = some event ∧ next.registers = processor.registers ∧
          next.outputs = processor.outputs ∧ Ended event next := by
  have consistent := reached.consistent
  refine ⟨consistent, ?_, ?_⟩
  · intro σ environment fuel state event next rest ran reason
    exact consistent.stoppedAtWrite_of_run ran reason
  · intro next calls
    -- Along the calls the processor stays consistent, which is what the next one needs.
    suffices along : Consistent size next ∧ Extends processor next ∧
        ∀ event, processor.final = some event →
          next.final = some event ∧ next.registers = processor.registers ∧
            next.outputs = processor.outputs by
      refine ⟨along.2.1, ?_⟩
      intro event final
      rcases along.2.2 event final with ⟨nextFinal, registers, outputs⟩
      exact ⟨nextFinal, registers, outputs, ended_of_final nextFinal⟩
    induction calls with
    | refl => exact ⟨consistent, .refl processor, fun _ final => ⟨final, rfl, rfl⟩⟩
    | tail _ goesOn ih =>
        rcases ih with ⟨middle, extended, stays⟩
        rcases middle.goesOnBy goesOn with ⟨after, further⟩
        refine ⟨after, extended.trans further, ?_⟩
        intro event final
        rcases stays event final with ⟨middleFinal, registers, outputs⟩
        rcases goesOn.of_final middleFinal with ⟨nextFinal, nextRegisters, nextOutputs⟩
        exact ⟨nextFinal, nextRegisters.trans registers, nextOutputs.trans outputs⟩

/-- A processor of two cells is loaded with a branch out of its memory, and run
until it is there. -/
theorem consistent_of_reached_branch :
    ∃ created loaded processor : Processor, create 2 = .ok created ∧
      created.load ["4042"] = .ok loaded ∧
      processor = (loaded.run .ofInputs 2 []).2.1 ∧ Reached 2 processor ∧
      processor.registers.pc = 42 ∧
      processor.final = some { reason := .endOfMemory, address := some 42 } ∧
      Consistent 2 processor ∧ Extends processor processor ∧
      Ended { reason := .endOfMemory, address := some 42 } processor := by
  have loaded : (ofMemory (.ofSize 2)).load ["4042"] = .ok (ofMemory ⟨#["4042", "0000"]⟩) := by
    decide +kernel
  have final : ((ofMemory ⟨#["4042", "0000"]⟩).run .ofInputs 2 []).2.1.final =
      some { reason := .endOfMemory, address := some 42 } := by
    decide +kernel
  have reached : Reached 2 ((ofMemory ⟨#["4042", "0000"]⟩).run .ofInputs 2 []).2.1 :=
    .call (.run _ _ _) (.load loaded (.create rfl))
  rcases consistent_of_reached reached with ⟨consistent, _, along⟩
  rcases along _ .refl with ⟨extended, stays⟩
  exact ⟨_, _, _, rfl, loaded, rfl, reached, by decide +kernel, final, consistent, extended,
    (stays _ final).2.2.2⟩

end DecimalMachine.Processor
