import DecimalMachine.Proofs.Debug.Breakpoints
import DecimalMachine.Proofs.Machine.Calls
import DecimalMachine.Proofs.Processor.History
import DecimalMachine.Proofs.Processor.Stopping

/-!
# Stops of observed runs

Hooks and breakpoints are observers.  A run with either stops where there is
first a reason to, and a machine reports of such a stop the event that its
breakpoints keep: no event of an earlier step or run is left over.
-/

namespace DecimalMachine

open Processor Semantics

variable {σ τ : Type}

/-! ## Hooks -/

/-- An environment with hooks that only look. -/
def Environment.hooked (environment : Environment σ) (allows : Registers → String → Bool)
    (accepts : Nat → String → Bool) : Environment σ :=
  { environment with
    allows := fun registers word state => (allows registers word, state)
    accepts := fun address value state => (accepts address value, state) }

/-- The observer with such hooks, whose objections are reported by their
address. -/
def Processor.Observer.ofHooks (allows : Registers → String → Bool)
    (accepts : Nat → String → Bool) : Observer where
  ToInstruction registers word event :=
    allows registers word = false ∧
      event = { reason := .breakpoint, address := some registers.pc }
  ToWrite address value event :=
    accepts address value = false ∧
      event = { reason := .memoryWrite, address := some address, value := some value }
  instruction_unique := fun one other => one.2.trans other.2.symm
  write_unique := fun one other => one.2.trans other.2.symm

theorem watches_hooked (environment : Environment σ) (allows : Registers → String → Bool)
    (accepts : Nat → String → Bool) :
    Watches (environment.hooked allows accepts) environment.unobserved (.ofHooks allows accepts)
      (· = ·) (fun own event state other => own = event ∧ state = other) where
  mirrors := mirrors_self ⟨fun _ _ _ => rfl, fun _ _ _ => rfl⟩
  allows := by
    rintro state other registers word rfl
    simp only [Environment.hooked, Observer.ofHooks]
    cases allows registers word with
    | true => exact .agrees (by simp) rfl
    | false => exact .objects ⟨rfl, rfl⟩ ⟨rfl, rfl⟩
  accepts := by
    rintro state other address value rfl
    simp only [Environment.hooked, Observer.ofHooks]
    cases accepts address value with
    | true => exact .agrees (by simp) rfl
    | false => exact .objects ⟨rfl, rfl⟩ ⟨rfl, rfl⟩

/-- A run with hooks reports their objections as they are. -/
theorem eq_of_reports {ran result : Outcome × Processor × σ}
    (reports : Reports (· = ·) (fun own event state other => own = event ∧ state = other) ran
      result) : ran = result := by
  cases reports with
  | ends ends related => rw [related]
  | objects noted => rw [noted.1, noted.2]

/-! ## Breakpoints -/

/-- The objections of breakpoints. -/
def Breakpoints.observer (breakpoints : Breakpoints) : Observer where
  ToInstruction := breakpoints.StopsBefore
  ToWrite := breakpoints.StopsAfter
  instruction_unique := StopsBefore.unique
  write_unique := StopsAfter.unique

/-- Breakpoints keep the event of an objection. -/
structure Breakpoints.Keeps (breakpoints : Breakpoints) (own event : Event)
    (state : Breakpoints × τ) (other : τ) : Prop where
  own : own.reason = .breakpoint ∨ own.reason = .memoryWrite
  pauses : event.halted = false
  state : state = ({ breakpoints with lastEvent := some event }, other)

theorem watches_breakpoints (console : Console τ) (breakpoints : Breakpoints) :
    Watches (Machine.environment console) console.plain breakpoints.observer
      (fun state other => state = (breakpoints.clearLastEvent, other)) breakpoints.Keeps where
  mirrors := {
    unobserved := console.unobserved_plain
    input := by
      rintro _ other address rfl
      exact ⟨rfl, rfl⟩
    output := by
      rintro _ other address value rfl
      rfl
    trace := by
      rintro _ other registers rfl
      rfl
    allows := by
      rintro _ other registers word rfl
      rfl
    accepts := by
      rintro _ other address value rfl
      rfl }
  allows := by
    rintro _ other registers word rfl
    have same : breakpoints.clearLastEvent.stopBefore? registers.readout registers.pc word =
        breakpoints.stopBefore? registers.readout registers.pc word := rfl
    simp only [Machine.environment, Breakpoints.checkInstruction, same]
    cases stop : breakpoints.stopBefore? registers.readout registers.pc word with
    | none =>
        refine .agrees (fun event objection => ?_) rfl
        rw [Breakpoints.stopBefore?_eq_some_iff.mpr objection] at stop
        cases stop
    | some event =>
        exact .objects (Breakpoints.stopBefore?_eq_some_iff.mp stop)
          ⟨.inl rfl, Breakpoints.halted_of_stopBefore stop, rfl⟩
  accepts := by
    rintro _ other address value rfl
    have same : breakpoints.clearLastEvent.stopAfter? address value =
        breakpoints.stopAfter? address value := rfl
    simp only [Machine.environment, Breakpoints.checkWrite, same]
    cases stop : breakpoints.stopAfter? address value with
    | none =>
        refine .agrees (fun event objection => ?_) rfl
        rw [Breakpoints.stopAfter?_eq_some_iff.mpr objection] at stop
        cases stop
    | some event =>
        exact .objects (Breakpoints.stopAfter?_eq_some_iff.mp stop)
          ⟨.inr rfl, Breakpoints.halted_of_stopAfter stop, rfl⟩

/-- The event of a stop that is no end. -/
def Processor.Outcome.pause? : Outcome → Option Event
  | .stopped event => if event.halted then none else some event
  | _ => none

namespace Machine

theorem pause?_of_ends {outcome : Outcome} (ends : outcome.Ends) : outcome.pause? = none := by
  cases outcome with
  | stopped event => exact if_pos ends
  | failed error => rfl
  | unfinished => rfl

theorem ne_unfinished_of_report {breakpoints : Breakpoints} {outcome : Outcome}
    (finished : report breakpoints outcome ≠ .unfinished) : outcome ≠ .unfinished := by
  rintro rfl
  exact finished rfl

theorem report_ne_unfinished {breakpoints : Breakpoints} {outcome : Outcome}
    (finished : outcome ≠ .unfinished) : report breakpoints outcome ≠ .unfinished := by
  cases outcome with
  | stopped event => rintro ⟨⟩
  | failed error => rintro ⟨⟩
  | unfinished => exact absurd rfl finished

/-- What a machine reports of a run that finished, and the event that its
breakpoints keep. -/
theorem report_of_reports {breakpoints : Breakpoints} {ran : Outcome × Processor × Breakpoints × τ}
    {result : Outcome × Processor × τ}
    (reports : Reports (fun state other => state = (breakpoints.clearLastEvent, other))
      breakpoints.Keeps ran result) :
    (report ran.2.2.1 ran.1, ran.2.1, ran.2.2.2) = result ∧
      ran.2.2.1 = { breakpoints with lastEvent := result.1.pause? } := by
  cases reports with
  | ends ends related =>
      subst related
      rw [report_of_ends _ ends, pause?_of_ends ends]
      exact ⟨rfl, rfl⟩
  | @objects own event next rest other noted =>
      obtain ⟨reason, pauses, rfl⟩ := noted
      have told : reported { breakpoints with lastEvent := some event } own = event := by
        rcases reason with reason | reason <;> simp only [reported, reason, Option.getD_some]
      simp [report, told, Outcome.pause?, pauses]

end Machine

/-! ## The first stop -/

/-- Runs stop at the first state of the plain execution at which there is a
reason to, and go on for ever if there is none. -/
structure StopsFirst (deeds : List Deed) (processor : Processor) : Prop where
  /-- A run with hooks reports the first stop, with the state there. -/
  hooked : ∀ {σ : Type} (environment : Environment σ) (allows : Registers → String → Bool)
      (accepts : Nat → String → Bool) (state : σ) (result : Outcome × Processor × σ),
    (∃ fuel, processor.run (environment.hooked allows accepts) fuel state = result ∧
        result.1 ≠ .unfinished) ↔
      FirstStop environment.unobserved (.ofHooks allows accepts)
        (pausedAt? deeds = some (processor.registers.pc : Int))
        (processor.withStops none none, state) result
  /-- A run of a machine reports the event of its breakpoints at the first stop,
  and this is the event that they keep. -/
  machine : ∀ {τ : Type} (console : Console τ) (breakpoints : Breakpoints) (state : τ)
      (outcome : Outcome) (next : Machine) (rest : τ),
    (∃ fuel, Machine.run console fuel ⟨processor, breakpoints⟩ state = (outcome, next, rest) ∧
        outcome ≠ .unfinished) ↔
      FirstStop console.plain breakpoints.observer
          (pausedAt? deeds = some (processor.registers.pc : Int))
          (processor.withStops none none, state) (outcome, next.processor, rest) ∧
        next.breakpoints = { breakpoints with lastEvent := outcome.pause? }

/-- Whatever was done to a processor, as long as its program has not ended its
runs stop exactly where there is first a reason to. -/
theorem stopsFirst_of_underwent {deeds : List Deed} {processor : Processor}
    (underwent : Underwent deeds processor) (going : processor.halted = false) :
    StopsFirst deeds processor := by
  have going : processor.final = none := by simpa [Processor.halted] using going
  have exempt : (processor.stoppedAt = some processor.registers.pc) =
      (pausedAt? deeds = some (processor.registers.pc : Int)) :=
    propext (underwent.stoppedAt_eq_iff _)
  constructor
  · intro σ environment allows accepts state result
    have watches := watches_hooked environment allows accepts
    rw [← exempt]
    constructor
    · rintro ⟨fuel, rfl, finished⟩
      obtain ⟨result, reports, stops⟩ := exists_firstStop_of_run watches rfl going finished
      rw [eq_of_reports reports]
      exact stops
    · intro stops
      obtain ⟨fuel, reports⟩ := exists_run_of_firstStop watches rfl going stops
      have same := eq_of_reports reports
      exact ⟨fuel, same, same ▸ reports.finished⟩
  · intro τ console breakpoints state outcome next rest
    have watches := watches_breakpoints console breakpoints
    rw [← exempt]
    constructor
    · rintro ⟨fuel, run, finished⟩
      rw [Machine.run_eq] at run
      cases run
      obtain ⟨result, reports, stops⟩ := exists_firstStop_of_run watches rfl going
        (Machine.ne_unfinished_of_report finished)
      obtain ⟨rfl, kept⟩ := Machine.report_of_reports reports
      exact ⟨stops, kept⟩
    · rintro ⟨stops, kept⟩
      obtain ⟨fuel, reports⟩ := exists_run_of_firstStop watches rfl going stops
      obtain ⟨told, keeps⟩ := Machine.report_of_reports reports
      simp only [Prod.mk.injEq] at told
      obtain ⟨told, sameProcessor, sameState⟩ := told
      refine ⟨fuel, ?_, ?_⟩
      · simp only [Machine.run_eq, told, sameProcessor, sameState]
        rw [keeps, ← kept]
      · rw [← told]
        exact Machine.report_ne_unfinished reports.finished

/-- A processor that was stopped before a store. Its next run executes the store,
also where that has a breakpoint. Then it stops for the cell that was written, for
the breakpoint at the halt, for the first condition that is met there, or for the
halt. -/
theorem stopsFirst_of_underwent_store :
    let deeds : List Deed := [.run (.stopped { reason := .breakpoint, address := some 1 }), .load]
    let paused : Processor :=
      { memory := ⟨#["2003", "2104", "4300", "7", "0"]⟩
        registers := ⟨1, some "2003", some .load, 3, "7", 1⟩
        outputs := []
        final := none
        stoppedAt := some 1 }
    let stored : Processor :=
      { memory := ⟨#["2003", "2104", "4300", "7", "7"]⟩
        registers := ⟨2, some "2104", some .store, 4, "7", 2⟩
        outputs := []
        final := none
        stoppedAt := none }
    let terminated : Event := ⟨.halt, some 2, none, "Program terminated"⟩
    let console : Console Unit := ⟨fun _ _ => (none, ()), fun _ _ _ => (), fun _ _ => ()⟩
    let negative : Condition := ⟨.accumulator, .lt, 0, "negative"⟩
    let seven : Condition := ⟨.accumulator, .eq, 7, "seven"⟩
    let behind : Condition := ⟨.pc, .gt, 1, "behind"⟩
    let first := fun (breakpoints : Breakpoints) outcome next =>
      FirstStop console.plain breakpoints.observer (pausedAt? deeds = some 1)
        (paused.withStops none none, ()) (outcome, next, ())
    Underwent deeds paused ∧ paused.halted = false ∧ StopsFirst deeds paused ∧
      first ⟨[1, 2], [4], [seven], none⟩
        (.stopped ⟨.memoryWrite, some 4, some "7", "Write 7 to 04"⟩) stored ∧
      first ⟨[1, 2], [3], [seven], none⟩
        (.stopped ⟨.breakpoint, some 2, none, "Breakpoint at 02 (4300)"⟩)
        { stored with stoppedAt := some 2 } ∧
      first ⟨[1], [], [negative, seven, behind], none⟩
        (.stopped ⟨.condition, some 2, none, "Condition: seven"⟩)
        { stored with stoppedAt := some 2 } ∧
      first ⟨[1], [], [negative], none⟩ (.stopped terminated)
        { stored with
          registers := ⟨2, some "4300", some .halt, 0, "7", 3⟩
          final := some terminated } := by
  intro deeds paused stored terminated console negative seven behind first
  have loaded : (ofMemory (.ofSize 5)).load ["2003", "2104", "4300", "7", "0"] =
      .ok (ofMemory ⟨#["2003", "2104", "4300", "7", "0"]⟩) := by
    decide +kernel
  have ran : (ofMemory ⟨#["2003", "2104", "4300", "7", "0"]⟩).run
      (Environment.ofInputs.hooked (fun registers _ => registers.pc != 1) fun _ _ => true) 2 [] =
        (.stopped { reason := .breakpoint, address := some 1 }, paused, []) := by
    decide +kernel
  have underwent := Underwent.run
    (Environment.ofInputs.hooked (fun registers _ => registers.pc != 1) fun _ _ => true) 2 []
    (.load loaded (.create _))
  rw [ran] at underwent
  have stops := stopsFirst_of_underwent underwent rfl
  have told : ∀ breakpoints outcome next,
      Machine.run console 2 ⟨paused, breakpoints⟩ () =
        (outcome, ⟨next, { breakpoints with lastEvent := outcome.pause? }⟩, ()) →
      outcome ≠ .unfinished → first breakpoints outcome next := by
    intro breakpoints outcome next run finished
    exact ((stops.machine console breakpoints () outcome ⟨next, _⟩ ()).mp ⟨2, run, finished⟩).1
  refine ⟨underwent, rfl, stops, ?_, ?_, ?_, ?_⟩
  · exact told _ _ _ (by decide +kernel) (by simp)
  · exact told _ _ _ (by decide +kernel) (by simp)
  · exact told _ _ _ (by decide +kernel) (by simp)
  · exact told _ _ _ (by decide +kernel) (by simp)

/-- The exemption lasts for one instruction, also where that leads back to
itself. -/
example :
    let processor : Processor := { ofMemory ⟨#["4000"]⟩ with stoppedAt := some 0 }
    let ran := processor.run (Environment.ofInputs.hooked (fun _ _ => false) fun _ _ => true) 5 []
    ran.1 = .stopped { reason := .breakpoint, address := some 0 } ∧
      ran.2.1.registers.cycles = 1 := by
  decide

end DecimalMachine
