import DecimalMachine.Proofs.Processor.Cycle
import DecimalMachine.Proofs.Processor.Running
import DecimalMachine.Proofs.Program.Simulation

/-!
# Refinement of sources by runs

A run of a compiled program does what its source says.  The execution of the
source is simulated by that of the code, which the processor follows cycle by
cycle, so a run comes to an end if and only if the source does, with the same
outputs and the same inputs left, and passes through all states of the source
on its way.
-/

namespace DecimalMachine.Program

open Semantics Processor

/-! ## From code to cycles -/

/-- How the processor ends where the code does. -/
inductive Concludes (code : List Emitted) (size : Nat) :
    Stop × Values → Outcome × Processor × List String → Prop where
  | halted {values : Values} {processor : Processor} {position : Nat}
      (represents : Represents code size processor ⟨position, values⟩) :
      Concludes code size (.halted, values)
        (.stopped processor.haltEvent, processor, values.inputs)
  | failed {values : Values} {processor : Processor} {position : Nat} {error : ExecutionError}
      (meaning : stopOfError error ≠ .meaningless)
      (represents : Represents code size processor ⟨position, values⟩) :
      Concludes code size (stopOfError error, values) (.failed error, processor, values.inputs)

/-- A processor with the inputs that it has not read, at a point of a
program. -/
def At (code : List Emitted) (size : Nat) (point : Point) (state : Processor × List String) :
    Prop :=
  Represents code size state.1 point ∧ state.2 = point.values.inputs

/-- The processor executes the code instruction by instruction. -/
theorem lockstep_plainCycle {code : List Emitted} {size : Nat} (executable : Executable code)
    (fits : extent code ≤ size) :
    Lockstep (codeStep code) (plainCycle .ofInputs) (At code size) (Concludes code size) where
  step := by
    rintro point ⟨processor, inputs⟩ next ⟨represents, rfl⟩ taken
    have follows := follows_cycle executable represents fits
    rw [taken] at follows
    simp only [plainCycle, represents.inMemory fits, if_true]
    generalize processor.cycle .ofInputs point.values.inputs = executed at follows
    cases follows with
    | advanced after => exact ⟨_, rfl, after, rfl⟩
  ending := by
    rintro point ⟨processor, inputs⟩ ending ⟨represents, rfl⟩ taken
    have follows := follows_cycle executable represents fits
    rw [taken] at follows
    simp only [plainCycle, represents.inMemory fits, if_true]
    generalize processor.cycle .ofInputs point.values.inputs = executed at follows
    cases follows with
    | @halted final values last =>
        have ended : Represents code size { final with final := some final.haltEvent }
            ⟨point.position, values⟩ := { last with }
        exact ⟨_, rfl, .halted ended⟩
    | failed meaning last => exact ⟨_, rfl, .failed meaning last⟩

/-! ## From lines to cycles -/

section Loaded

variable {options : CompileOptions} {file source : String} {lines : List Line} {layout : Layout}
  {body : List Emitted} {symbols : SymbolTable} {program : Program}

/-- A program that was loaded stands at its first line. -/
theorem Accepted.represents_load
    (accepted : Accepted options file source lines layout body symbols program)
    {processor : Processor} (fits : program.words.length ≤ processor.memory.size) :
    ∃ loaded, processor.load program.words = .ok loaded ∧ loaded.final = none ∧
      loaded.stoppedAt = none ∧ extent program.code ≤ processor.memory.size ∧
      ∀ inputs, Represents program.code processor.memory.size loaded
        (initialPoint lines inputs) := by
  have assembled := accepted.assembled
  obtain ⟨memory, load, cells⟩ := assembled.load_words accepted.executable fits
  refine ⟨Processor.ofMemory memory, by rw [Processor.load, load]; rfl, rfl, rfl, ?_, ?_⟩
  · rwa [← assembled.length_words]
  · intro inputs
    rw [map_line_marks accepted.read] at cells
    exact {
      pc := rfl
      inside := accepted.executable.length_pos
      accumulator := rfl
      outputs := rfl
      cells := cells
      writable := accepted.writable_literal
      writableAccumulator := Decimal.writable_zero }

/-- The lines of an accepted source are simulated by the cycles of a processor
that holds its program. -/
theorem Accepted.simulation
    (accepted : Accepted options file source lines layout body symbols program) {size : Nat}
    (fits : extent program.code ≤ size) :
    Simulation (lineStep program.eliminated lines) (plainCycle .ofInputs)
      (fun point state => ∃ middle,
        Matches (marks options.optimize lines) program.code point middle ∧
          At program.code size middle state)
      (fun ending ended => ∃ middle, SameEnd ending middle ∧
        Concludes program.code size middle ended)
      (fun point => (marks options.optimize lines).length - point.position) := by
  have simulation := accepted.assembled.simulation (ends_marks accepted.read options.optimize)
  rw [map_line_marks accepted.read] at simulation
  exact Lockstep.simulation simulation (lockstep_plainCycle accepted.executable fits)

theorem Accepted.matches_initial
    (accepted : Accepted options file source lines layout body symbols program)
    (inputs : List String) :
    Matches (marks options.optimize lines) program.code (initialPoint lines inputs)
      (initialPoint lines inputs) where
  position := rfl
  values := rfl
  within := Nat.zero_le _
  inside := accepted.executable.length_pos

end Loaded

/-! ## What a run shows -/

/-- A processor shows the values of a running program: every variable in the
cell that the program gave it, the accumulator and the outputs. -/
structure Shows (program : Program) (processor : Processor) (values : Values) : Prop where
  variableCells : ∀ name address, (name, address) ∈ SymbolTable.addresses program.symbols →
    processor.memory.read address = .ok (Decimal.text (values.contents name))
  accumulator : processor.registers.accumulator = Decimal.text values.accumulator
  outputs : processor.outputs = values.outputs.map Decimal.text

/-- A run ends as its source does. Where a number is too long the variables may
be those in the middle of an expression. -/
inductive EndsAs (program : Program) : Stop → Values → Outcome → Processor → Prop where
  | halted {values : Values} {processor : Processor} (shows : Shows program processor values) :
      EndsAs program .halted values (.stopped processor.haltEvent) processor
  | noInput {values : Values} {processor : Processor} {fault : Fault} {address : Nat}
      (cause : fault.cause = .noInput address) (shows : Shows program processor values) :
      EndsAs program .noInput values (.failed (.fault fault)) processor
  | notInteger {values : Values} {processor : Processor} {fault : Fault} {text : String}
      (cause : fault.cause = .inputNotInteger text) (shows : Shows program processor values) :
      EndsAs program (.notInteger text) values (.failed (.fault fault)) processor
  | tooLong {values : Values} {processor : Processor} {error : Decimal.LimitError}
      (outputs : processor.outputs = values.outputs.map Decimal.text) :
      EndsAs program (.tooLong error) values (.failed (.limit error)) processor

/-- A variable with an address has its cell there. -/
theorem Assembled.eq_cellOf {maxWords : Int} {implicitHalt : Bool} {lines : List Marked}
    {layout : Layout} {body : List Emitted} {symbols : SymbolTable} {program : Program}
    (assembled : Assembled maxWords implicitHalt lines layout body symbols program)
    {name : String} {address : Int}
    (member : (name, address) ∈ SymbolTable.addresses program.symbols) :
    name ∈ slots program.code ∧ address = cellOf program.code name := by
  obtain ⟨⟨entry, place⟩, allocated, same⟩ := List.mem_map.mp member
  cases same
  rw [SymbolTable.allocated, List.mem_mergeSort, List.mem_filterMap] at allocated
  obtain ⟨other, otherMem, found⟩ := allocated
  rw [assembled.symbols, allocate, Table.mapValues, List.mem_map] at otherMem
  obtain ⟨declared, _, rfl⟩ := otherMem
  simp only [Option.map_eq_some_iff, address?] at found
  obtain ⟨_, ⟨_, ⟨index, found, rfl⟩, rfl⟩, same⟩ := found
  cases same
  have first : index < (slots program.code).length ∧
      (slots program.code).idxOf declared.name = index :=
    List.findIdx?_eq_some_iff_findIdx_eq.mp found
  constructor
  · exact List.idxOf_lt_length_iff.mp (first.2.symm ▸ first.1)
  · rw [cellOf, first.2]
    rfl

section Results

variable {maxWords : Int} {implicitHalt : Bool} {marked : List Marked} {layout : Layout}
  {body : List Emitted} {symbols : SymbolTable} {program : Program} {size : Nat}

theorem Assembled.shows
    (assembled : Assembled maxWords implicitHalt marked layout body symbols program)
    {processor : Processor} {point : Point}
    (represents : Represents program.code size processor point) :
    Shows program processor point.values where
  variableCells := by
    intro name address member
    obtain ⟨known, rfl⟩ := assembled.eq_cellOf member
    have here : (image program.code point.values.contents size)[cellOf program.code name]? =
        some (Decimal.text (point.values.contents name)) := image_variable known
    rw [← represents.cells] at here
    exact Memory.read_of_getElem? here
  accumulator := represents.accumulator
  outputs := represents.outputs

/-- A processor that concludes the code ends as the source does. -/
theorem Assembled.endsAs
    (assembled : Assembled maxWords implicitHalt marked layout body symbols program)
    {stop : Stop} {values : Values} {middle : Stop × Values} {outcome : Outcome}
    {processor : Processor} {rest : List String} (same : SameEnd (stop, values) middle)
    (concludes : Concludes program.code size middle (outcome, processor, rest)) :
    rest = values.inputs ∧ EndsAs program stop values outcome processor := by
  obtain ⟨sameStop, sameInputs, sameOutputs, sameValues⟩ := same
  cases concludes with
  | halted represents =>
      cases sameStop
      cases sameValues (by simp)
      exact ⟨rfl, .halted (assembled.shows represents)⟩
  | @failed _ _ _ error meaning represents =>
      refine ⟨sameInputs, ?_⟩
      cases sameStop
      cases error with
      | limit error =>
          apply EndsAs.tooLong
          rw [represents.outputs]
          exact congrArg _ sameOutputs
      | fault fault =>
          have short : ∀ error, stopOfError (.fault fault) ≠ .tooLong error := by
            intro error
            unfold stopOfError
            simp only
            split <;> simp
          cases sameValues short
          have shows := assembled.shows represents
          cases cause : fault.cause with
          | noInput address =>
              simp only [cause]
              exact .noInput cause shows
          | inputNotInteger text =>
              simp only [cause]
              exact .notInteger cause shows
          | _ => exact absurd (by simp [stopOfError, cause]) meaning

end Results

/-! ## Runs -/

/-- The runs of a loaded program do what its lines say. -/
structure RunsLike (program : Program) (lines : List Line) (inputs : List String)
    (loaded : Processor) : Prop where
  /-- Every state of the source is passed by a run. -/
  passes : ∀ n point, execution program.eliminated lines inputs n = .ok point →
    ∃ fuel processor,
      loaded.run .ofInputs fuel inputs = (.unfinished, processor, point.values.inputs) ∧
        Shows program processor point.values
  /-- A run ends where the source does. -/
  ends : ∀ n stop values, execution program.eliminated lines inputs n = .error (stop, values) →
    ∃ fuel outcome processor,
      loaded.run .ofInputs fuel inputs = (outcome, processor, values.inputs) ∧
        EndsAs program stop values outcome processor
  /-- The source ends where a run does. -/
  ended : ∀ fuel outcome processor rest,
    loaded.run .ofInputs fuel inputs = (outcome, processor, rest) → outcome ≠ .unfinished →
      ∃ n stop values, execution program.eliminated lines inputs n = .error (stop, values) ∧
        rest = values.inputs ∧ EndsAs program stop values outcome processor
  /-- A run that has not ended is on its way to a state or the end of the
  source. -/
  pending : ∀ fuel processor rest,
    loaded.run .ofInputs fuel inputs = (.unfinished, processor, rest) →
      ∃ n values, valuesOf (execution program.eliminated lines inputs n) = values ∧
        processor.outputs <+: values.outputs.map Decimal.text ∧ values.inputs <:+ rest

theorem run_eq_after {loaded : Processor} (going : loaded.final = none)
    (fresh : loaded.stoppedAt = none) (fuel : Nat) (inputs : List String) :
    loaded.run .ofInputs fuel inputs =
      told (after (plainCycle .ofInputs) fuel (loaded, inputs)) := by
  obtain ⟨memory, registers, outputs, final, stoppedAt⟩ := loaded
  cases going
  cases fresh
  exact runFrom_eq_after ⟨fun _ _ _ => rfl, fun _ _ _ => rfl⟩ fuel none _ inputs

section Loaded

variable {options : CompileOptions} {file source : String} {lines : List Line} {layout : Layout}
  {body : List Emitted} {symbols : SymbolTable} {program : Program} {loaded : Processor}
  {size : Nat}

/-- What a run has written is part of what the source writes. -/
theorem Accepted.pending
    (accepted : Accepted options file source lines layout body symbols program)
    (fits : extent program.code ≤ size) {inputs : List String}
    (represents : Represents program.code size loaded (initialPoint lines inputs))
    {fuel : Nat} {processor : Processor} {rest : List String}
    (run : after (plainCycle .ofInputs) fuel (loaded, inputs) = .ok (processor, rest)) :
    ∃ n values, valuesOf (execution program.eliminated lines inputs n) = values ∧
      processor.outputs <+: values.outputs.map Decimal.text ∧ values.inputs <:+ rest := by
  have lockstep := lockstep_plainCycle accepted.executable fits
  have simulation := accepted.assembled.simulation (ends_marks accepted.read options.optimize)
  rw [map_line_marks accepted.read] at simulation
  have start : At program.code size (initialPoint lines inputs) (loaded, inputs) :=
    ⟨represents, rfl⟩
  cases reachedBy : after (codeStep program.code) fuel (initialPoint lines inputs) with
  | error ending =>
      obtain ⟨ended, stopped, _⟩ := lockstep.ends start reachedBy
      rw [run] at stopped
      cases stopped
  | ok reached =>
      obtain ⟨state, steps, last, unread⟩ := lockstep.reaches start reachedBy
      rw [run] at steps
      cases steps
      have outputs := last.outputs
      have unread : rest = reached.values.inputs := unread
      rcases simulation.overtakes (accepted.matches_initial inputs) reachedBy with
        ⟨n, point, j, matched, executed, more, related⟩ |
        ⟨n, ending, j, matched, executed, more, same⟩
      · have continues := continues_after program.code j reached
        rw [more] at continues
        refine ⟨n, point.values, by rw [execution, executed]; rfl, ?_, ?_⟩
        · rw [outputs, ← related.values]
          exact continues.outputs.map Decimal.text
        · rw [unread, ← related.values]
          exact continues.inputs
      · have continues := continues_after program.code j reached
        rw [more] at continues
        refine ⟨n, ending.2, by rw [execution, executed]; rfl, ?_, ?_⟩
        · rw [outputs, ← same.outputs]
          exact continues.outputs.map Decimal.text
        · rw [unread, ← same.inputs]
          exact continues.inputs

theorem Accepted.runsLike
    (accepted : Accepted options file source lines layout body symbols program)
    (fits : extent program.code ≤ size) {inputs : List String} (going : loaded.final = none)
    (fresh : loaded.stoppedAt = none)
    (represents : Represents program.code size loaded (initialPoint lines inputs)) :
    RunsLike program lines inputs loaded := by
  have simulation := accepted.simulation fits
  have run := fun fuel => run_eq_after going fresh fuel inputs
  have start : ∃ middle,
      Matches (marks options.optimize lines) program.code (initialPoint lines inputs) middle ∧
        At program.code size middle (loaded, inputs) :=
    ⟨_, accepted.matches_initial inputs, represents, rfl⟩
  constructor
  · intro n point executed
    obtain ⟨fuel, ⟨processor, rest⟩, steps, middle, related, last, unread⟩ :=
      simulation.reaches start executed
    refine ⟨fuel, processor, ?_, ?_⟩
    · rw [run, steps, told, ← related.values, ← unread]
    · rw [← related.values]
      exact accepted.assembled.shows last
  · intro n stop values executed
    obtain ⟨fuel, ⟨outcome, processor, rest⟩, steps, middle, same, concludes⟩ :=
      simulation.ends start executed
    obtain ⟨rfl, ended⟩ := accepted.assembled.endsAs same concludes
    exact ⟨fuel, outcome, processor, by rw [run, steps, told], ended⟩
  · intro fuel outcome processor rest finished stopped
    rw [run] at finished
    cases steps : after (plainCycle .ofInputs) fuel (loaded, inputs) with
    | ok state =>
        rw [steps] at finished
        cases finished
        exact absurd rfl stopped
    | error ending =>
        rw [steps] at finished
        cases finished
        obtain ⟨n, ⟨stop, values⟩, executed, middle, same, concludes⟩ :=
          simulation.ends_of_ends start steps
        exact ⟨n, stop, values, executed, accepted.assembled.endsAs same concludes⟩
  · intro fuel processor rest unfinished
    rw [run] at unfinished
    cases steps : after (plainCycle .ofInputs) fuel (loaded, inputs) with
    | ok state =>
        rw [steps] at unfinished
        cases unfinished
        exact accepted.pending fits represents steps
    | error ending =>
        rw [steps] at unfinished
        cases unfinished
        obtain ⟨_, _, _, _, _, concludes⟩ := simulation.ends_of_ends start steps
        cases concludes

/-- The program of an accepted source is loaded and does what its lines say. -/
theorem Accepted.exists_runsLike
    (accepted : Accepted options file source lines layout body symbols program)
    {processor : Processor} (fits : program.words.length ≤ processor.memory.size)
    (inputs : List String) :
    ∃ loaded, processor.load program.words = .ok loaded ∧
      RunsLike program lines inputs loaded := by
  obtain ⟨loaded, load, going, fresh, small, represents⟩ := accepted.represents_load fits
  exact ⟨loaded, load, accepted.runsLike small going fresh (represents inputs)⟩

end Loaded

/-- Every accepted source is refined by the runs of its program from a fresh
load, for all inputs. -/
theorem run_refines_source {options : CompileOptions} {file source : String}
    {compilation : Compilation} (valid : options.check = .ok options)
    (accepted : Compilation.ofSource options file source = .ok compilation)
    {processor : Processor} (fits : compilation.words.length ≤ processor.memory.size)
    (inputs : List String) :
    ∃ lines loaded, Source.lines file source = .ok lines ∧
      processor.load compilation.words = .ok loaded ∧
      RunsLike compilation.program lines inputs loaded := by
  obtain ⟨lines, layout, body, symbols, accepted⟩ := exists_accepted valid accepted
  obtain ⟨loaded, load, runs⟩ := accepted.exists_runsLike fits inputs
  exact ⟨lines, loaded, accepted.read, load, runs⟩

theorem run_refines_source_doubling :
    CompileOptions.check {} = .ok {} ∧
      ∃ compilation,
        Compilation.ofSource {} "double" "a=2\nREAD a\nb=a+a\nWRITE b" = .ok compilation ∧
          compilation.words.length ≤ (Processor.ofMemory (.ofSize 100)).memory.size ∧
          ∃ lines loaded,
            Source.lines "double" "a=2\nREAD a\nb=a+a\nWRITE b" = .ok lines ∧
              (Processor.ofMemory (.ofSize 100)).load compilation.words = .ok loaded ∧
              RunsLike compilation.program lines ["21"] loaded := by
  have size : ((Compilation.ofSource {} "double" "a=2\nREAD a\nb=a+a\nWRITE b").map
      fun compilation => compilation.words.length).toOption = some 8 := by decide +kernel
  cases accepted : Compilation.ofSource {} "double" "a=2\nREAD a\nb=a+a\nWRITE b" with
  | error rejection =>
      rw [accepted] at size
      cases size
  | ok compilation =>
      rw [accepted] at size
      have fits : compilation.words.length ≤ (Processor.ofMemory (.ofSize 100)).memory.size := by
        have size : compilation.words.length = 8 := Option.some.inj size
        rw [size, Processor.ofMemory, Memory.size_ofSize]
        decide
      exact ⟨rfl, compilation, rfl, fits, run_refines_source rfl accepted fits ["21"]⟩

end DecimalMachine.Program
