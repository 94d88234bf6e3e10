import DecimalMachine.Proofs.Program.Refinement
import DecimalMachine.Proofs.Program.WellFormed
import DecimalMachine.Proofs.Semantics.Elimination

/-!
# Optimized programs

An optimized program leaves out the expressions that nothing refers to.  Its
runs end with a halt and the same outputs as those of the plain program as long
as no line is disturbed by what is missing, and in particular as long as no
line works on an accumulator that a missing expression should have replaced.
-/

namespace DecimalMachine.Program

open Semantics Processor

/-! ## What remains does not refer to what is left out -/

section Emission

variable {labels : Table Nat} {symbols final : SymbolTable} {lines : List Marked}
  {code : List Emitted}

/-- A line emits its code below the declarations of the lines above. -/
theorem emits_of_mem (emitted : emit labels symbols lines = .ok (code, final)) {marked : Marked}
    (member : marked ∈ lines) :
    ∃ above instructions next, Emits labels above marked instructions next ∧
      ∀ name entry, above.find? name = some entry → final.find? name = some entry := by
  induction lines generalizing symbols code with
  | nil => cases member
  | cons first below ih =>
      obtain ⟨head, tail, next, emits, rest, _⟩ := emit_cons_eq_ok emitted
      rcases List.mem_cons.mp member with rfl | member
      · exact ⟨symbols, head, next, emits, fun name entry known =>
          find?_of_emit rest (emits.find?_next known)⟩
      · exact ih rest member

end Emission

section Accepted

variable {options : CompileOptions} {file source : String} {lines : List Line} {layout : Layout}
  {body : List Emitted} {symbols : SymbolTable} {program : Program}

/-- A declared variable is not left out. -/
theorem Accepted.notMem_eliminated
    (accepted : Accepted options file source lines layout body symbols program) {name : String}
    {entry : Entry Variable} (found : symbols.find? name = some entry) :
    name ∉ program.eliminated :=
  accepted.assembled.notMem_eliminated (decided_marks accepted.read options.optimize) found

theorem Accepted.independent
    (accepted : Accepted options file source lines layout body symbols program) :
    Independent program.eliminated lines := by
  have assembled := accepted.assembled
  have known : ∀ line ∈ lines, ∃ marked ∈ marks options.optimize lines, marked.line = line ∧
      ∃ above instructions next, Emits layout.labels above marked instructions next ∧
        ∀ name entry, above.find? name = some entry → name ∉ program.eliminated := by
    intro line member
    rw [← map_line_marks accepted.read options.optimize] at member
    obtain ⟨marked, markedMem, rfl⟩ := List.mem_map.mp member
    obtain ⟨above, instructions, next, emits, keeps⟩ := emits_of_mem assembled.emitted markedMem
    exact ⟨marked, markedMem, rfl, above, instructions, next, emits, fun name entry found =>
      accepted.notMem_eliminated (keeps name entry found)⟩
  constructor
  · intro line member name first rest form kept term termMem
    obtain ⟨marked, markedMem, rfl, above, instructions, next, emits, keeps⟩ := known line member
    cases emits with
    | silent undeclared => simp [form, Form.declares?] at undeclared
    | literal other | halt other | branch other | access other =>
        rw [form] at other
        cases other
    | dropped other dropped =>
        rw [form] at other
        cases other
        refine absurd ?_ kept
        rw [assembled.eliminated]
        exact mem_droppedNames.mpr ⟨marked, markedMem, dropped, by rw [form]; rfl⟩
    | lowered other _ terms =>
        rw [form] at other
        cases other
        obtain ⟨entry, found⟩ := terms term termMem
        exact keeps term entry found
  · intro line member command operand opcode form mnemonic branch
    obtain ⟨marked, markedMem, rfl, above, instructions, next, emits, keeps⟩ := known line member
    cases emits with
    | silent _ uncommanded => exact absurd form (uncommanded _ _)
    | literal other | dropped other | lowered other | halt other =>
        rw [form] at other
        cases other
    | branch other same taken =>
        rw [form] at other
        cases other
        rw [mnemonic] at same
        cases same
        rw [branch] at taken
        cases taken
    | access other _ _ _ found =>
        rw [form] at other
        cases other
        exact keeps operand _ found

end Accepted

/-! ## Runs that end with a halt -/

/-- A run from a fresh load ends with a halt and with these outputs. -/
def HaltsWith (processor : Processor) (words inputs outputs : List String) : Prop :=
  ∃ loaded fuel event final rest, processor.load words = .ok loaded ∧
    loaded.run .ofInputs fuel inputs = (.stopped event, final, rest) ∧ event.reason = .halt ∧
    final.outputs = outputs

theorem RunsLike.haltsWith_iff {program : Program} {lines : List Line} {inputs : List String}
    {loaded processor : Processor} (runs : RunsLike program lines inputs loaded)
    (load : processor.load program.words = .ok loaded) (outputs : List String) :
    HaltsWith processor program.words inputs outputs ↔
      ∃ n values, execution program.eliminated lines inputs n = .error (.halted, values) ∧
        values.outputs.map Decimal.text = outputs := by
  constructor
  · rintro ⟨other, fuel, event, final, rest, loadOther, run, _, rfl⟩
    rw [load] at loadOther
    cases loadOther
    obtain ⟨n, stop, values, executed, _, ended⟩ := runs.ended fuel _ final rest run (by simp)
    cases ended with
    | halted shows => exact ⟨n, values, executed, shows.outputs.symm⟩
  · rintro ⟨n, values, executed, rfl⟩
    obtain ⟨fuel, outcome, final, run, ended⟩ := runs.ends n .halted values executed
    cases ended with
    | halted shows =>
        exact ⟨loaded, fuel, final.haltEvent, final, values.inputs, load, run, rfl, shows.outputs⟩

theorem haltsWith_of_run {processor : Processor} {words inputs outputs : List String}
    (fuel : Nat) (address : Int)
    (run : ((processor.load words).map fun loaded =>
        ((loaded.run .ofInputs fuel inputs).1,
          (loaded.run .ofInputs fuel inputs).2.1.outputs)).toOption =
      some (.stopped ⟨.halt, some address, none, "Program terminated"⟩, outputs)) :
    HaltsWith processor words inputs outputs := by
  obtain ⟨loaded, load, ended⟩ := of_toOption_map_eq_some run
  obtain ⟨outcome, written⟩ := Prod.mk.inj ended
  exact ⟨loaded, fuel, _, _, _, load, Prod.ext outcome rfl, rfl, written⟩

/-- Runs of the same words on the same inputs halt with the same outputs. -/
theorem haltsWith_unique {processor : Processor} {words inputs first second : List String}
    (one : HaltsWith processor words inputs first)
    (other : HaltsWith processor words inputs second) : first = second := by
  obtain ⟨loaded, fuel, event, final, rest, load, run, _, rfl⟩ := one
  obtain ⟨loadedAgain, fuelAgain, eventAgain, finalAgain, restAgain, loadAgain, runAgain, _, rfl⟩ :=
    other
  rw [load] at loadAgain
  cases loadAgain
  obtain ⟨memory, _, rfl⟩ := map_eq_ok_iff.mp load
  have ends : ∀ {fuel event final rest},
      (Processor.ofMemory memory).run .ofInputs fuel inputs = (.stopped event, final, rest) →
        after (plainCycle .ofInputs) fuel (Processor.ofMemory memory, inputs) =
          .error (.stopped event, final, rest) := by
    intro fuel event final rest run
    rw [run_eq_after rfl rfl] at run
    cases steps : after (plainCycle .ofInputs) fuel (Processor.ofMemory memory, inputs) with
    | ok state =>
        rw [steps] at run
        cases run
    | error ending =>
        rw [steps] at run
        exact congrArg _ run
  have same := ending_unique (ends run) (ends runAgain)
  simp only [Prod.mk.injEq] at same
  rw [same.2.1]

theorem exists_halted_iff_of_alike {eliminated : List String} {lines : List Line}
    {inputs : List String}
    (alike : ∀ n, Alike eliminated (execution eliminated lines inputs n)
      (execution [] lines inputs n)) (outputs : List String) :
    (∃ n values, execution eliminated lines inputs n = .error (.halted, values) ∧
        values.outputs.map Decimal.text = outputs) ↔
      ∃ n values, execution [] lines inputs n = .error (.halted, values) ∧
        values.outputs.map Decimal.text = outputs := by
  constructor
  · rintro ⟨n, values, executed, rfl⟩
    have now := alike n
    rw [executed] at now
    generalize executedPlain : execution [] lines inputs n = plain at now
    cases now with
    | @error _ second stop agree =>
        obtain ⟨other, last⟩ := second
        cases stop
        exact ⟨n, last, executedPlain, by rw [agree.outputs]⟩
  · rintro ⟨n, values, executed, rfl⟩
    have now := alike n
    rw [executed] at now
    generalize executedShort : execution eliminated lines inputs n = short at now
    cases now with
    | @error first _ stop agree =>
        obtain ⟨other, last⟩ := first
        cases stop
        exact ⟨n, last, executedShort, by rw [agree.outputs]⟩

/-- The executions of a source with and without what the optimizer leaves out
go on alike if and only if no line disturbs them, and then the runs of both
programs halt with the same outputs. -/
theorem haltsWith_optimized_iff {options : CompileOptions} {file source : String}
    {lines : List Line} {plain optimized : Compilation} {processor : Processor}
    (valid : options.check = .ok options) (read : Source.lines file source = .ok lines)
    (acceptedPlain : Compilation.ofSource { options with optimize := false } file source =
      .ok plain)
    (acceptedOptimized : Compilation.ofSource { options with optimize := true } file source =
      .ok optimized)
    (fitsPlain : plain.words.length ≤ processor.memory.size)
    (fitsOptimized : optimized.words.length ≤ processor.memory.size) (inputs : List String) :
    ((∀ n, Alike optimized.program.eliminated
        (execution optimized.program.eliminated lines inputs n) (execution [] lines inputs n)) ↔
      Undisturbed optimized.program.eliminated lines inputs) ∧
    (Undisturbed optimized.program.eliminated lines inputs → ∀ outputs,
      (HaltsWith processor optimized.words inputs outputs ↔
        HaltsWith processor plain.words inputs outputs)) := by
  have checked : ∀ optimize, CompileOptions.check { options with optimize := optimize } =
      .ok { options with optimize := optimize } := by
    intro optimize
    unfold CompileOptions.check at valid ⊢
    split at valid
    · next bounds => rw [if_pos bounds]
    · cases valid
  obtain ⟨_, _, _, _, accepted⟩ := exists_accepted (checked true) acceptedOptimized
  obtain ⟨_, _, _, _, unoptimized⟩ := exists_accepted (checked false) acceptedPlain
  have sameOptimized := accepted.read
  have samePlain := unoptimized.read
  rw [read] at sameOptimized samePlain
  cases sameOptimized
  cases samePlain
  have alike : (∀ n, Alike optimized.program.eliminated
        (execution optimized.program.eliminated lines inputs n) (execution [] lines inputs n)) ↔
      Undisturbed optimized.program.eliminated lines inputs :=
    alike_execution_iff accepted.independent
  refine ⟨alike, ?_⟩
  intro undisturbed outputs
  obtain ⟨loaded, load, runs⟩ := accepted.exists_runsLike fitsOptimized inputs
  obtain ⟨loadedPlain, loadPlain, runsPlain⟩ := unoptimized.exists_runsLike fitsPlain inputs
  have nothing : plain.program.eliminated = [] := by
    rw [unoptimized.assembled.eliminated]
    exact droppedNames_marks_false lines
  have plainIff := runsPlain.haltsWith_iff loadPlain outputs
  rw [nothing] at plainIff
  calc
    HaltsWith processor optimized.words inputs outputs ↔ _ := runs.haltsWith_iff load outputs
    _ ↔ _ := exists_halted_iff_of_alike (alike.mpr undisturbed) outputs
    _ ↔ HaltsWith processor plain.words inputs outputs := plainIff.symm

/-- No line works on the accumulator that an unused sum should have replaced. -/
theorem undisturbed_unused :
    Undisturbed ["b"]
      [⟨.variable "a" 3, "a=3", ⟨"unused", 1⟩⟩,
        ⟨.expression "b" "a" [(.plus, "a")], "b=a+a", ⟨"unused", 2⟩⟩,
        ⟨.instruction "WRITE" (some "a"), "WRITE a", ⟨"unused", 3⟩⟩] [] := by
  intro n first second line one other here
  rcases n with _ | _ | _ | _ | n
  · cases one
    cases here
    exact id
  · cases one
    cases other
    cases here
    rintro ⟨_, error, tooLong⟩
    cases tooLong
  · cases one
    cases here
    rintro ⟨opcode, mnemonic, apart⟩
    obtain rfl : Opcode.write = opcode := Option.some.inj mnemonic
    rcases apart with ⟨⟨⟩, _⟩ | ⟨sign, signs, _⟩
    cases sign <;> cases signs
  · cases one
    cases here
  · cases one

theorem haltsWith_optimized_iff_unused :
    CompileOptions.check {} = .ok {} ∧
      ∃ lines plain optimized,
        Source.lines "unused" "a=3\nb=a+a\nWRITE a" = .ok lines ∧
          Compilation.ofSource { optimize := false } "unused" "a=3\nb=a+a\nWRITE a" = .ok plain ∧
          Compilation.ofSource {} "unused" "a=3\nb=a+a\nWRITE a" = .ok optimized ∧
          plain.words.length ≤ (ofMemory (.ofSize 100)).memory.size ∧
          optimized.words.length ≤ (ofMemory (.ofSize 100)).memory.size ∧
          optimized.program.eliminated = ["b"] ∧ Undisturbed ["b"] lines [] ∧
          (∀ n, Alike ["b"] (execution ["b"] lines [] n) (execution [] lines [] n)) ∧
          HaltsWith (ofMemory (.ofSize 100)) optimized.words [] ["3"] ∧
          HaltsWith (ofMemory (.ofSize 100)) plain.words [] ["3"] := by
  have compiledPlain : ((Compilation.ofSource { optimize := false } "unused"
      "a=3\nb=a+a\nWRITE a").map fun plain => plain.words.length).toOption = some 7 := by
    decide +kernel
  have compiledOptimized : ((Compilation.ofSource {} "unused" "a=3\nb=a+a\nWRITE a").map
      fun optimized => (optimized.words, optimized.program.eliminated)).toOption =
        some (["1102", "4300", "3"], ["b"]) := by
    decide +kernel
  have read : Source.lines "unused" "a=3\nb=a+a\nWRITE a" = .ok
      [⟨.variable "a" 3, "a=3", ⟨"unused", 1⟩⟩,
        ⟨.expression "b" "a" [(.plus, "a")], "b=a+a", ⟨"unused", 2⟩⟩,
        ⟨.instruction "WRITE" (some "a"), "WRITE a", ⟨"unused", 3⟩⟩] := by
    decide +kernel
  have cells : (ofMemory (.ofSize 100)).memory.size = 100 := by
    rw [ofMemory, Memory.size_ofSize]
  obtain ⟨plain, acceptedPlain, lengthPlain⟩ := of_toOption_map_eq_some compiledPlain
  obtain ⟨optimized, acceptedOptimized, whole⟩ := of_toOption_map_eq_some compiledOptimized
  obtain ⟨words, eliminated⟩ := Prod.mk.inj whole
  have fitsPlain : plain.words.length ≤ (ofMemory (.ofSize 100)).memory.size := by
    rw [lengthPlain, cells]
    decide
  have fitsOptimized : optimized.words.length ≤ (ofMemory (.ofSize 100)).memory.size := by
    rw [words, cells]
    decide
  have valid : CompileOptions.check {} = .ok {} := rfl
  obtain ⟨exactly, same⟩ := haltsWith_optimized_iff valid read acceptedPlain acceptedOptimized
    fitsPlain fitsOptimized []
  rw [eliminated] at exactly same
  have halts : HaltsWith (ofMemory (.ofSize 100)) optimized.words [] ["3"] := by
    rw [words]
    exact haltsWith_of_run 10 1 (by decide +kernel)
  exact ⟨valid, _, plain, optimized, read, acceptedPlain, acceptedOptimized, fitsPlain,
    fitsOptimized, eliminated, undisturbed_unused, exactly.mpr undisturbed_unused, halts,
    (same undisturbed_unused _).mp halts⟩

/-- Where the accumulator is stored below an expression that is left out, the
outputs differ. -/
theorem haltsWith_optimized_ne :
    ∃ plain optimized,
      Compilation.ofSource { optimize := false } "stale" "a=1\nc=0\nb=a\nSTORE c\nWRITE c" =
          .ok plain ∧
        Compilation.ofSource {} "stale" "a=1\nc=0\nb=a\nSTORE c\nWRITE c" = .ok optimized ∧
        HaltsWith (ofMemory (.ofSize 100)) optimized.words [] ["0"] ∧
        HaltsWith (ofMemory (.ofSize 100)) plain.words [] ["1"] ∧
        ¬HaltsWith (ofMemory (.ofSize 100)) plain.words [] ["0"] := by
  have compiledPlain : ((Compilation.ofSource { optimize := false } "stale"
      "a=1\nc=0\nb=a\nSTORE c\nWRITE c").map Compilation.words).toOption =
        some ["2005", "2106", "2107", "1107", "4300", "1", "0", "0"] := by decide +kernel
  have compiledOptimized : ((Compilation.ofSource {} "stale"
      "a=1\nc=0\nb=a\nSTORE c\nWRITE c").map Compilation.words).toOption =
        some ["2103", "1103", "4300", "0"] := by decide +kernel
  obtain ⟨plain, acceptedPlain, wordsPlain⟩ := of_toOption_map_eq_some compiledPlain
  obtain ⟨optimized, acceptedOptimized, words⟩ := of_toOption_map_eq_some compiledOptimized
  have one : HaltsWith (ofMemory (.ofSize 100)) plain.words [] ["1"] := by
    rw [wordsPlain]
    exact haltsWith_of_run 10 4 (by decide +kernel)
  have zero : HaltsWith (ofMemory (.ofSize 100)) optimized.words [] ["0"] := by
    rw [words]
    exact haltsWith_of_run 10 2 (by decide +kernel)
  refine ⟨plain, optimized, acceptedPlain, acceptedOptimized, zero, one, ?_⟩
  intro other
  have same := haltsWith_unique one other
  simp at same

end DecimalMachine.Program
