import DecimalMachine.Proofs.Processor.Counting
import DecimalMachine.Proofs.Processor.Observation
import DecimalMachine.Proofs.Processor.Writes
import DecimalMachine.Proofs.Word.Rendering

/-!
# Where a run stops

A run stops at the first state of the plain execution at which there is a
reason to stop: the last cycle wrote a cell and the observer objects to that,
the program counter is outside memory, the observer objects to the instruction,
or the instruction is a halt or fails.  The instruction at which the observer
stopped the run before is exempt once, at the state in which the run begins.
The reasons are stated by the cells, the registers and the objections, and each
of them with the event that it leads to.
-/

namespace DecimalMachine

/-! ## Halts -/

namespace Instruction

/-- The words of a halt: four digits that begin with its code, behind which one
line feed may stand. -/
def IsHalt (word : String) : Prop :=
  ∃ tens ones : Char, tens.isDigit = true ∧ ones.isDigit = true ∧
    (word.toList = ['4', '3', tens, ones] ∨ word.toList = ['4', '3', tens, ones, '\n'])

theorem eq_of_ofDigits_eq_code {tens ones : Char} (first : tens.isDigit = true)
    (second : ones.isDigit = true) (code : Decimal.ofDigits [tens, ones] = Opcode.halt.code) :
    tens = '4' ∧ ones = '3' := by
  have boundFirst := Text.toNat_of_isDigit first
  have boundSecond := Text.toNat_of_isDigit second
  have zero : '0'.toNat = 48 := rfl
  have four : '4'.toNat = 52 := rfl
  have three : '3'.toNat = 51 := rfl
  simp only [Decimal.ofDigits, Nat.ofDigitChars_cons, Nat.ofDigitChars_nil, Opcode.code] at code
  constructor
  · apply Char.toNat_inj.mp
    omega
  · apply Char.toNat_inj.mp
    omega

/-- The words of a halt are those that decode to one. -/
theorem isHalt_iff {word : String} :
    IsHalt word ↔ ∃ operand : Nat, ofText? word = some ⟨Opcode.halt.code, operand⟩ := by
  constructor
  · rintro ⟨tens, ones, first, second, whole⟩
    have digits : ['4', '3', tens, ones].all Char.isDigit = true := by
      simp [first, second, show '4'.isDigit = true from rfl, show '3'.isDigit = true from rfl]
    have cut : Text.dropFinalNewline word.toList = ['4', '3', tens, ones] := by
      rcases whole with whole | whole
      · rw [whole]
        apply Text.dropFinalNewline_eq_self
        rintro c member rfl
        exact absurd (List.all_eq_true.mp digits _ member) (by decide)
      · rw [whole]
        rfl
    refine ⟨Decimal.ofDigits [tens, ones], ?_⟩
    rw [ofText?, cut, ofChars?, if_pos digits]
    rfl
  · rintro ⟨operand, decoded⟩
    unfold ofText? ofChars? at decoded
    split at decoded
    · next a b tens ones cut =>
        split at decoded
        · next digits =>
            simp only [List.all_cons, List.all_nil, Bool.and_true, Bool.and_eq_true] at digits
            have code := congrArg Instruction.opcode (Option.some.inj decoded)
            obtain ⟨rfl, rfl⟩ := eq_of_ofDigits_eq_code digits.1 digits.2.1 (Int.ofNat.inj code)
            refine ⟨tens, ones, digits.2.2.1, digits.2.2.2, ?_⟩
            have whole := Text.eq_dropFinalNewline_or word.toList
            rwa [cut] at whole
        · cases decoded
    · cases decoded

end Instruction

namespace Processor

open Semantics

variable {σ τ : Type}

/-- A cycle halts if and only if the word at the program counter is a halt. -/
theorem cycle_halted_iff (environment : Environment σ) (processor : Processor) (state : σ) :
    (processor.cycle environment state).1 = .halted ↔ Instruction.IsHalt processor.fetch := by
  rw [Instruction.isHalt_iff]
  constructor
  · intro halted
    have how := cycled environment processor state
    rcases result : processor.cycle environment state with ⟨progress, next, rest⟩
    rw [result] at how halted
    cases how with
    | malformed | unknown => cases halted
    | @executed opcode operand _ word _ execute =>
        rw [show progress = .halted from halted] at execute
        cases opcode_of_execute_halted execute
        exact ⟨operand, word⟩
  · rintro ⟨operand, word⟩
    rw [cycle_of_ofText? word]
    rfl

/-- A halt leaves the program counter where it is. -/
theorem haltEvent_of_halted {environment : Environment σ} {processor next : Processor}
    {state rest : σ} (executed : processor.cycle environment state = (.halted, next, rest)) :
    next.haltEvent = processor.haltEvent := by
  have how := cycled environment processor state
  rw [executed] at how
  cases how with
  | executed _ _ execute =>
      rw [eq_of_execute_halted execute]
      rfl

/-- What is fetched inside memory is the cell at the program counter. -/
theorem getElem?_pc_iff {processor : Processor} {word : String} :
    processor.memory.cells[processor.registers.pc]? = some word ↔
      processor.inMemory = true ∧ processor.fetch = word := by
  rw [inMemory, Memory.isValid_iff, Memory.size, fetch, Array.getElem?_eq_some_iff]
  constructor
  · rintro ⟨inside, here⟩
    exact ⟨inside, by rw [Array.getD, dif_pos inside]; exact here⟩
  · rintro ⟨inside, here⟩
    rw [Array.getD, dif_pos inside] at here
    exact ⟨inside, here⟩

/-! ## Reasons to stop -/

/-- The objections of an observer, each with the one event that it leads to. -/
structure Observer where
  /-- The objection to an instruction, by the registers before it and its word. -/
  ToInstruction : Registers → String → Event → Prop
  /-- The objection to a write, by the address and the value. -/
  ToWrite : Nat → String → Event → Prop
  instruction_unique : ∀ {registers word event other}, ToInstruction registers word event →
    ToInstruction registers word other → event = other
  write_unique : ∀ {address value event other}, ToWrite address value event →
    ToWrite address value other → event = other

namespace Observer

/-- There is no objection to what the last cycle wrote, if there was one. -/
def Accepts (observer : Observer) (cycles : Nat) (processor : Processor) : Prop :=
  ∀ address value event, processor.written? = some (address, value) →
    observer.ToWrite address value event → cycles = 0

/-- There is no objection to an instruction, unless it is the first one and
exempt. -/
def Allows (observer : Observer) (exempt : Prop) (cycles : Nat) (processor : Processor)
    (word : String) : Prop :=
  ∀ event, observer.ToInstruction processor.registers word event → cycles = 0 ∧ exempt

end Observer

/-- The reasons to stop at a state to which so many plain cycles have led, each
with what a run ends with. A reason counts where there is none of those above
it. -/
inductive Stops (plain : Environment τ) (observer : Observer) (exempt : Prop) (cycles : Nat)
    (processor : Processor) (state : τ) : Outcome × Processor × τ → Prop where
  | write {address : Nat} {value : String} {event : Event} (cycled : cycles ≠ 0)
      (written : processor.written? = some (address, value))
      (objects : observer.ToWrite address value event) :
      Stops plain observer exempt cycles processor state (.stopped event, processor, state)
  | outside {event : Event} (accepts : observer.Accepts cycles processor)
      (outside : processor.memory.cells.size ≤ processor.registers.pc)
      (tells : event = { reason := .endOfMemory, address := some processor.registers.pc }) :
      Stops plain observer exempt cycles processor state
        (.stopped event, { processor with final := some event }, state)
  | instruction {word : String} {event : Event} (accepts : observer.Accepts cycles processor)
      (here : processor.memory.cells[processor.registers.pc]? = some word)
      (asked : ¬(cycles = 0 ∧ exempt))
      (objects : observer.ToInstruction processor.registers word event) :
      Stops plain observer exempt cycles processor state
        (.stopped event, { processor with stoppedAt := some processor.registers.pc }, state)
  | halt {word : String} {event : Event} {next : Processor} {rest : τ}
      (accepts : observer.Accepts cycles processor)
      (here : processor.memory.cells[processor.registers.pc]? = some word)
      (allows : observer.Allows exempt cycles processor word)
      (halts : Instruction.IsHalt word)
      (tells : event =
        { reason := .halt
          address := some processor.registers.pc
          message := "Program terminated" })
      (executed : (processor.cycle plain state).2 = (next, rest)) :
      Stops plain observer exempt cycles processor state
        (.stopped event, { next with final := some event }, rest)
  | fault {word : String} {error : ExecutionError} {next : Processor} {rest : τ}
      (accepts : observer.Accepts cycles processor)
      (here : processor.memory.cells[processor.registers.pc]? = some word)
      (allows : observer.Allows exempt cycles processor word)
      (fails : processor.cycle plain state = (.failed error, next, rest)) :
      Stops plain observer exempt cycles processor state (.failed error, next, rest)

/-- There is no reason to stop at any of the first states of the plain
execution. -/
def GoesOn (plain : Environment τ) (observer : Observer) (exempt : Prop) (start : Processor × τ)
    (n : Nat) : Prop :=
  ∀ m < n, ∀ processor state, after (plainCycle plain) m start = .ok (processor, state) →
    ∀ result, ¬Stops plain observer exempt m processor state result

/-- The stop at the first state of the plain execution at which there is a reason
for one. -/
def FirstStop (plain : Environment τ) (observer : Observer) (exempt : Prop)
    (start : Processor × τ) (result : Outcome × Processor × τ) : Prop :=
  ∃ n processor state, after (plainCycle plain) n start = .ok (processor, state) ∧
    Stops plain observer exempt n processor state result ∧ GoesOn plain observer exempt start n

section Plain

variable {plain : Environment τ} {observer : Observer} {exempt : Prop} {processor next : Processor}
  {state rest : τ} {start : Processor × τ} {result other : Outcome × Processor × τ} {n : Nat}

theorem not_outside {word : String}
    (here : processor.memory.cells[processor.registers.pc]? = some word) :
    ¬processor.memory.cells.size ≤ processor.registers.pc :=
  Nat.not_le_of_lt (Array.getElem?_eq_some_iff.mp here).1

/-- An instruction that fails is no halt. -/
theorem not_isHalt_of_failed {word : String} {error : ExecutionError}
    (here : processor.memory.cells[processor.registers.pc]? = some word)
    (fails : processor.cycle plain state = (.failed error, next, rest)) :
    ¬Instruction.IsHalt word := by
  rw [← (getElem?_pc_iff.mp here).2, ← cycle_halted_iff plain processor state, fails]
  rintro ⟨⟩

/-- There is one stop at most at a state. -/
theorem Stops.unique (first : Stops plain observer exempt n processor state result)
    (second : Stops plain observer exempt n processor state other) : result = other := by
  cases first with
  | write cycled written objects =>
      cases second with
      | write _ again objectsAgain =>
          rw [written] at again
          cases again
          rw [observer.write_unique objects objectsAgain]
      | outside accepts | instruction accepts | halt accepts | fault accepts =>
          exact absurd (accepts _ _ _ written objects) cycled
  | outside accepts outside tells =>
      cases second with
      | write cycled written objects => exact absurd (accepts _ _ _ written objects) cycled
      | outside _ _ again => rw [tells, again]
      | instruction _ here | halt _ here | fault _ here => exact absurd outside (not_outside here)
  | instruction accepts here asked objects =>
      cases second with
      | write cycled written objects => exact absurd (accepts _ _ _ written objects) cycled
      | outside _ outside => exact absurd outside (not_outside here)
      | instruction _ again _ objectsAgain =>
          rw [here] at again
          cases again
          rw [observer.instruction_unique objects objectsAgain]
      | halt _ again allows | fault _ again allows =>
          rw [here] at again
          cases again
          exact absurd (allows _ objects) asked
  | halt accepts here allows halts tells executed =>
      cases second with
      | write cycled written objects => exact absurd (accepts _ _ _ written objects) cycled
      | outside _ outside => exact absurd outside (not_outside here)
      | instruction _ again asked objects =>
          rw [here] at again
          cases again
          exact absurd (allows _ objects) asked
      | halt _ _ _ _ tellsAgain executedAgain =>
          rw [executed] at executedAgain
          cases executedAgain
          rw [tells, tellsAgain]
      | fault _ again _ fails =>
          rw [here] at again
          cases again
          exact absurd halts (not_isHalt_of_failed here fails)
  | fault accepts here allows fails =>
      cases second with
      | write cycled written objects => exact absurd (accepts _ _ _ written objects) cycled
      | outside _ outside => exact absurd outside (not_outside here)
      | instruction _ again asked objects =>
          rw [here] at again
          cases again
          exact absurd (allows _ objects) asked
      | halt _ again _ halts =>
          rw [here] at again
          cases again
          exact absurd halts (not_isHalt_of_failed here fails)
      | fault _ _ _ again =>
          rw [fails] at again
          cases again
          rfl

/-- There is one first stop at most. -/
theorem FirstStop.unique (first : FirstStop plain observer exempt start result)
    (second : FirstStop plain observer exempt start other) : result = other := by
  obtain ⟨n, reached, left, run, stops, goesOn⟩ := first
  obtain ⟨m, passed, behind, otherRun, otherStops, otherGoesOn⟩ := second
  rcases Nat.lt_trichotomy n m with before | same | after
  · exact absurd stops (otherGoesOn n before _ _ run _)
  · subst same
    rw [run] at otherRun
    cases otherRun
    exact stops.unique otherStops
  · exact absurd otherStops (goesOn m after _ _ otherRun _)

theorem firstStop_here (stops : Stops plain observer exempt 0 processor state result) :
    FirstStop plain observer exempt (processor, state) result :=
  ⟨0, processor, state, rfl, stops, fun _ before => absurd before (Nat.not_lt_zero _)⟩

/-- Nothing was written before the first state, so there is no objection to it. -/
theorem accepts_zero (observer : Observer) (processor : Processor) :
    observer.Accepts 0 processor :=
  fun _ _ _ _ _ => rfl

/-- A state is no place to stop if the observer has no objections there, and a
cycle leads on from it. -/
theorem not_stops (accepts : observer.Accepts n processor)
    (allows : observer.Allows exempt n processor processor.fetch)
    (taken : plainCycle plain (processor, state) = .ok (next, rest)) :
    ¬Stops plain observer exempt n processor state result := by
  obtain ⟨inside, refused, executed⟩ := cycle_of_plainCycle taken
  intro stops
  cases stops with
  | write cycled written objects => exact cycled (accepts _ _ _ written objects)
  | outside _ outside =>
      exact not_outside (getElem?_pc_iff.mpr ⟨inside, rfl⟩) outside
  | instruction _ here asked objects =>
      rw [← (getElem?_pc_iff.mp here).2] at objects
      exact asked (allows _ objects)
  | halt _ here _ halts =>
      rw [← (getElem?_pc_iff.mp here).2, ← cycle_halted_iff plain processor state,
        executed] at halts
      cases halts
  | fault _ _ _ fails =>
      rw [executed] at fails
      cases fails

/-- After a cycle the reasons are those of a run that begins there without an
exemption, unless the observer objects to what the cycle wrote. -/
theorem stops_succ_iff (accepts : n = 0 → observer.Accepts 1 processor) :
    Stops plain observer exempt (n + 1) processor state result ↔
      Stops plain observer False n processor state result := by
  have sameAccepts : observer.Accepts (n + 1) processor ↔ observer.Accepts n processor := by
    cases n with
    | zero => exact iff_of_true (accepts rfl) (accepts_zero observer processor)
    | succ n => simp [Observer.Accepts]
  have sameAllows : ∀ word, observer.Allows exempt (n + 1) processor word ↔
      observer.Allows False n processor word := by
    intro word
    simp [Observer.Allows]
  constructor
  · intro stops
    cases stops with
    | write _ written objects =>
        refine .write ?_ written objects
        rintro rfl
        exact absurd (accepts rfl _ _ _ written objects) Nat.one_ne_zero
    | outside accepts outside tells => exact .outside (sameAccepts.mp accepts) outside tells
    | instruction accepts here _ objects =>
        exact .instruction (sameAccepts.mp accepts) here (fun exempt => exempt.2) objects
    | halt accepts here allows halts tells executed =>
        exact .halt (sameAccepts.mp accepts) here ((sameAllows _).mp allows) halts tells executed
    | fault accepts here allows fails =>
        exact .fault (sameAccepts.mp accepts) here ((sameAllows _).mp allows) fails
  · intro stops
    cases stops with
    | write _ written objects => exact .write (Nat.succ_ne_zero n) written objects
    | outside accepts outside tells => exact .outside (sameAccepts.mpr accepts) outside tells
    | instruction accepts here _ objects =>
        exact .instruction (sameAccepts.mpr accepts) here (fun first => Nat.succ_ne_zero n first.1)
          objects
    | halt accepts here allows halts tells executed =>
        exact .halt (sameAccepts.mpr accepts) here ((sameAllows _).mpr allows) halts tells executed
    | fault accepts here allows fails =>
        exact .fault (sameAccepts.mpr accepts) here ((sameAllows _).mpr allows) fails

/-- One more state without a reason to stop. -/
theorem GoesOn.cons
    (here : ∀ result, ¬Stops plain observer exempt 0 processor state result)
    (taken : plainCycle plain (processor, state) = .ok (next, rest))
    (accepts : observer.Accepts 1 next) (goesOn : GoesOn plain observer False (next, rest) n) :
    GoesOn plain observer exempt (processor, state) (n + 1) := by
  intro m before passed left run result
  cases m with
  | zero =>
      cases run
      exact here result
  | succ m =>
      rw [after_succ_of_ok taken] at run
      rw [stops_succ_iff]
      · exact goesOn m (Nat.lt_of_succ_lt_succ before) passed left run result
      · rintro rfl
        cases run
        exact accepts

theorem FirstStop.cons
    (here : ∀ result, ¬Stops plain observer exempt 0 processor state result)
    (taken : plainCycle plain (processor, state) = .ok (next, rest))
    (accepts : observer.Accepts 1 next)
    (stops : FirstStop plain observer False (next, rest) result) :
    FirstStop plain observer exempt (processor, state) result := by
  obtain ⟨n, reached, left, run, stop, goesOn⟩ := stops
  refine ⟨n + 1, reached, left, (after_succ_of_ok taken n).trans run, ?_,
    goesOn.cons here taken accepts⟩
  rw [stops_succ_iff]
  · exact stop
  · rintro rfl
    cases run
    exact accepts

/-- The first cycle halts, and the observer has no objections to it. -/
theorem firstStop_of_halted (inside : processor.inMemory = true)
    (allows : observer.Allows exempt 0 processor processor.fetch)
    (executed : processor.cycle plain state = (.halted, next, rest)) :
    FirstStop plain observer exempt (processor, state) (next.finish next.haltEvent rest) := by
  have halts : Instruction.IsHalt processor.fetch := by
    rw [← cycle_halted_iff plain processor state, executed]
  exact firstStop_here (.halt (accepts_zero observer processor) (getElem?_pc_iff.mpr ⟨inside, rfl⟩)
    allows halts (haltEvent_of_halted executed) (by rw [executed]))

/-- The observer objects to what the first cycle wrote. -/
theorem firstStop_of_write
    (here : ∀ result, ¬Stops plain observer exempt 0 processor state result)
    (taken : plainCycle plain (processor, state) = .ok (next, rest)) {address : Nat}
    {value : String} {event : Event} (written : next.written? = some (address, value))
    (objects : observer.ToWrite address value event) :
    FirstStop plain observer exempt (processor, state) (.stopped event, next, rest) := by
  refine ⟨1, next, rest, (after_one _ _).trans taken, .write Nat.one_ne_zero written objects, ?_⟩
  intro m before passed left run
  obtain rfl : m = 0 := by omega
  cases run
  exact here

end Plain

/-! ## Runs of watched processors -/

/-- The reply of an environment to a question of the processor: it agrees, or it
takes note of the objection of the observer, which the processor reports with an
event of its own. -/
inductive Reply (Related : σ → τ → Prop) (Noted : Event → Event → σ → τ → Prop) (own : Event)
    (other : τ) (Objection : Event → Prop) : Bool × σ → Prop where
  | agrees {state : σ} (unmoved : ∀ event, ¬Objection event) (related : Related state other) :
      Reply Related Noted own other Objection (true, state)
  | objects {event : Event} {state : σ} (objection : Objection event)
      (noted : Noted own event state other) :
      Reply Related Noted own other Objection (false, state)

/-- An environment watches with the eyes of an observer. -/
structure Watches (environment : Environment σ) (plain : Environment τ) (observer : Observer)
    (Related : σ → τ → Prop) (Noted : Event → Event → σ → τ → Prop) : Prop where
  mirrors : Mirrors environment.unobserved plain Related
  allows : ∀ {state other} (registers : Registers) word, Related state other →
    Reply Related Noted { reason := .breakpoint, address := some registers.pc } other
      (observer.ToInstruction registers word) (environment.allows registers word state)
  accepts : ∀ {state other} (address : Nat) value, Related state other →
    Reply Related Noted
      { reason := .memoryWrite, address := some address, value := some value } other
      (observer.ToWrite address value) (environment.accepts address value state)

/-- What a run reports of a stop. -/
inductive Reports (Related : σ → τ → Prop) (Noted : Event → Event → σ → τ → Prop) :
    Outcome × Processor × σ → Outcome × Processor × τ → Prop where
  | ends {outcome : Outcome} {next : Processor} {rest : σ} {other : τ} (ends : outcome.Ends)
      (related : Related rest other) :
      Reports Related Noted (outcome, next, rest) (outcome, next, other)
  | objects {own event : Event} {next : Processor} {rest : σ} {other : τ}
      (noted : Noted own event rest other) :
      Reports Related Noted (.stopped own, next, rest) (.stopped event, next, other)

section Watched

variable {environment : Environment σ} {plain : Environment τ} {observer : Observer}
  {Related : σ → τ → Prop} {Noted : Event → Event → σ → τ → Prop} {state : σ} {other : τ}

/-- The observer is asked about an instruction unless the run is resumed there. -/
theorem permits_reply (watches : Watches environment plain observer Related Noted)
    (related : Related state other) (processor : Processor) (resumed : Option Nat) :
    Reply Related Noted { reason := .breakpoint, address := some processor.registers.pc } other
      (fun event => resumed ≠ some processor.registers.pc ∧
        observer.ToInstruction processor.registers processor.fetch event)
      (processor.permits environment resumed state) := by
  unfold permits
  split
  · next same => exact .agrees (fun _ objection => objection.1 same) related
  · next fresh =>
      have reply := watches.allows processor.registers processor.fetch related
      generalize environment.allows processor.registers processor.fetch state = answer at reply ⊢
      cases reply with
      | agrees unmoved related =>
          exact .agrees (fun event objection => unmoved event objection.2) related
      | objects objection noted => exact .objects ⟨fresh, objection⟩ noted

/-- The observer objects to what a cycle wrote, or there is no objection. -/
theorem ask_reply (watches : Watches environment plain observer Related Noted)
    (related : Related state other) (refused : Option (Nat × String)) (next : Processor) :
    (∃ address value event noted, next.written? = some (address, value) ∧
      observer.ToWrite address value event ∧
      Noted { reason := .memoryWrite, address := some address, value := some value } event noted
        other ∧
      ask environment (.advanced refused, next, state) =
        (.advanced (some (address, value)), next, noted)) ∨
    ∃ agreed, observer.Accepts 1 next ∧ Related agreed other ∧
      ask environment (.advanced refused, next, state) = (.advanced none, next, agreed) := by
  cases written : next.written? with
  | none =>
      refine .inr ⟨state, ?_, related, by simp only [ask, written]⟩
      intro address value event wrote
      rw [written] at wrote
      cases wrote
  | some write =>
      obtain ⟨address, value⟩ := write
      have reply := watches.accepts address value related
      rcases answer : environment.accepts address value state with ⟨accepted, asked⟩
      rw [answer] at reply
      cases reply with
      | objects objection noted =>
          exact .inl ⟨address, value, _, asked, rfl, objection, noted,
            by simp only [ask, written, answer]; rfl⟩
      | agrees unmoved related =>
          refine .inr ⟨asked, ?_, related, by simp only [ask, written, answer]; rfl⟩
          intro address value event again objection
          rw [written] at again
          cases again
          exact absurd objection (unmoved event)

/-- A run with one more cycle stops before the next one, or it goes on behind a
cycle after which there is no reason to stop. -/
theorem runFrom_succ_stops (watches : Watches environment plain observer Related Noted)
    (related : Related state other) (fuel : Nat) (resumed : Option Nat) (processor : Processor) :
    (∃ result,
      Reports Related Noted (runFrom environment (fuel + 1) resumed processor state) result ∧
        FirstStop plain observer (resumed = some processor.registers.pc) (processor, other)
          result) ∨
    ∃ next rest later, Related rest later ∧
      runFrom environment (fuel + 1) resumed processor state =
        runFrom environment fuel none next rest ∧
      (∀ result, ¬Stops plain observer (resumed = some processor.registers.pc) 0 processor other
        result) ∧
      plainCycle plain (processor, other) = .ok (next, later) ∧ observer.Accepts 1 next := by
  have quiet := accepts_zero observer processor
  rw [runFrom]
  by_cases inside : processor.inMemory = true
  · rw [if_pos inside]
    have word := getElem?_pc_iff.mpr ⟨inside, rfl⟩
    have reply := permits_reply watches related processor resumed
    generalize processor.permits environment resumed state = answer at reply ⊢
    cases reply with
    | objects objection noted =>
        exact .inl ⟨_, .objects noted, firstStop_here
          (.instruction quiet word (fun exempt => objection.1 exempt.2) objection.2)⟩
    | @agrees asked unmoved related =>
        have allows : observer.Allows (resumed = some processor.registers.pc) 0 processor
            processor.fetch := by
          intro event objection
          exact ⟨rfl, not_not.mp fun fresh => unmoved event ⟨fresh, objection⟩⟩
        simp only
        rw [cycle_eq_ask]
        rcases executed : processor.cycle environment.unobserved asked with ⟨progress, next, rest⟩
        obtain ⟨later, taken, relatedNext⟩ := exists_plain_cycle watches.mirrors related executed
        cases progress with
        | halted =>
            exact .inl ⟨_, .ends rfl relatedNext, firstStop_of_halted inside allows taken⟩
        | failed error =>
            exact .inl ⟨_, .ends trivial relatedNext, firstStop_here
              (.fault quiet word allows taken)⟩
        | advanced refused =>
            have step : plainCycle plain (processor, other) = .ok (next, later) := by
              simp [plainCycle, inside, taken, Progress.settled]
            have here : ∀ result, ¬Stops plain observer (resumed = some processor.registers.pc) 0
                processor other result :=
              fun _ => not_stops quiet allows step
            rcases ask_reply watches relatedNext refused next with
              ⟨address, value, event, noted, written, objects, took, same⟩ |
                ⟨agreed, accepts, related, same⟩
            · rw [same]
              exact .inl ⟨_, .objects took, firstStop_of_write here step written objects⟩
            · rw [same]
              exact .inr ⟨next, agreed, later, related, rfl, here, step, accepts⟩
  · rw [if_neg inside]
    have outside : processor.memory.cells.size ≤ processor.registers.pc := by
      rw [inMemory, Memory.isValid_iff] at inside
      exact Nat.not_lt.mp inside
    exact .inl ⟨_, .ends rfl related, firstStop_here (.outside quiet outside rfl)⟩

/-- A run stops where there is first a reason to, or it is out of cycles before
there is one. -/
theorem runFrom_stops (watches : Watches environment plain observer Related Noted)
    (related : Related state other) (fuel : Nat) (resumed : Option Nat) (processor : Processor) :
    (∃ result, Reports Related Noted (runFrom environment fuel resumed processor state) result ∧
      FirstStop plain observer (resumed = some processor.registers.pc) (processor, other) result) ∨
    (runFrom environment fuel resumed processor state).1 = .unfinished ∧
      GoesOn plain observer (resumed = some processor.registers.pc) (processor, other) fuel := by
  induction fuel generalizing resumed processor state other with
  | zero => exact .inr ⟨rfl, fun _ before => absurd before (Nat.not_lt_zero _)⟩
  | succ fuel ih =>
      rcases runFrom_succ_stops watches related fuel resumed processor with
        stops | ⟨next, rest, later, relatedNext, same, here, step, accepts⟩
      · exact .inl stops
      · rw [same]
        have fresh : (none = some next.registers.pc) = False := by simp
        have later := ih relatedNext none next
        rw [fresh] at later
        rcases later with ⟨result, reports, stops⟩ | ⟨unfinished, goesOn⟩
        · exact .inl ⟨result, reports, stops.cons here step accepts⟩
        · exact .inr ⟨unfinished, goesOn.cons here step accepts⟩

theorem Reports.finished {ran : Outcome × Processor × σ} {result : Outcome × Processor × τ}
    (reports : Reports Related Noted ran result) : ran.1 ≠ .unfinished := by
  cases reports with
  | ends ends =>
      rintro rfl
      exact ends
  | objects noted =>
      rintro ⟨⟩

variable {processor : Processor} {result : Outcome × Processor × τ} {fuel : Nat}

/-- A run is one from its instruction on, which is exempt if the observer stopped
the last one there. -/
theorem run_stops (watches : Watches environment plain observer Related Noted)
    (related : Related state other) (going : processor.final = none) (fuel : Nat) :
    (∃ result, Reports Related Noted (processor.run environment fuel state) result ∧
      FirstStop plain observer (processor.stoppedAt = some processor.registers.pc)
        (processor.withStops none none, other) result) ∨
    (processor.run environment fuel state).1 = .unfinished ∧
      GoesOn plain observer (processor.stoppedAt = some processor.registers.pc)
        (processor.withStops none none, other) fuel := by
  have start : { processor with stoppedAt := none } = processor.withStops none none := by
    rw [← going]
    rfl
  unfold run
  split
  · next event ended =>
      rw [going] at ended
      cases ended
  · rw [start]
    exact runFrom_stops watches related fuel processor.stoppedAt (processor.withStops none none)

/-- A run that finishes does so at the first stop. -/
theorem exists_firstStop_of_run (watches : Watches environment plain observer Related Noted)
    (related : Related state other) (going : processor.final = none)
    (finished : (processor.run environment fuel state).1 ≠ .unfinished) :
    ∃ result, Reports Related Noted (processor.run environment fuel state) result ∧
      FirstStop plain observer (processor.stoppedAt = some processor.registers.pc)
        (processor.withStops none none, other) result := by
  rcases run_stops watches related going fuel with stops | ⟨unfinished, _⟩
  · exact stops
  · exact absurd unfinished finished

/-- A run that is granted one more cycle than lead to the first stop finishes
there. -/
theorem exists_run_of_firstStop (watches : Watches environment plain observer Related Noted)
    (related : Related state other) (going : processor.final = none)
    (stops : FirstStop plain observer (processor.stoppedAt = some processor.registers.pc)
      (processor.withStops none none, other) result) :
    ∃ fuel, Reports Related Noted (processor.run environment fuel state) result := by
  obtain ⟨n, reached, left, run, stop, _⟩ := id stops
  rcases run_stops watches related going (n + 1) with ⟨found, reports, first⟩ | ⟨_, goesOn⟩
  · exact ⟨n + 1, first.unique stops ▸ reports⟩
  · exact absurd stop (goesOn n (Nat.lt_succ_self n) reached left run result)

end Watched

end Processor

end DecimalMachine
