import DecimalMachine.CommandLine.RunTool
import DecimalMachine.Proofs.Machine.Driving
import DecimalMachine.Proofs.Source.Reading

/-!
# Debugging is transparent

Stops, steps and breakpoints cannot be told from the state of the machine: after
any calls it is where so many plain cycles lead from the load.  The run tool
drives the machine in two ways, by steps and by runs, and talks to the user at
every stop; with either it ends where a single run without breakpoints ends.
-/

namespace DecimalMachine

open Processor Machine Semantics

/-! ## What a session answers from -/

namespace CommandLine

namespace Terminal

/-- What is written does not matter to what is read. -/
theorem askFor_congr (text : String) (terminal other : Terminal) (lines : List String) :
    (askFor text terminal lines).1 = (askFor text other lines).1 ∧
      (askFor text terminal lines).2.unread = (askFor text other lines).2.unread := by
  induction lines generalizing terminal other with
  | nil => exact ⟨rfl, rfl⟩
  | cons line rest ih =>
      simp only [askFor]
      split
      · exact ih _ _
      · exact ⟨rfl, rfl⟩

@[simp]
theorem unread_print (terminal : Terminal) (stream : Stream) (text : String) :
    (terminal.print stream text).unread = terminal.unread :=
  rfl

@[simp]
theorem unread_say (terminal : Terminal) (text : String) :
    (terminal.say text).unread = terminal.unread :=
  rfl

@[simp]
theorem unread_tell (terminal : Terminal) (verbose : Bool) (records : List Record) :
    (terminal.tell verbose records).unread = terminal.unread := by
  unfold tell
  induction records.filter (·.isShown verbose) generalizing terminal with
  | nil => rfl
  | cons record rest ih => rw [List.foldl_cons, ih, unread_print]

end Terminal

namespace RunTool

namespace Session

/-- The inputs that a session has left: the values given as options and the
lines that were not read. -/
def left (session : Session) : Option (List String) × List String :=
  (session.given, session.terminal.unread)

theorem left_onTerminal (session : Session) {f : Terminal → Terminal}
    (keeps : (f session.terminal).unread = session.terminal.unread) :
    (session.onTerminal f).left = session.left := by
  rw [left, left, onTerminal, keeps]

@[simp]
theorem left_tell (session : Session) (records : List Record) :
    (session.tell records).left = session.left :=
  left_onTerminal session (Terminal.unread_tell _ _ _)

@[simp]
theorem left_tellEnd (session : Session) (outcome : Outcome) (machine : Machine) :
    (session.tellEnd outcome machine).left = session.left := by
  unfold tellEnd
  split
  · split
    · exact left_tell session _
    · rfl
  · rfl

theorem input_congr {session other : Session} (same : session.left = other.left) :
    session.input.1 = other.input.1 ∧ session.input.2.left = other.input.2.left := by
  obtain ⟨given, unread⟩ := Prod.mk.inj same
  unfold input
  rw [given]
  cases other.given with
  | some values => exact ⟨rfl, congrArg (Prod.mk _) unread⟩
  | none =>
      simp only [Terminal.prompt, unread]
      obtain ⟨answer, rest⟩ := Terminal.askFor_congr "Enter value: " session.terminal
        other.terminal other.terminal.unread
      exact ⟨answer, congrArg (Prod.mk none) rest⟩

end Session

theorem console_respects_left : console.Respects Session.left where
  input _ same := Session.input_congr same
  output _ _ same := same
  trace _ same := by
    simp only [console, Session.left_tell]
    exact same

/-! ## The drivers of the tool -/

/-- What the tool shows after a step. -/
def afterStep (event : Event) (machine : Machine) (session : Session) : Session :=
  (session.tellEnd (.stopped event) machine).onTerminal (·.say machine.processor.listing)

/-- What the tool shows after a run. -/
def afterRun (event : Event) (machine : Machine) (session : Session) : Session :=
  let session := session.tellEnd (.stopped event) machine
  if event.halted then session
  else session.onTerminal fun terminal => (terminal.say event.render).say machine.processor.dump

theorem left_afterStep (event : Event) (machine : Machine) (session : Session) :
    (afterStep event machine session).left = session.left := by
  rw [afterStep, Session.left_onTerminal _ (Terminal.unread_say _ _), Session.left_tellEnd]

theorem left_afterRun (event : Event) (machine : Machine) (session : Session) :
    (afterRun event machine session).left = session.left := by
  simp only [afterRun]
  split
  · exact Session.left_tellEnd session _ _
  · rw [Session.left_onTerminal _ rfl, Session.left_tellEnd]

theorem stepThrough_eq_drive : stepThrough = drive console (fun _ => .step) afterStep := by
  funext fuel machine session
  induction fuel generalizing machine session with
  | zero => rfl
  | succ fuel ih =>
      simp only [stepThrough, drive, Machine.Call.make]
      rcases machine.step console session with ⟨outcome, next, rest⟩
      cases outcome with
      | stopped event =>
          simp only [ih]
          rfl
      | failed error => rfl
      | unfinished => rfl

theorem runThrough_eq_drive :
    runThrough = drive console (fun fuel => .run (fuel + 1)) afterRun := by
  funext fuel machine session
  induction fuel generalizing machine session with
  | zero => rfl
  | succ fuel ih =>
      simp only [runThrough, drive, Machine.Call.make]
      rcases machine.run console (fuel + 1) session with ⟨outcome, next, rest⟩
      cases outcome with
      | stopped event =>
          simp only [ih, afterRun]
          split <;> rfl
      | failed error => rfl
      | unfinished => rfl

end RunTool

end CommandLine

/-! ## The whole of debugging -/

namespace Machine

open CommandLine RunTool

/-- Debugging a loaded machine cannot be told from executing it. -/
structure Transparent (loaded : Machine) : Prop where
  /-- After any calls and edits that do not fail, the state is the one to which
  as many bare cycles lead as the processor has counted. -/
  plain : ∀ {τ : Type} {console : Console τ} {state rest : τ} {machine : Machine},
    Relation.ReflTransGen (Called console) (loaded, state) (machine, rest) →
      after (bareCycle console.plain) machine.processor.registers.cycles
          (loaded.processor, state) = .ok (machine.processor.withStops none none, rest)
  /-- The count never decreases. -/
  forward : ∀ {τ : Type} {console : Console τ} {state : τ} {before later : Machine × τ},
    Relation.ReflTransGen (Called console) (loaded, state) before → Called console before later →
      before.1.processor.registers.cycles ≤ later.1.processor.registers.cycles
  /-- A single run without breakpoints comes to the end that the plain cycles
  come to, if they come to one. -/
  alone : ∀ {τ : Type} {console : Console τ} {state rest : τ} {outcome : Outcome}
      {next : Processor},
    EndsWith (uninterrupted console) id loaded state (outcome, next, rest) ↔
      ∃ n, after (plainCycle console.plain) n (loaded.processor, state) =
        .error (outcome, next, rest)
  /-- A call that ends the program or fails comes to the end of a single run
  without breakpoints. -/
  ends : ∀ {τ : Type} {console : Console τ} {state middle rest : τ} {machine next : Machine}
      {outcome : Outcome} (call : Call),
    Relation.ReflTransGen (Called console) (loaded, state) (machine, middle) →
      call.make console machine middle = (outcome, next, rest) → outcome.Ends →
        EndsWith (uninterrupted console) id loaded state (outcome, next.processor, rest)
  /-- Stepping through the program comes to the end of a single run without
  breakpoints. -/
  steps : ∀ (breakpoints : Breakpoints) (session : Session) ending,
    EndsWith stepThrough Session.left ⟨loaded.processor, breakpoints⟩ session ending ↔
      EndsWith (uninterrupted RunTool.console) Session.left loaded session ending
  /-- Running through the program comes to the end of a single run without
  breakpoints. -/
  runs : ∀ (breakpoints : Breakpoints) (session : Session) ending,
    EndsWith runThrough Session.left ⟨loaded.processor, breakpoints⟩ session ending ↔
      EndsWith (uninterrupted RunTool.console) Session.left loaded session ending
  /-- Of two runs in a row that stop without an end, one executes an
  instruction, whatever becomes of the breakpoints between them. -/
  progress : ∀ {τ : Type} {console : Console τ} {state middle rest final : τ}
      {machine next last : Machine} {fuel more : Nat} {breakpoints : Breakpoints}
      {first second : Event},
    Relation.ReflTransGen (Called console) (loaded, state) (machine, middle) →
      machine.run console fuel middle = (.stopped first, next, rest) → first.halted = false →
        Machine.run console more ⟨next.processor, breakpoints⟩ rest =
            (.stopped second, last, final) → second.halted = false →
          machine.processor.registers.cycles < last.processor.registers.cycles

theorem processor_of_loadWords {machine loaded : Machine} {words : List String}
    (load : machine.loadWords words = .ok loaded) :
    ∃ memory, loaded.processor = .ofMemory memory := by
  obtain ⟨processor, loadedProcessor, rfl⟩ := map_eq_ok_iff.mp load
  obtain ⟨memory, _, rfl⟩ := map_eq_ok_iff.mp loadedProcessor
  exact ⟨memory, rfl⟩

/-- Debugging is transparent, whatever words were loaded and whatever the
breakpoints are. -/
theorem transparent_of_loadWords {machine loaded : Machine} {words : List String}
    (load : machine.loadWords words = .ok loaded) : Transparent loaded := by
  obtain ⟨memory, fresh⟩ := processor_of_loadWords load
  have going : loaded.processor.final = none := by rw [fresh]; rfl
  have unmarked : loaded.processor.withStops none none = loaded.processor := by rw [fresh]; rfl
  have track : ∀ {τ : Type} {console : Console τ} {state : τ} {reached : Machine × τ},
      Relation.ReflTransGen (Called console) (loaded, state) reached →
        OnTrack console.plain (loaded.processor, state) (reached.1.processor, reached.2) :=
    fun debugged => (onTrack_start going unmarked).debugged debugged
  exact {
    plain := by
      intro τ console state rest machine debugged
      exact (track debugged).bare going (by rw [fresh]; rfl) (by rw [fresh]; rfl)
    forward := by
      intro τ console state before later debugged called
      exact ((track debugged).called called).2
    alone := uninterrupted_endsWith_id_iff going unmarked
    ends := by
      intro τ console state middle rest machine next outcome call debugged made ends
      obtain ⟨n, later, cycles, alike⟩ :=
        (track debugged).ends console.respects_id rfl made ends
      cases alike
      exact (uninterrupted_endsWith_id_iff going unmarked).mpr ⟨n, cycles⟩
    steps := by
      intro breakpoints session ending
      have still : (Machine.mk loaded.processor breakpoints).processor.final = none := going
      rw [stepThrough_eq_drive]
      exact drive_endsWith_iff_uninterrupted console_respects_left Call.within_step left_afterStep
        still ending
    runs := by
      intro breakpoints session ending
      have still : (Machine.mk loaded.processor breakpoints).processor.final = none := going
      rw [runThrough_eq_drive]
      exact drive_endsWith_iff_uninterrupted console_respects_left (Call.within_run <| · + 1)
        left_afterRun still ending
    progress := by
      intro τ console state middle rest final machine next last fuel more breakpoints first second
        debugged ran pauses again pausesAgain
      exact lt_of_runs console.respects_id (track debugged) rfl ran pauses again pausesAgain }

theorem transparent_of_loadWords_echo :
    Machine.loadWords ⟨.ofMemory (.ofSize 4), .empty⟩ ["1003", "1103", "4300"] =
        .ok ⟨.ofMemory ⟨#["1003", "1103", "4300", "0000"]⟩, .empty⟩ ∧
      Transparent ⟨.ofMemory ⟨#["1003", "1103", "4300", "0000"]⟩, .empty⟩ := by
  have load : Machine.loadWords ⟨.ofMemory (.ofSize 4), .empty⟩ ["1003", "1103", "4300"] =
      .ok ⟨.ofMemory ⟨#["1003", "1103", "4300", "0000"]⟩, .empty⟩ := by
    rfl
  exact ⟨load, transparent_of_loadWords load⟩

end Machine

end DecimalMachine
