import DecimalMachine.CommandLine.CompileTool
import DecimalMachine.CommandLine.RunTool

/-!
# Tools without their records

Everything that the tools record is below the warnings, but for what is wrong
with the settings.  A tool that does not show all records works as if there were
none.
-/

namespace DecimalMachine

/-! ## Records below warnings -/

namespace Record

/-- Whether a record is below the warnings, so that it is not shown unless all
records are. -/
def IsQuiet (record : Record) : Prop :=
  record.level ≠ .warning

theorem isQuiet_debug (text : String) : (debug text).IsQuiet := by
  rintro ⟨⟩

theorem isQuiet_info (text : String) : (info text).IsQuiet := by
  rintro ⟨⟩

end Record

namespace Narration

theorem isQuiet_of_mem_relocation {maxWords : Int} {code : List Program.Emitted} {record : Record}
    (member : record ∈ relocation maxWords code) : record.IsQuiet := by
  rcases List.mem_append.mp member with given | sized
  · rcases List.mem_mapIdx.mp given with ⟨_, _, rfl⟩
    exact Record.isQuiet_debug _
  · split at sized
    · cases sized
    · rcases List.mem_singleton.mp sized with rfl
      exact Record.isQuiet_debug _

theorem isQuiet_of_mem_ofLines {options : CompileOptions} {terminated : Option Bool}
    {lines : List Line} {record : Record} (member : record ∈ ofLines options terminated lines) :
    record.IsQuiet := by
  have labelled : ∀ labels : List (String × Nat), record ∈ labels.map placed → record.IsQuiet := by
    intro labels member
    rcases List.mem_map.mp member with ⟨_, _, rfl⟩
    exact Record.isQuiet_debug _
  have dropped : ∀ names : List (Location × String),
      record ∈ names.map (fun entry => leftOut entry.1 entry.2) → record.IsQuiet := by
    intro names member
    rcases List.mem_map.mp member with ⟨_, _, rfl⟩
    exact Record.isQuiet_debug _
  simp only [ofLines] at member
  split at member
  · exact labelled _ member
  · split at member
    · rcases List.mem_append.mp member with label | left
      · exact labelled _ label
      · exact dropped _ left
    · rcases List.mem_append.mp member with member | relocated
      · rcases List.mem_append.mp member with member | halt
        · rcases List.mem_append.mp member with label | left
          · exact labelled _ label
          · exact dropped _ left
        · split at halt
          · rcases List.mem_singleton.mp halt with rfl
            exact Record.isQuiet_debug _
          · cases halt
      · exact isQuiet_of_mem_relocation relocated

/-- What compilation tells is below the warnings. -/
theorem isQuiet_of_mem_ofSource {options : CompileOptions} {elapsed : Int} {file source : String}
    {record : Record} (member : record ∈ ofSource options elapsed file source) :
    record.IsQuiet := by
  unfold ofSource at member
  split at member
  · cases member
  · rcases List.mem_append.mp member with member | done
    · exact isQuiet_of_mem_ofLines member
    · split at done
      · rcases List.mem_singleton.mp done with rfl
        exact Record.isQuiet_info _
      · cases done

theorem isQuiet_of_mem_loaded {count : Nat} {record : Record} (member : record ∈ loaded count) :
    record.IsQuiet := by
  rcases List.mem_cons.mp member with rfl | member
  · exact Record.isQuiet_debug _
  · rcases List.mem_singleton.mp member with rfl
    exact Record.isQuiet_info _

end Narration

namespace CommandLine

variable {directory : Directory}

theorem Terminal.tell_of_isQuiet (terminal : Terminal) {records : List Record}
    (quiet : ∀ record ∈ records, record.IsQuiet) : terminal.tell false records = terminal := by
  have none : records.filter (·.isShown false) = [] := by
    rw [List.filter_eq_nil_iff]
    intro record member
    have level : record.level ≠ .warning := quiet record member
    simp [Record.isShown, level]
  rw [tell, none]
  rfl

/-! ## The run tool without its records -/

namespace RunTool

theorem isQuiet_of_mem_load {elapsed : Int} {path : Path} {machine : Machine} {record : Record}
    (member : record ∈ (load directory elapsed path machine).1) : record.IsQuiet := by
  unfold load at member
  split at member
  · split at member
    · cases member
    · simp only at member
      split at member
      · exact Narration.isQuiet_of_mem_ofSource member
      · exact Narration.isQuiet_of_mem_ofSource member
      · rcases List.mem_append.mp member with member | member
        · exact Narration.isQuiet_of_mem_ofSource member
        · exact Narration.isQuiet_of_mem_loaded member
  · split at member
    · cases member
    · simp only at member
      split at member
      · rcases List.mem_singleton.mp member with rfl
        exact Record.isQuiet_debug _
      · rcases List.mem_cons.mp member with rfl | member
        · exact Record.isQuiet_debug _
        · exact Narration.isQuiet_of_mem_loaded member

variable {request : Request} {surroundings : Surroundings} {fuel : Nat} {terminal : Terminal}

/-- The terminal after the warnings about the settings. -/
def warned (request : Request) (surroundings : Surroundings) (terminal : Terminal) : Terminal :=
  terminal.tell false (settingsFor request surroundings).2

/-- Execute what was loaded, or report why nothing was. -/
def proceed (request : Request) (fuel : Nat) (directory : Directory) (terminal : Terminal)
    (loaded : Except Failure (Nat × Machine)) : Result :=
  match loaded with
  | .error failure => .finished (failWith "Runtime" failure terminal directory)
  | .ok (_, machine) =>
      execute request fuel directory machine
        ⟨terminal, if request.inputs.isEmpty then none else some request.inputs, false⟩

/-- Of loading, only the machine or the failure matters to what follows. -/
theorem work_of_quiet (quiet : request.verbose = false) :
    work request surroundings fuel directory terminal =
      match Machine.ofSettings (settingsFor request surroundings).1 with
      | .error error => .finished
          (failWith "Runtime" (.size error) (warned request surroundings terminal) directory)
      | .ok machine => proceed request fuel directory (warned request surroundings terminal)
          (load directory surroundings.elapsed request.program machine).2 := by
  have told : ∀ machine, (warned request surroundings terminal).tell false
      (load directory surroundings.elapsed request.program machine).1 =
        warned request surroundings terminal :=
    fun _ => Terminal.tell_of_isQuiet _ fun _ => isQuiet_of_mem_load
  simp only [work, quiet]
  cases Machine.ofSettings (settingsFor request surroundings).1 with
  | error error => rfl
  | ok machine =>
      have told := told machine
      rw [warned] at told
      simp only [told, proceed]
      cases (load directory surroundings.elapsed request.program machine).2 with
      | error failure => rfl
      | ok loaded => rfl

end RunTool

/-! ## The compile tool without its records -/

namespace CompileTool

theorem isQuiet_of_mem_narrate {options : CompileOptions} {elapsed : Int} {path : Path}
    {record : Record} (member : record ∈ narrate directory options elapsed path) :
    record.IsQuiet := by
  unfold narrate at member
  split at member
  · cases member
  · split at member
    · cases member
    · exact Narration.isQuiet_of_mem_ofSource member

variable {request : Request} {output : Path} {elapsed : Int} {terminal : Terminal}

/-- What the tool comes to after the compilation. -/
def conclude (request : Request) (output : Path) (directory : Directory) (terminal : Terminal) :
    Except Failure Compilation → Finish
  | .error failure => failWith "Compilation" failure terminal directory
  | .ok compilation =>
      match Files.writeWords directory output compilation.words with
      | .error failure => failWith "Compilation" failure terminal directory
      | .ok written =>
          ⟨.success, terminal.say ("Compiled " ++ request.input.render ++ " -> " ++ output.render),
            written⟩

theorem produce_of_quiet (quiet : request.verbose = false) :
    produce request output elapsed directory terminal =
      conclude request output directory terminal
        (Files.compile directory request.options request.input.render) := by
  have told : terminal.tell false (narrate directory request.options elapsed request.input) =
      terminal :=
    Terminal.tell_of_isQuiet _ fun _ => isQuiet_of_mem_narrate
  have wrote : ∀ count, terminal.tell false [Narration.wrote count output] = terminal := by
    intro count
    apply Terminal.tell_of_isQuiet
    intro record member
    rcases List.mem_singleton.mp member with rfl
    exact Record.isQuiet_debug _
  -- The records are rewritten one by one: simplifying with both makes Lean compare what they tell.
  unfold produce
  rw [quiet, if_neg Bool.false_ne_true]
  dsimp only
  rw [told]
  cases Files.compile directory request.options request.input.render with
  | error failure => rfl
  | ok compilation =>
      dsimp only [conclude]
      cases Files.writeWords directory output compilation.words with
      | error failure => rfl
      | ok written =>
          dsimp only
          rw [wrote, summary, quiet]
          rfl

end CompileTool

end CommandLine

end DecimalMachine
