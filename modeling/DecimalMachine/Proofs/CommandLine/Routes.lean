import DecimalMachine.Proofs.CommandLine.Quiet
import DecimalMachine.Proofs.Files.Programs
import DecimalMachine.Proofs.Program.Blank

/-!
# The two routes of a source file

A source file is run in two ways: it is compiled in memory, or it is compiled to
a program file which is run then.  Unless the file is blank, both refuse the
source or neither does, both load the same machine, and both come to the same end
with the same terminal.  A blank file is run, though it is not compiled.
-/

namespace DecimalMachine

namespace CommandLine

variable {directory other : Directory} {source target : Path} {text : String}

/-! ## Results -/

theorem failWith_ne_success {activity : String} {failure : Failure} {terminal : Terminal} :
    (failWith activity failure terminal directory).status ≠ .success := by
  rw [failWith]
  cases blame failure <;> simp [Blame.status]

namespace Result

/-- A result with another directory in the place of its own. -/
def withDirectory (directory : Directory) : Result → Result
  | .misuse => .misuse
  | .finished finish => .finished { finish with directory }
  | .unfinished terminal => .unfinished terminal

/-- The work was done. -/
def Succeeds (result : Result) : Prop :=
  ∃ finish, result = .finished finish ∧ finish.status = .success

theorem succeeds_withDirectory {result : Result} :
    (result.withDirectory directory).Succeeds ↔ result.Succeeds := by
  cases result with
  | misuse | unfinished => simp [withDirectory, Succeeds]
  | finished finish => simp [withDirectory, Succeeds]

theorem not_succeeds_failWith {activity : String} {failure : Failure} {terminal : Terminal} :
    ¬ (Result.finished (failWith activity failure terminal directory)).Succeeds := by
  rintro ⟨finish, same, success⟩
  cases same
  exact failWith_ne_success success

end Result

/-! ## The calls of both tools -/

namespace RunTool

variable {request : Request} {fuel : Nat} {terminal : Terminal}

/-- Run through the program, with the breakpoints that were asked for. -/
def passThrough (request : Request) (fuel : Nat) (machine : Machine) (session : Session) :
    Processor.Outcome × Machine × Session :=
  (if request.step then stepThrough else runThrough) fuel
    (request.breakpoints.foldl (fun machine address =>
      { machine with breakpoints := machine.breakpoints.addBreakpoint address }) machine) session

/-- The directory and the path of the program do not matter to execution. -/
theorem execute_withDirectory (path : Path) {machine : Machine} {session : Session} :
    execute { request with program := path } fuel other machine session =
      (execute request fuel directory machine session).withDirectory other := by
  rcases ending : passThrough request fuel machine session with ⟨outcome, last, rest⟩
  rw [passThrough] at ending
  simp only [execute, ending]
  cases outcome with
  | stopped event => rfl
  | failed error => rfl
  | unfinished => rfl

theorem proceed_withDirectory (path : Path) {loaded : Except Failure (Nat × Machine)} :
    proceed { request with program := path } fuel other terminal loaded =
      (proceed request fuel directory terminal loaded).withDirectory other := by
  cases loaded with
  | error failure => rfl
  | ok loaded => exact execute_withDirectory path

end RunTool

namespace CompileTool

/-- The call of the tool with the path of a source file alone. -/
def plain (source : Path) : Request :=
  ⟨source, none, true, false⟩

section Plain

variable (normal : source.IsNormal) (reads : Files.readText directory source = .ok text)
  (beside : Files.programPath source = .ok target) (surroundings : Surroundings)
  (terminal : Terminal)

include normal reads beside

theorem work_plain : work (plain source) surroundings directory terminal =
    conclude (plain source) target directory terminal
      (Files.compileText {} source.render text) := by
  have made : work (plain source) surroundings directory terminal =
      produce (plain source) target surroundings.elapsed directory terminal := by
    simp only [work, plain, beside]
  rw [made, produce_of_quiet rfl, plain, Files.compile_of_readText normal reads]
  rfl

/-- A blank source is not compiled. -/
theorem work_plain_of_blank (blank : (Text.trim text).isEmpty = true) :
    (work (plain source) surroundings directory terminal).status ≠ .success := by
  rw [work_plain normal reads beside surroundings terminal, Files.compileText, if_pos blank]
  exact failWith_ne_success

variable (given : (Text.trim text).isEmpty = false)

include given

/-- A source that is not compiled is reported, and nothing is written. -/
theorem work_plain_of_rejected {rejection : Rejection}
    (rejected : Compilation.ofSource {} source.render text = .error rejection) :
    work (plain source) surroundings directory terminal =
      failWith "Compilation" (.rejected rejection) terminal directory := by
  rw [work_plain normal reads beside surroundings terminal,
    Files.compileText_of_not_blank given, rejected]
  rfl

/-- The words of a source that is compiled are in the program file. -/
theorem work_plain_of_compiled {place : Place} (takes : (directory.find target).Takes place)
    {compilation : Compilation}
    (compiled : Compilation.ofSource {} source.render text = .ok compilation) :
    (work (plain source) surroundings directory terminal).status = .success ∧
      Files.readWords (work (plain source) surroundings directory terminal).directory target =
        .ok compilation.words := by
  have visible := fun word (member : word ∈ compilation.words) =>
    Compilation.isVisible_of_mem_words rfl compiled member
  rw [work_plain normal reads beside surroundings terminal,
    Files.compileText_of_not_blank given, compiled]
  simp only [Except.mapError, conclude, Files.writeWords_of_takes takes]
  exact ⟨trivial, Files.readWords_put_of_visible takes visible⟩

end Plain

end CompileTool

/-! ## What is loaded -/

namespace RunTool

variable (elapsed : Int) (machine : Machine)

/-- The machine with the words of a program, and their number. -/
def counted (words : List String) (machine : Machine) : Except Failure (Nat × Machine) :=
  match machine.loadWords words with
  | .error error => .error (.load error)
  | .ok loaded => .ok (words.length, loaded)

theorem counted_ne_rejected {words : List String} {rejection : Rejection} {machine : Machine} :
    counted words machine ≠ .error (.rejected rejection) := by
  unfold counted
  split <;> simp

theorem load_program {words : List String} (program : target.suffix ≠ Files.sourceSuffix)
    (reads : Files.readWords directory target = .ok words) :
    (load directory elapsed target machine).2 = counted words machine := by
  have other : (target.suffix == Files.sourceSuffix) = false := beq_false_of_ne program
  simp only [load, other, reads, counted]
  cases machine.loadWords words <;> rfl

variable (suffix : source.suffix = Files.sourceSuffix)
  (reads : Files.readText directory source = .ok text)

include suffix reads

theorem load_of_rejected {rejection : Rejection}
    (rejected : Compilation.ofSource {} source.render text = .error rejection) :
    (load directory elapsed source machine).2 = .error (.rejected rejection) := by
  simp [load, suffix, reads, Machine.loadSource, rejected]

theorem load_of_compiled {compilation : Compilation}
    (compiled : Compilation.ofSource {} source.render text = .ok compilation) :
    (load directory elapsed source machine).2 = counted compilation.words machine := by
  simp only [load, suffix, reads, Machine.loadSource, compiled, counted, beq_self_eq_true]
  cases machine.loadWords compilation.words <;> rfl

end RunTool

/-! ## The agreement -/

/-- Running a source file agrees with running the program file that compiling it
came to. -/
structure RoutesAgree (directory : Directory) (source target : Path) (finish : Finish) : Prop where
  /-- The compile tool fails if and only if the run tool refuses the source. -/
  rejects : ∀ elapsed machine, finish.status ≠ .success ↔
    ∃ rejection, (RunTool.load directory elapsed source machine).2 = .error (.rejected rejection)
  /-- The same machine is loaded, with the same number of words. -/
  loads : finish.status = .success → ∀ elapsed machine,
    (RunTool.load finish.directory elapsed target machine).2 =
      (RunTool.load directory elapsed source machine).2
  /-- Calls of the run tool come to the same end with the same terminal. -/
  runs : finish.status = .success →
    ∀ request : RunTool.Request, request.verbose = false → ∀ surroundings fuel terminal,
      RunTool.work { request with program := target } surroundings fuel finish.directory terminal =
        (RunTool.work { request with program := source } surroundings fuel directory
          terminal).withDirectory finish.directory
  /-- The run of the source file succeeds if and only if both its compilation and
  the run of the program file do. -/
  succeeds : ∀ request : RunTool.Request, request.verbose = false → ∀ surroundings fuel terminal,
    (RunTool.work { request with program := source } surroundings fuel directory
        terminal).Succeeds ↔
      finish.status = .success ∧
        (RunTool.work { request with program := target } surroundings fuel finish.directory
          terminal).Succeeds

section Runs

variable {finish : Finish} {request : RunTool.Request} {surroundings : Surroundings} {fuel : Nat}
  {terminal : Terminal}

/-- A call that loads the same comes to the same end. -/
theorem work_eq_withDirectory (quiet : request.verbose = false)
    (loads : ∀ machine,
      (RunTool.load finish.directory surroundings.elapsed target machine).2 =
        (RunTool.load directory surroundings.elapsed source machine).2) :
    RunTool.work { request with program := target } surroundings fuel finish.directory terminal =
      (RunTool.work { request with program := source } surroundings fuel directory
        terminal).withDirectory finish.directory := by
  have quietAt : ∀ path, ({ request with program := path } : RunTool.Request).verbose = false :=
    fun _ => quiet
  rw [RunTool.work_of_quiet (quietAt target), RunTool.work_of_quiet (quietAt source)]
  have settings : ∀ path, RunTool.settingsFor { request with program := path } surroundings =
      RunTool.settingsFor request surroundings :=
    fun _ => rfl
  simp only [RunTool.warned, settings, loads]
  cases Machine.ofSettings (RunTool.settingsFor request surroundings).1 with
  | error error => rfl
  | ok machine => exact RunTool.proceed_withDirectory target

/-- A call that refuses the source does not succeed. -/
theorem not_succeeds_of_rejected (quiet : request.verbose = false) {rejection : Rejection}
    (rejected : ∀ machine,
      (RunTool.load directory surroundings.elapsed request.program machine).2 =
        .error (.rejected rejection)) :
    ¬ (RunTool.work request surroundings fuel directory terminal).Succeeds := by
  rw [RunTool.work_of_quiet quiet]
  cases Machine.ofSettings (RunTool.settingsFor request surroundings).1 with
  | error error => exact Result.not_succeeds_failWith
  | ok machine =>
      simp only [rejected]
      exact Result.not_succeeds_failWith

end Runs

section Files

variable {surroundings : Surroundings} {terminal : Terminal} {place : Place}

/-- The run tool compiles a blank source, which the compile tool does not. -/
theorem not_routesAgree_of_blank (normal : source.IsNormal)
    (suffix : source.suffix = Files.sourceSuffix)
    (reads : Files.readText directory source = .ok text)
    (beside : Files.programPath source = .ok target) (blank : (Text.trim text).isEmpty = true) :
    ¬ RoutesAgree directory source target
      (CompileTool.work (CompileTool.plain source) surroundings directory terminal) := by
  intro agree
  have room : 1 ≤ ({} : CompileOptions).maxWords := by decide
  rcases Compilation.exists_ofSource_of_blank room fun c => Text.isBlank_of_trim blank with
    ⟨compilation, compiled⟩
  have failed := CompileTool.work_plain_of_blank normal reads beside surroundings terminal blank
  -- Any machine shows it, since the source is compiled before the memory is looked at.
  rcases (agree.rejects 0 ⟨.ofMemory (.ofSize 1), .empty⟩).mp failed with ⟨rejection, rejected⟩
  rw [RunTool.load_of_compiled _ _ suffix reads compiled] at rejected
  exact RunTool.counted_ne_rejected rejected

variable (normal : source.IsNormal) (reads : Files.readText directory source = .ok text)
  (beside : Files.programPath source = .ok target) (given : (Text.trim text).isEmpty = false)
  (suffix : source.suffix = Files.sourceSuffix)

include normal reads beside given suffix

theorem routesAgree_of_rejected {rejection : Rejection}
    (rejected : Compilation.ofSource {} source.render text = .error rejection) :
    RoutesAgree directory source target
      (CompileTool.work (CompileTool.plain source) surroundings directory terminal) := by
  have refused := fun elapsed machine =>
    RunTool.load_of_rejected elapsed machine suffix reads rejected
  have failed : (CompileTool.work (CompileTool.plain source) surroundings directory
      terminal).status ≠ .success := by
    rw [CompileTool.work_plain_of_rejected normal reads beside surroundings terminal given rejected]
    exact failWith_ne_success
  constructor
  case rejects =>
    intro elapsed machine
    exact ⟨fun _ => ⟨rejection, refused elapsed machine⟩, fun _ => failed⟩
  case loads => exact fun success => absurd success failed
  case runs => exact fun success => absurd success failed
  case succeeds =>
    intro request quiet others fuel terminal
    constructor
    · intro succeeds
      exact absurd succeeds (not_succeeds_of_rejected quiet (refused others.elapsed))
    · exact fun both => absurd both.1 failed

theorem routesAgree_of_compiled (takes : (directory.find target).Takes place)
    {compilation : Compilation}
    (compiled : Compilation.ofSource {} source.render text = .ok compilation) :
    RoutesAgree directory source target
      (CompileTool.work (CompileTool.plain source) surroundings directory terminal) := by
  have program : target.suffix ≠ Files.sourceSuffix := by
    have suffixed : source.suffix ≠ "" := by
      rw [suffix]
      decide
    have wellFormed : Path.IsSuffix Files.programSuffix :=
      ⟨['s', 'm', 'l'], rfl, by simp, by simp⟩
    rw [Path.suffix_of_withSuffix suffixed wellFormed beside]
    decide
  rcases CompileTool.work_plain_of_compiled normal reads beside surroundings terminal given takes
    compiled with ⟨success, written⟩
  have direct := fun elapsed machine =>
    RunTool.load_of_compiled elapsed machine suffix reads compiled
  have loads : ∀ elapsed machine,
      (RunTool.load (CompileTool.work (CompileTool.plain source) surroundings directory
          terminal).directory elapsed target machine).2 =
        (RunTool.load directory elapsed source machine).2 := by
    intro elapsed machine
    rw [RunTool.load_program elapsed machine program written, direct]
  constructor
  case rejects =>
    intro elapsed machine
    constructor
    · exact fun failed => absurd success failed
    · rintro ⟨rejection, rejected⟩
      rw [direct] at rejected
      exact absurd rejected RunTool.counted_ne_rejected
  case loads => exact fun _ => loads
  case runs =>
    intro _ request quiet others fuel terminal
    exact work_eq_withDirectory quiet (loads others.elapsed)
  case succeeds =>
    intro request quiet others fuel terminal
    rw [work_eq_withDirectory quiet (loads others.elapsed), Result.succeeds_withDirectory]
    exact ⟨fun succeeds => ⟨success, succeeds⟩, fun both => both.2⟩

end Files

/-- A source file behaves the same by both routes if and only if it is not blank,
where a file can be put at the path of its program. -/
theorem routesAgree_iff {directory : Directory} {name text : String} {target : Path}
    {place : Place} (suffix : (Path.ofText name).suffix = Files.sourceSuffix)
    (reads : Files.readText directory (.ofText name) = .ok text)
    (beside : Files.programPath (.ofText name) = .ok target)
    (takes : (directory.find target).Takes place) (surroundings : Surroundings)
    (terminal : Terminal) :
    RoutesAgree directory (.ofText name) target
        (CompileTool.work (CompileTool.plain (.ofText name)) surroundings directory terminal) ↔
      (Text.trim text).isEmpty = false := by
  have normal := Path.isNormal_ofText name
  constructor
  · intro agree
    rw [Bool.eq_false_iff]
    exact fun blank => not_routesAgree_of_blank normal suffix reads beside blank agree
  · intro given
    cases outcome : Compilation.ofSource {} (Path.ofText name).render text with
    | error rejection => exact routesAgree_of_rejected normal reads beside given suffix outcome
    | ok compilation => exact routesAgree_of_compiled normal reads beside given suffix takes outcome

theorem routesAgree_iff_echo :
    let directory : Directory := ⟨[(["echo.smp"], .file (Text.Utf8.encode "a=0\nREAD a\nWRITE a"))]⟩
    Files.readText directory (.ofText "echo.smp") = .ok "a=0\nREAD a\nWRITE a" ∧
      RoutesAgree directory (.ofText "echo.smp") (.ofText "echo.sml")
        (CompileTool.work (CompileTool.plain (.ofText "echo.smp")) ⟨none, 0⟩ directory
          (.ofInput [])) := by
  intro directory
  have reads : Files.readText directory (.ofText "echo.smp") = .ok "a=0\nREAD a\nWRITE a" := by
    decide +kernel
  have takes : (directory.find (.ofText "echo.sml")).Takes ["echo.sml"] := by
    rw [show directory.find (.ofText "echo.sml") = .vacant ["echo.sml"] by decide +kernel]
    exact .vacant _
  exact ⟨reads, (routesAgree_iff (by decide +kernel) reads (by decide +kernel) takes ⟨none, 0⟩
    (.ofInput [])).mpr (by decide +kernel)⟩

/-- An empty line alone is run, and not compiled. -/
theorem not_routesAgree_newline :
    ¬ RoutesAgree ⟨[(["blank.smp"], .file [0x0A])]⟩ (.ofText "blank.smp") (.ofText "blank.sml")
      (CompileTool.work (CompileTool.plain (.ofText "blank.smp")) ⟨none, 0⟩
        ⟨[(["blank.smp"], .file [0x0A])]⟩ (.ofInput [])) := by
  have reads : Files.readText ⟨[(["blank.smp"], .file [0x0A])]⟩ (.ofText "blank.smp") =
      .ok "\n" := by
    decide +kernel
  exact not_routesAgree_of_blank (Path.isNormal_ofText "blank.smp") (by decide +kernel) reads
    (by decide +kernel) (by decide +kernel)

end CommandLine

end DecimalMachine
