import DecimalMachine.CommandLine.Tool
import DecimalMachine.Proofs.Files.Writing

/-!
# All or nothing

The compile tool writes the whole program of a source file or does nothing.
Which it is depends only on the bytes of the source, and neither on the words it
says nor on where the program goes.  Compiling a file to another without the
tool does the same.
-/

namespace DecimalMachine.CommandLine

open Files (Verdict Leaves)

variable {directory : Directory}

/-! ## What is on the output -/

namespace Terminal

variable (terminal : Terminal) (text : String)

theorem output_ofInput (lines : List String) : (ofInput lines).output = "" :=
  rfl

theorem output_print_error : (terminal.print .error text).output = terminal.output := by
  simp [print, output]

theorem output_warn : (terminal.warn text).output = terminal.output :=
  output_print_error terminal _

theorem output_say :
    (terminal.say text).output = terminal.output ++ (Text.dropEscapes text ++ "\n") := by
  simp [say, print, output]

theorem output_tell (verbose : Bool) (records : List Record) :
    (terminal.tell verbose records).output = terminal.output := by
  rw [tell]
  induction records.filter (·.isShown verbose) generalizing terminal with
  | nil => rfl
  | cons record rest ih => rw [List.foldl_cons, ih, output_print_error]

end Terminal

/-! ## Paths that were accepted -/

theorem find_of_locate {text : String} {place : Place} {node : Node}
    (located : locate directory text = .ok (.node place node)) :
    directory.find (.ofText text) = .node place node := by
  unfold locate at located
  split at located
  · cases located
  · split at located
    · cases located
    · exact Except.ok.inj located

/-- A path that was accepted as that of a file leads to something that can be read. -/
theorem exists_read_of_acceptFile {text : String} {path : Path}
    (accepted : acceptFile directory text = .ok path) :
    path = .ofText text ∧ ∃ content, directory.read path = .ok content := by
  rw [acceptFile, bind_eq_ok_iff] at accepted
  rcases accepted with ⟨destination, located, accepted⟩
  split at accepted
  · cases accepted
  next place node other =>
    split at accepted
    · cases accepted
    · cases accepted
      refine ⟨rfl, ?_⟩
      have found := find_of_locate located
      cases node with
      | folder => exact absurd rfl other
      | file content => exact ⟨content, by rw [Directory.read, found]⟩
      | sink | full => exact ⟨[], by rw [Directory.read, found]⟩
  · cases accepted

theorem exists_read_of_acceptOperands {operands : List String} {path : Path}
    (accepted : acceptOperands directory operands = .ok path) :
    path.IsNormal ∧ ∃ content, directory.read path = .ok content := by
  unfold acceptOperands at accepted
  split at accepted
  · cases accepted
  next text more =>
    rw [bind_eq_ok_iff] at accepted
    rcases accepted with ⟨taken, accepts, accepted⟩
    split at accepted
    · cases accepted
      rcases exists_read_of_acceptFile accepts with ⟨rfl, reads⟩
      exact ⟨Path.isNormal_ofText text, reads⟩
    · cases accepted

namespace CompileTool

variable {request : Request} {output : Path} {place : Place} {elapsed : Int} {terminal : Terminal}
  {content : List UInt8}

theorem exists_read_of_understand {arguments : List String}
    (understood : understand directory arguments = .ok (.work request)) :
    request.input.IsNormal ∧ ∃ content, directory.read request.input = .ok content := by
  unfold understand at understood
  split at understood
  · cases understood
  · split at understood
    · cases understood
    · cases understood
    · simp only [bind_eq_ok_iff] at understood
      rcases understood with ⟨output, _, input, accepted, understood⟩
      cases understood
      exact exists_read_of_acceptOperands accepted

/-! ## What the tool says and does -/

/-- The program file of a request: the one that is given, or the one next to the
source. -/
def Request.target? (request : Request) : Option Path :=
  request.output.or (Files.programPath request.input).toOption

/-- The line that a tool that tells what it does begins with. -/
def opening (request : Request) : String :=
  if request.verbose then
    Text.dropEscapes ("Compiling " ++ request.input.render ++ "...") ++ "\n"
  else ""

/-- The line that claims that a program was written. -/
def claim (request : Request) (output : Path) : String :=
  Text.dropEscapes ("Compiled " ++ request.input.render ++ " -> " ++ output.render) ++ "\n"

theorem work_of_target? (surroundings : Surroundings)
    (target : request.target? = some output) :
    work request surroundings directory terminal =
      produce request output surroundings.elapsed directory terminal := by
  rw [Request.target?] at target
  unfold work
  cases given : request.output with
  | some path =>
      rw [given] at target
      cases target
      rfl
  | none =>
      rw [given, Option.none_or] at target
      cases beside : Files.programPath request.input with
      | ok path =>
          rw [beside] at target
          cases target
          rfl
      | error error =>
          rw [beside] at target
          cases target

/-- The terminal when the source has been looked at. -/
def opened (request : Request) (elapsed : Int) (directory : Directory) (terminal : Terminal) :
    Terminal :=
  (if request.verbose then terminal.say ("Compiling " ++ request.input.render ++ "...")
    else terminal).tell request.verbose (narrate directory request.options elapsed request.input)

theorem output_opened : (opened request elapsed directory terminal).output =
    terminal.output ++ opening request := by
  rw [opened, Terminal.output_tell, opening]
  split
  · exact Terminal.output_say terminal _
  · simp

theorem produce_of_error {failure : Failure}
    (fails : Files.compile directory request.options request.input.render = .error failure) :
    produce request output elapsed directory terminal =
      failWith "Compilation" failure (opened request elapsed directory terminal) directory := by
  unfold produce
  simp only [fails]
  rfl

theorem exists_summary (request : Request) (elapsed : Int) (content : List UInt8)
    (takes : (directory.find output).Takes place) (compilation : Compilation) :
    ∃ front, summary request output elapsed compilation (directory.put place content) =
      .ok (front ++ ["Compiled " ++ request.input.render ++ " -> " ++ output.render]) := by
  have measured : (directory.put place content).size? output = .ok (some content.length) := by
    rw [Directory.size?, Directory.find_put takes]
  unfold summary
  split
  · simp only [Files.statistics, measured]
    split
    · exact ⟨[_], rfl⟩
    · exact ⟨[_, _], rfl⟩
  · exact ⟨[], rfl⟩

theorem produce_of_ok (elapsed : Int) (terminal : Terminal) {compilation : Compilation}
    (takes : (directory.find output).Takes place)
    (compiles : Files.compile directory request.options request.input.render = .ok compilation) :
    ∃ last, (∃ front, last.output = front ++ claim request output) ∧
      produce request output elapsed directory terminal =
        ⟨.success, last,
          directory.put place (Text.Utf8.encode (Text.unlines compilation.words))⟩ := by
  rcases exists_summary request elapsed (Text.Utf8.encode (Text.unlines compilation.words)) takes
    compilation with ⟨lines, summed⟩
  unfold produce
  simp only [compiles, Files.writeWords_of_takes takes, summed, List.foldl_append]
  exact ⟨_, ⟨_, Terminal.output_say _ _⟩, rfl⟩

/-! ## The calls -/

/-- The number that a tool ends with after a compilation. -/
inductive ExitsWith : Except Failure Compilation → Nat → Prop where
  | compiled {compilation : Compilation} : ExitsWith (.ok compilation) 0
  | source {error : CompileError} : ExitsWith (.error (.rejected (.source error))) 1
  | limit {error : Decimal.LimitError} : ExitsWith (.error (.rejected (.limit error))) 3
  | encoding {error : Text.Utf8.DecodeError} : ExitsWith (.error (.encoding error)) 3

/-- The end of a call for a source that is compiled to an outcome. -/
structure Ends (request : Request) (output : Path) (place : Place) (directory : Directory)
    (outcome : Except Failure Compilation) (finish : Finish) : Prop where
  exits : ExitsWith outcome finish.status.code
  leaves : Leaves directory output place outcome finish.directory
  claims : ∀ compilation, outcome = .ok compilation →
    ∃ front, finish.terminal.output = front ++ claim request output
  silent : ∀ failure, outcome = .error failure → finish.terminal.output = opening request

theorem exitsWith_of_verdict {options : CompileOptions} {name : String} {failure : Failure}
    (verdict : Verdict options name content (.error failure)) :
    ExitsWith (.error failure) (blame failure).status.code := by
  cases verdict with
  | garbled => exact .encoding
  | blank => exact .source
  | @rejected _ rejection =>
      cases rejection with
      | source error => exact .source
      | limit error => exact .limit

theorem ends_produce (takes : (directory.find output).Takes place)
    {outcome : Except Failure Compilation}
    (compiled : Files.compile directory request.options request.input.render = outcome)
    (verdict : Verdict request.options request.input.render content outcome)
    (empty : terminal.output = "") :
    Ends request output place directory outcome
      (produce request output elapsed directory terminal) := by
  cases outcome with
  | error failure =>
      rw [produce_of_error compiled]
      constructor
      case exits => exact exitsWith_of_verdict verdict
      case leaves => exact .nothing
      case claims => rintro _ ⟨⟩
      case silent =>
        intro _ _
        rw [failWith, Terminal.output_warn, output_opened, empty, String.empty_append]
  | ok compilation =>
      rcases produce_of_ok elapsed terminal takes compiled with ⟨last, claims, produced⟩
      rw [produced]
      constructor
      case exits => exact .compiled
      case leaves => exact Files.leaves_put takes compiled
      case claims => exact fun _ _ => claims
      case silent => rintro _ ⟨⟩

/-- Wherever a file can be put, a source file is compiled to it wholly or not at all,
by the tool as well as without it. -/
theorem compiles_wholly_or_not_at_all (takes : (directory.find output).Takes place) :
    (∀ arguments request, understand directory arguments = .ok (.work request) →
      request.target? = some output →
      ∃ content outcome, directory.read request.input = .ok content ∧
        (∀ other, Verdict request.options request.input.render content other ↔
          other = outcome) ∧
        ∀ surroundings fuel lines, ∃ finish,
          Tool.call .compile surroundings fuel arguments directory lines = .finished finish ∧
          Ends request output place directory outcome finish) ∧
    ∀ options name content, directory.read (.ofText name) = .ok content →
      ∃ outcome, (∀ other, Verdict options name content other ↔ other = outcome) ∧
        ∃ after, Files.Settles options name output place directory outcome after := by
  constructor
  · intro arguments request understood target
    rcases exists_read_of_understand understood with ⟨normal, content, reads⟩
    have named : directory.read (.ofText request.input.render) = .ok content := by
      rw [Path.ofText_render normal, reads]
    rcases Files.exists_verdict request.options named with ⟨outcome, compiled, verdict⟩
    refine ⟨content, outcome, reads, verdict, fun surroundings fuel lines => ?_⟩
    refine ⟨produce request output surroundings.elapsed directory (.ofInput lines), ?_,
      ends_produce takes compiled ((verdict outcome).mpr rfl) (Terminal.output_ofInput lines)⟩
    simp only [Tool.call, Tool.answer, understood, work_of_target? surroundings target]
  · intro options name content reads
    rcases Files.exists_verdict options reads with ⟨outcome, rfl, verdict⟩
    exact ⟨_, verdict, Files.exists_settles takes options name⟩

/-- A source file with the name of a program file is replaced by its program, which
are the words 1102, 4300 and 1. -/
theorem compiles_wholly_or_not_at_all_over_source :
    let source := Text.Utf8.encode "a=1\r\nWRITE a\rHALT"
    let program : List UInt8 :=
      [0x31, 0x31, 0x30, 0x32, 0x0A, 0x34, 0x33, 0x30, 0x30, 0x0A, 0x31, 0x0A]
    let directory : Directory := ⟨[(["x.sml"], .file source)]⟩
    let output := Path.ofText "x.sml"
    let request : Request := ⟨output, none, false, true⟩
    let arguments := ["-v", "--no-optimize", "./x.sml"]
    ((directory.find output).Takes ["x.sml"] ∧
      understand directory arguments = .ok (.work request) ∧ request.target? = some output) ∧
    (∃ content outcome, directory.read request.input = .ok content ∧
      (∀ other, Verdict request.options request.input.render content other ↔ other = outcome) ∧
      ∀ surroundings fuel lines, ∃ finish,
        Tool.call .compile surroundings fuel arguments directory lines = .finished finish ∧
        Ends request output ["x.sml"] directory outcome finish ∧ finish.status.code = 0 ∧
        finish.directory.read output = .ok program) ∧
    ∃ outcome, (∀ other, Verdict {} "x.sml" source other ↔ other = outcome) ∧
      ∃ after, Files.Settles {} "x.sml" output ["x.sml"] directory outcome after ∧
        after.read output = .ok program := by
  intro source program directory output request arguments
  have found : directory.find output = .node ["x.sml"] (.file source) := by decide +kernel
  have takes : (directory.find output).Takes ["x.sml"] := by
    rw [found]
    exact .file _ _
  have understood : understand directory arguments = .ok (.work request) := by
    decide +kernel
  have target : request.target? = some output := by decide +kernel
  have reads : directory.read output = .ok source := by rw [Directory.read, found]
  have verdict : ∀ optimize, ∃ compilation : Compilation,
      Verdict { optimize := optimize } "x.sml" source (.ok compilation) ∧
        compilation.words = ["1102", "4300", "1"] := by
    intro optimize
    have words : ((Compilation.ofSource { optimize := optimize } "x.sml"
        "a=1\r\nWRITE a\rHALT").map Compilation.words).toOption =
          some ["1102", "4300", "1"] := by
      cases optimize <;> decide +kernel
    obtain ⟨compilation, compiles, words⟩ := of_toOption_map_eq_some words
    exact ⟨compilation, .compiled (Text.Utf8.decode_encode _) ⟨'a', by decide, by decide⟩ compiles,
      words⟩
  have content : ∀ {compilation : Compilation} {after : Directory},
      compilation.words = ["1102", "4300", "1"] →
      Leaves directory output ["x.sml"] (.ok compilation) after →
        after.read output = .ok program := by
    rintro compilation after words ⟨written, _⟩
    rw [written, words]
    rfl
  have both := compiles_wholly_or_not_at_all takes
  refine ⟨⟨takes, understood, target⟩, ?_, ?_⟩
  · obtain ⟨bytes, outcome, readsBytes, decided, calls⟩ :=
      both.1 arguments request understood target
    cases reads.symm.trans readsBytes
    have rendered : request.input.render = "x.sml" := by decide +kernel
    obtain ⟨compilation, compiled, words⟩ := verdict false
    cases (decided _).mp (rendered ▸ compiled)
    refine ⟨_, _, readsBytes, decided, fun surroundings fuel lines => ?_⟩
    obtain ⟨finish, called, ends⟩ := calls surroundings fuel lines
    refine ⟨finish, called, ends, ?_, content words ends.leaves⟩
    have exits := ends.exits
    generalize finish.status.code = code at exits ⊢
    cases exits
    rfl
  · obtain ⟨outcome, decided, after, settles⟩ := both.2 {} "x.sml" source reads
    obtain ⟨compilation, compiled, words⟩ := verdict true
    cases (decided _).mp compiled
    exact ⟨_, decided, after, settles, content words settles.leaves⟩

end CompileTool

end DecimalMachine.CommandLine
