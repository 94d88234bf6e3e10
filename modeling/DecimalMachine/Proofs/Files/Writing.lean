import DecimalMachine.Proofs.Files.Newlines
import DecimalMachine.Proofs.Machine.Loading

/-!
# Program files that are written

A source file is compiled to a program file wholly or not at all.  The bytes of
the source alone decide which it is.  The function that compiles a file to
another gives no new directory at a failure, so it is also stated in place, as a
program that empties the file before it writes the words: nothing is opened
before the source has been compiled.
-/

namespace DecimalMachine

/-! ## The bytes of a program -/

/-- The bytes of lines are those of each line and of the line feed at its end. -/
theorem Text.Utf8.encode_unlines {lines : List String} (given : lines ≠ []) :
    encode (unlines lines) =
      lines.flatMap fun line => line.toList.flatMap String.utf8EncodeChar ++ [0x0A] := by
  have feed : String.utf8EncodeChar '\n' = [0x0A] := rfl
  rw [encode]
  induction lines with
  | nil => exact absurd rfl given
  | cons first rest ih =>
      cases rest with
      | nil =>
          rw [unlines_singleton, List.flatMap_append, List.flatMap_singleton, feed,
            List.flatMap_singleton]
      | cons second rest =>
          rw [unlines_cons_cons, List.flatMap_append, List.flatMap_cons, feed,
            ih (List.cons_ne_nil second rest)]
          simp

/-- A program has at least the word of a halt. -/
theorem Compilation.words_ne_nil {options : CompileOptions} {file source : String}
    {compilation : Compilation} (compiled : ofSource options file source = .ok compilation) :
    compilation.words ≠ [] := by
  obtain ⟨lines, program, read, made, rfl⟩ := ofSource_eq_ok_iff.mp compiled
  obtain ⟨layout, body, symbols, assembled⟩ := Program.assembled_of_ofLines made
  have last := assembled.getLast?_code (Program.ends_marks read options.optimize)
  intro empty
  have without : program.instructions = [] := (List.append_eq_nil_iff.mp empty).1
  rw [assembled.instructions, List.map_eq_nil_iff] at without
  rw [without] at last
  cases last

namespace Files

variable {directory : Directory} {output : Path} {place : Place} {name : String}
  {content : List UInt8} {options : CompileOptions}

theorem exists_ofSource_of_compile {compilation : Compilation}
    (compiled : compile directory options name = .ok compilation) :
    ∃ text, Compilation.ofSource options name text = .ok compilation := by
  simp only [compile, bind_eq_ok_iff] at compiled
  obtain ⟨there, _, compiled⟩ := compiled
  split at compiled
  · obtain ⟨text, _, compiled⟩ := bind_eq_ok_iff.mp compiled
    unfold compileText at compiled
    split at compiled
    · cases compiled
    · exact ⟨text, mapError_eq_ok_iff.mp compiled⟩
  · cases compiled

/-! ## Compiling in place -/

/-- Write bytes to a file, in place. -/
def writeInPlace (path : Path) (content : List UInt8) : EStateM Failure Directory Unit :=
  wholly fun directory => ((directory.write path content).map ((), ·)).mapError .file

/-- Write bytes to a file that is opened for it, which creates or empties it. -/
def replaceInPlace (path : Path) (content : List UInt8) : EStateM Failure Directory Unit := do
  writeInPlace path []
  writeInPlace path content

/-- A file that is emptied before it is written is written wholly or not at all. -/
theorem replaceInPlace_eq (path : Path) (content : List UInt8) :
    replaceInPlace path content = writeInPlace path content := by
  funext directory
  rw [replaceInPlace, bind_apply]
  rcases directory.write_cases path with ⟨error, fails⟩ | same | ⟨place, takes⟩
  · simp [writeInPlace, wholly, fails, Except.map, Except.mapError]
  · simp [writeInPlace, wholly, same, Except.map, Except.mapError]
  · have again : ((directory.put place []).find path).Takes place := by
      rw [Directory.find_put takes]
      exact .file place []
    simp [writeInPlace, wholly, Directory.write_of_takes takes, Directory.write_of_takes again,
      Directory.put_put, Except.map, Except.mapError]

/-- Compile a source file and write its program, in place. The program file is opened
when there is something to write. -/
def compileInPlace (options : CompileOptions) (name : String) (path : Path) :
    EStateM Failure Directory Compilation := do
  match compile (← get) options name with
  | .error failure => throw failure
  | .ok compilation =>
      replaceInPlace path (Text.Utf8.encode (Text.unlines compilation.words))
      pure compilation

/-- A source file is compiled wholly or not at all. -/
theorem compileInPlace_eq (options : CompileOptions) (name : String) (path : Path) :
    compileInPlace options name path =
      wholly fun directory => compileTo directory options name path := by
  funext directory
  rw [compileInPlace, bind_apply, get_apply]
  simp only [wholly, compileTo, writeWords]
  cases compile directory options name with
  | error failure => rfl
  | ok compilation =>
      dsimp only
      rw [bind_apply, replaceInPlace_eq, writeInPlace, wholly]
      simp only [bind, Except.bind]
      cases directory.write path (Text.Utf8.encode (Text.unlines compilation.words)) <;> rfl

/-! ## What the bytes decide -/

/-- What a source file is compiled to, by its bytes. -/
inductive Verdict (options : CompileOptions) (name : String) (content : List UInt8) :
    Except Failure Compilation → Prop where
  /-- The bytes encode no text. -/
  | garbled {error : Text.Utf8.DecodeError} (fails : Text.Utf8.decode content = .error error) :
      Verdict options name content (.error (.encoding error))
  /-- The text has nothing but blanks. -/
  | blank {text : String} (encoded : Text.Utf8.decode content = .ok text)
      (blank : ∀ c ∈ text.toList, Text.isBlank c = true) :
      Verdict options name content (.error (.rejected (.source ⟨.emptyFile name, none, none⟩)))
  /-- The text is given and does not compile. -/
  | rejected {text : String} {rejection : Rejection}
      (encoded : Text.Utf8.decode content = .ok text)
      (given : ∃ c ∈ text.toList, Text.isBlank c = false)
      (fails : Compilation.ofSource options name text = .error rejection) :
      Verdict options name content (.error (.rejected rejection))
  /-- The text is given and compiles. -/
  | compiled {text : String} {compilation : Compilation}
      (encoded : Text.Utf8.decode content = .ok text)
      (given : ∃ c ∈ text.toList, Text.isBlank c = false)
      (compiles : Compilation.ofSource options name text = .ok compilation) :
      Verdict options name content (.ok compilation)

/-- A source file is compiled to what its bytes decide, and to nothing else. -/
theorem verdict_iff (reads : directory.read (.ofText name) = .ok content)
    {outcome : Except Failure Compilation} :
    Verdict options name content outcome ↔ compile directory options name = outcome := by
  constructor
  · intro verdict
    cases verdict with
    | garbled fails =>
        rw [compile_of_read options reads, fails]
        rfl
    | blank encoded blank => exact (ignoresNewlines reads encoded).refuses blank options
    | rejected encoded given fails =>
        rw [(ignoresNewlines reads encoded).compiles given options, fails]
        rfl
    | compiled encoded given compiles =>
        rw [(ignoresNewlines reads encoded).compiles given options, compiles]
        rfl
  · rintro rfl
    cases decoded : Text.Utf8.decode content with
    | error error =>
        rw [compile_of_read options reads, decoded]
        exact .garbled decoded
    | ok text =>
        have alike := ignoresNewlines reads decoded
        by_cases given : ∃ c ∈ text.toList, Text.isBlank c = false
        · rw [alike.compiles given]
          cases compiled : Compilation.ofSource options name text with
          | error rejection => exact .rejected decoded given compiled
          | ok compilation => exact .compiled decoded given compiled
        · have blank : ∀ c ∈ text.toList, Text.isBlank c = true := by simpa using given
          rw [alike.refuses blank]
          exact .blank decoded blank

/-- The bytes of a source file decide one outcome. -/
theorem exists_verdict (options : CompileOptions)
    (reads : directory.read (.ofText name) = .ok content) :
    ∃ outcome, compile directory options name = outcome ∧
      ∀ other, Verdict options name content other ↔ other = outcome := by
  refine ⟨_, rfl, fun other => ?_⟩
  rw [verdict_iff reads, eq_comm]

/-- What is left of a directory: the words of the program where the source was
compiled, each of them ended by a line feed, with everything else as it was, and
otherwise the directory as it was. -/
inductive Leaves (before : Directory) (output : Path) (place : Place) :
    Except Failure Compilation → Directory → Prop where
  | program {compilation : Compilation} {after : Directory}
      (written : after.read output = .ok (compilation.words.flatMap fun word =>
        word.toList.flatMap String.utf8EncodeChar ++ [0x0A]))
      (others : ∀ other, other ≠ place → after.node? other = before.node? other) :
      Leaves before output place (.ok compilation) after
  | nothing {failure : Failure} : Leaves before output place (.error failure) before

theorem leaves_put (takes : (directory.find output).Takes place) {compilation : Compilation}
    (compiled : compile directory options name = .ok compilation) :
    Leaves directory output place (.ok compilation)
      (directory.put place (Text.Utf8.encode (Text.unlines compilation.words))) := by
  obtain ⟨text, compiles⟩ := exists_ofSource_of_compile compiled
  refine .program ?_ fun _ => Directory.node?_put_of_ne takes
  rw [Directory.read_put takes, Text.Utf8.encode_unlines (Compilation.words_ne_nil compiles)]

/-- A compilation to a file comes to an outcome, as a function and in place. -/
structure Settles (options : CompileOptions) (name : String) (output : Path) (place : Place)
    (before : Directory) (outcome : Except Failure Compilation) (after : Directory) : Prop where
  leaves : Leaves before output place outcome after
  returns : compileTo before options name output = outcome.map (·, after)
  ends : (compileInPlace options name output).run before =
    match outcome with
    | .ok compilation => .ok compilation after
    | .error failure => .error failure after

theorem exists_settles (takes : (directory.find output).Takes place) (options : CompileOptions)
    (name : String) :
    ∃ after,
      Settles options name output place directory (compile directory options name) after := by
  cases compiled : compile directory options name with
  | error failure =>
      have returns : compileTo directory options name output = .error failure := by
        simp [compileTo, compiled, bind, Except.bind]
      refine ⟨directory, .nothing, returns, ?_⟩
      rw [compileInPlace_eq, wholly_eq_error_iff]
      exact ⟨returns, rfl⟩
  | ok compilation =>
      have returns : compileTo directory options name output = .ok (compilation,
          directory.put place (Text.Utf8.encode (Text.unlines compilation.words))) := by
        simp [compileTo, compiled, writeWords_of_takes takes, bind, Except.bind, pure, Except.pure]
      refine ⟨_, leaves_put takes compiled, returns, ?_⟩
      rw [compileInPlace_eq, wholly_eq_ok_iff]
      exact returns

end Files

end DecimalMachine
