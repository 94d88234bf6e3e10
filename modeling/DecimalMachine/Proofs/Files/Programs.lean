import DecimalMachine.Files.Programs
import DecimalMachine.Proofs.Files.Directory
import DecimalMachine.Proofs.Files.Path
import DecimalMachine.Proofs.Program.Refinement
import DecimalMachine.Proofs.Text.Lines
import DecimalMachine.Proofs.Text.Utf8

/-!
# Program files

Words that are written to a file, one on a line, are read from it, but for the
blanks around them.  The words of a compilation are visible ASCII texts, and are
read as they are.
-/

namespace DecimalMachine

open Program

/-- The words of a compilation are digits, but for the signs. -/
theorem Compilation.isVisible_of_mem_words {options : CompileOptions} {file source : String}
    {compilation : Compilation} (valid : options.check = .ok options)
    (compiled : ofSource options file source = .ok compilation) {word : String}
    (member : word ∈ compilation.words) : Text.IsVisible word := by
  rcases exists_accepted valid compiled with ⟨lines, layout, body, symbols, accepted⟩
  rcases accepted.assembled.digits_of_mem_words accepted.executable member with ⟨given, digits⟩
  constructor
  · exact given
  · intro c inside
    rcases digits c inside with digit | rfl
    · have bounds := Text.toNat_of_isDigit digit
      omega
    · decide
  · intro c inside
    rcases digits c inside with digit | rfl
    · exact Text.isBlank_of_isDigit digit
    · rfl

namespace Files

variable {directory : Directory} {path : Path} {place : Place} {text : String}
  {words : List String}

/-- Words are read from the text that they are written as. -/
theorem wordsOfText_unlines (whole : ∀ word ∈ words, Text.IsWord word) :
    wordsOfText (Text.unlines words) = words.map Text.trim := by
  cases words with
  | nil => rfl
  | cons first rest =>
      have inside := fun word member => (whole word member).inside
      rw [wordsOfText, Text.lines_unlines (List.cons_ne_nil first rest) inside,
        List.filter_eq_self]
      intro trimmed member
      obtain ⟨word, given, rfl⟩ := List.mem_map.mp member
      simpa [String.isEmpty_iff] using (whole word given).given

/-- The text of words is read from the file that it is written to. -/
theorem decodeText_encode_unlines (whole : ∀ word ∈ words, Text.IsWord word) :
    decodeText (Text.Utf8.encode (Text.unlines words)) = .ok (Text.unlines words) := by
  have newlines : ∀ c ∈ (Text.unlines words).toList, c ≠ '\r' := by
    rintro c member rfl
    rcases Text.mem_unlines member with newline | ⟨word, member, here⟩
    · cases newline
    · cases (whole word member).inside _ here
  rw [decodeText, Text.Utf8.decode_encode]
  simp [Functor.map, Except.map, Except.mapError, Text.unifyNewlines_eq_self newlines]

/-- Words that are written to a file are read from it. -/
theorem readWords_put (takes : (directory.find path).Takes place)
    (whole : ∀ word ∈ words, Text.IsWord word) :
    readWords (directory.put place (Text.Utf8.encode (Text.unlines words))) path =
      .ok (words.map Text.trim) := by
  simp [readWords, readText, Directory.hasPath_put takes, Directory.read_put takes,
    decodeText_encode_unlines whole, wordsOfText_unlines whole, Except.mapError, bind,
    Except.bind, pure, Except.pure]

theorem readWords_put_of_visible (takes : (directory.find path).Takes place)
    (visible : ∀ word ∈ words, Text.IsVisible word) :
    readWords (directory.put place (Text.Utf8.encode (Text.unlines words))) path = .ok words := by
  have trimmed : words.map Text.trim = words := by
    rw [List.map_congr_left fun word member => Text.trim_eq_self (visible word member).visible]
    exact List.map_id _
  rw [readWords_put takes fun word member => (visible word member).isWord, trimmed]

theorem writeWords_of_takes (takes : (directory.find path).Takes place) :
    writeWords directory path words =
      .ok (directory.put place (Text.Utf8.encode (Text.unlines words))) := by
  rw [writeWords, Directory.write_of_takes takes]
  rfl

/-- The text of a file that can be read is what is compiled. -/
theorem compile_of_readText {options : CompileOptions} (normal : path.IsNormal)
    (reads : readText directory path = .ok text) :
    compile directory options path.render = compileText options path.render text := by
  have content := reads
  rw [readText, bind_eq_ok_iff] at content
  rcases content with ⟨content, here, _⟩
  have there : directory.hasPath path = .ok true := by
    cases found : directory.read path with
    | ok content => exact Directory.hasPath_of_read found
    | error error =>
        rw [found] at here
        cases here
  rw [compile, Path.ofText_render normal]
  simp [there, reads, Except.mapError, bind, Except.bind]

/-- A text that is not blank is compiled like any source. -/
theorem compileText_of_not_blank {options : CompileOptions} {name : String}
    (given : (Text.trim text).isEmpty = false) :
    compileText options name text =
      (Compilation.ofSource options name text).mapError .rejected := by
  rw [compileText, given]
  simp

end Files

end DecimalMachine
