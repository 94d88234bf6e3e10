import DecimalMachine.Proofs.Files.Programs
import DecimalMachine.Proofs.Program.Blank

/-!
# Newline conventions

A file is read with a line feed for every newline.  This changes neither the
lines of a text, whatever mixture of terminators ends them, nor whether the text
is blank.  Compiling and loading look at nothing else, so a file is compiled and
loaded like the text that its bytes encode.
-/

namespace DecimalMachine

namespace Text

variable {text : List Char}

/-- A carriage return is a terminator by itself unless a line feed follows. -/
theorem lineChars_eq {c : Char} {rest : List Char}
    (alone : ∀ more, c = '\r' → rest = '\n' :: more → False) :
    lineChars (c :: rest) =
      if isLineEnd c then [] :: lineChars rest else consLine c (lineChars rest) := by
  rw [lineChars]
  exact alone

theorem lineChars_newline (rest : List Char) :
    lineChars ('\n' :: rest) = [] :: lineChars rest := by
  rw [lineChars_eq (by simp)]
  rfl

/-- Every convention ends the same lines. -/
theorem lineChars_unifyNewlineChars : lineChars (unifyNewlineChars text) = lineChars text := by
  induction text using unifyNewlineChars.induct with
  | case1 => rfl
  | case2 rest ih => rw [unifyNewlineChars, lineChars_newline, ih, lineChars]
  | case3 rest alone ih =>
      rw [unifyNewlineChars, lineChars_newline, ih, lineChars_eq fun more _ => alone more]
      · rfl
      · exact alone
  | case4 c rest pair other ih =>
      rw [unifyNewlineChars, lineChars_eq fun _ same _ => other same, ih, lineChars_eq pair]
      · exact pair
      · exact other

theorem lines_unifyNewlines (text : String) : lines (unifyNewlines text) = lines text := by
  rw [lines, lines, unifyNewlines, String.toList_ofList, lineChars_unifyNewlineChars]

/-- A newline of any convention is blank, so a text is blank in all of them. -/
theorem all_isBlank_unifyNewlineChars :
    (unifyNewlineChars text).all isBlank = text.all isBlank := by
  have feed : isBlank '\n' = true := by decide
  have back : isBlank '\r' = true := by decide
  induction text using unifyNewlineChars.induct with
  | case1 => rfl
  | case2 rest ih => simp [unifyNewlineChars, ih, feed, back]
  | case3 rest alone ih =>
      rw [unifyNewlineChars]
      · simp [ih, feed, back]
      · exact alone
  | case4 c rest pair other ih =>
      rw [unifyNewlineChars]
      · simp [ih]
      · exact pair
      · exact other

/-- A text is empty between its blanks if it has nothing else. -/
theorem isEmpty_trim (text : String) : (trim text).isEmpty = text.toList.all isBlank := by
  rw [Bool.eq_iff_iff, List.all_eq_true]
  constructor
  · exact fun empty c member => isBlank_of_trim empty member
  · intro blank
    rw [trim_of_isBlank blank]
    rfl

theorem isEmpty_trim_unifyNewlines (text : String) :
    (trim (unifyNewlines text)).isEmpty = (trim text).isEmpty := by
  rw [isEmpty_trim, isEmpty_trim, unifyNewlines, String.toList_ofList,
    all_isBlank_unifyNewlineChars]

end Text

/-- A source counts only by its lines. -/
theorem Compilation.ofSource_congr {one other : String} (same : Text.lines one = Text.lines other)
    (options : CompileOptions) (file : String) :
    ofSource options file one = ofSource options file other := by
  have lines : Source.lines file one = Source.lines file other := by
    rw [Source.lines, Source.lines, Source.numbered, Source.numbered, same]
  have ends : Source.endsWithHalt one = Source.endsWithHalt other := by
    rw [Source.endsWithHalt, Source.endsWithHalt, same]
  rw [ofSource, ofSource, lines, ends]

namespace Files

variable {directory : Directory} {name text : String} {content : List UInt8}

theorem compileText_unifyNewlines (options : CompileOptions) (name text : String) :
    compileText options name (Text.unifyNewlines text) = compileText options name text := by
  rw [compileText, compileText, Text.isEmpty_trim_unifyNewlines,
    Compilation.ofSource_congr (Text.lines_unifyNewlines text)]

theorem wordsOfText_unifyNewlines (text : String) :
    wordsOfText (Text.unifyNewlines text) = wordsOfText text := by
  rw [wordsOfText, wordsOfText, Text.lines_unifyNewlines]

theorem readText_of_decode (reads : directory.read path = .ok content)
    (encoded : Text.Utf8.decode content = .ok text) :
    readText directory path = .ok (Text.unifyNewlines text) := by
  rw [readText, reads]
  simp [decodeText, encoded, Except.mapError, bind, Except.bind, Functor.map, Except.map]

/-- What a file is compiled to is told by its bytes. -/
theorem compile_of_read (options : CompileOptions)
    (reads : directory.read (.ofText name) = .ok content) :
    compile directory options name =
      ((Text.Utf8.decode content).mapError Failure.encoding).bind (compileText options name) := by
  rw [compile]
  cases decoded : Text.Utf8.decode content with
  | ok text =>
      simp [Directory.hasPath_of_read reads, readText_of_decode reads decoded,
        compileText_unifyNewlines, Except.mapError, bind, Except.bind]
  | error error =>
      simp [Directory.hasPath_of_read reads, readText, reads, decodeText, decoded,
        Except.mapError, bind, Except.bind, Functor.map, Except.map]

/-- A file is compiled and loaded like the text that its bytes encode, with the
newlines as they are. -/
structure IgnoresNewlines (directory : Directory) (name text : String) : Prop where
  compiles : (∃ c ∈ text.toList, Text.isBlank c = false) → ∀ options,
    compile directory options name =
      (Compilation.ofSource options name text).mapError .rejected
  refuses : (∀ c ∈ text.toList, Text.isBlank c = true) → ∀ options,
    compile directory options name = .error (.rejected (.source ⟨.emptyFile name, none, none⟩))
  words : readWords directory (.ofText name) =
    .ok (((Text.lines text).map Text.trim).filter (! ·.isEmpty))
  loads : ∀ machine, load directory (.ofText name) machine =
    ((machine.loadWords (wordsOfText text)).map
      ((wordsOfText text).length, ·)).mapError .load

/-- The newline conventions of a file do not matter. -/
theorem ignoresNewlines (reads : directory.read (.ofText name) = .ok content)
    (encoded : Text.Utf8.decode content = .ok text) : IgnoresNewlines directory name text := by
  have compiled : ∀ options, compile directory options name = compileText options name text := by
    intro options
    rw [compile_of_read options reads, encoded, Except.mapError, Except.bind]
  have words : readWords directory (.ofText name) = .ok (wordsOfText text) := by
    rw [readWords, Directory.hasPath_of_read reads]
    simp [readText_of_decode reads encoded, wordsOfText_unifyNewlines, Except.mapError, bind,
      Except.bind, pure, Except.pure]
  constructor
  case compiles =>
    rintro ⟨c, inside, visible⟩ options
    rw [compiled, compileText_of_not_blank]
    rw [Text.isEmpty_trim, List.all_eq_false]
    exact ⟨c, inside, by simp [visible]⟩
  case refuses =>
    intro blank options
    rw [compiled, compileText, if_pos]
    rw [Text.isEmpty_trim, List.all_eq_true]
    exact blank
  case words => exact words
  case loads =>
    intro machine
    rw [load, words]
    cases loaded : machine.loadWords (wordsOfText text) <;>
      simp [loaded, bind, Except.bind, Except.mapError, Except.map, pure, Except.pure]

/-- Terminators of all kinds stand together, the last of them before a halt. -/
theorem ignoresNewlines_mixture :
    let text := "> first\r\r\na=1\n\r\x0bWRITE a\u2028\x1c\r\nHALT\r"
    let directory : Directory := ⟨[(["a.smp"], .file (Text.Utf8.encode text))]⟩
    directory.read (.ofText "a.smp") = .ok (Text.Utf8.encode text) ∧
      Text.Utf8.decode (Text.Utf8.encode text) = .ok text ∧
      IgnoresNewlines directory "a.smp" text := by
  intro text directory
  have reads : directory.read (.ofText "a.smp") = .ok (Text.Utf8.encode text) := by
    decide +kernel
  have encoded : Text.Utf8.decode (Text.Utf8.encode text) = .ok text :=
    Text.Utf8.decode_encode text
  exact ⟨reads, encoded, ignoresNewlines reads encoded⟩

end Files

end DecimalMachine
