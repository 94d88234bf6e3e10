import DecimalMachine.Proofs.Program.Faults
import DecimalMachine.Proofs.Source.Truncation

/-!
# Error reports

A source is refused for one error.  The errors are looked for in a fixed order of
phases, whatever else is wrong with the source: the first line that cannot be read
comes before the first line that repeats a declaration, this before the first
line that cannot be emitted, and this before the size of the program.  In all
phases but the last the error points to the physical line at fault and quotes
it, and this line is not below a halt command.
-/

namespace DecimalMachine

namespace Source

/-- An error that complains about the physical line at an index, of which it
tells the place and the trimmed text.  No halt command is above this line. -/
structure PointsTo (file source : String) (index : Nat) (complaint : Complaint)
    (error : CompileError) : Prop where
  line : ∃ text, (Text.lines source)[index]? = some text ∧
    error = Line.complain (Text.trim text) ⟨file, index + 1⟩ complaint
  reached : ∀ text ∈ (Text.lines source).take index, isHaltText text = false

/-- There is one such error for a line that is not below a halt command. -/
theorem pointsTo_iff {file source text : String} {index : Nat} {complaint : Complaint}
    {error : CompileError} (here : (Text.lines source)[index]? = some text)
    (reached : ∀ text ∈ (Text.lines source).take index, isHaltText text = false) :
    PointsTo file source index complaint error ↔
      error = Line.complain (Text.trim text) ⟨file, index + 1⟩ complaint := by
  constructor
  · rintro ⟨⟨other, there, rfl⟩, _⟩
    rw [here] at there
    cases there
    rfl
  · rintro rfl
    exact ⟨⟨text, here, rfl⟩, reached⟩

theorem pointsTo_iff_of_readable {file source text : String} {above below : List String}
    {complaint : Complaint} {error : CompileError}
    (split : Text.lines source = above ++ text :: below)
    (readable : ∀ other ∈ above, ∃ form,
      Form.readTrimmed (Text.trim other).toList = .ok form ∧ form.isHalt = false) :
    PointsTo file source above.length complaint error ↔
      error = Line.complain (Text.trim text) ⟨file, above.length + 1⟩ complaint := by
  refine pointsTo_iff (by simp [split]) ?_
  intro other member
  rw [split, List.take_left] at member
  obtain ⟨form, read, going⟩ := readable other member
  rw [isHaltText, read]
  exact going

/-- No line above a line that is read is a halt command. -/
theorem isHaltText_of_mem_take {file source : String} {lines : List Line} {index : Nat}
    (read : Source.lines file source = .ok lines) (inside : index < lines.length)
    {text : String} (member : text ∈ (Text.lines source).take index) :
    isHaltText text = false := by
  obtain ⟨above, taken⟩ := List.mem_iff_getElem?.mp member
  rw [List.getElem?_take] at taken
  split at taken
  · next before =>
      have here : lines[above]? = some lines[above] := List.getElem?_eq_getElem (by omega)
      have going : lines[above].isHalt = false := by
        apply (readToHalt_eq_ok_iff.mp read).going
        rw [List.dropLast_eq_take, List.mem_take_iff_getElem]
        exact ⟨above, by omega, rfl⟩
      obtain ⟨other, physical, readLine⟩ := exists_text_of_lines read here
      rw [taken] at physical
      cases physical
      rw [isHaltText, Line.readTrimmed_of_read readLine]
      exact going
  · cases taken

end Source

namespace Program

/-- The lines of a source, with the decision which of them are kept. -/
structure LinesOf (options : CompileOptions) (file source : String) (lines : List Marked) :
    Prop where
  read : Source.lines file source = .ok (lines.map (·.line))
  decided : Decided options.optimize lines

/-- The causes for which a source is refused, each with the index of the physical
line at fault. -/
inductive Blames (options : CompileOptions) (file source : String) : Nat → Complaint → Prop where
  /-- The line cannot be read, but all lines above it can. -/
  | unread {above below : List String} {text : String} {malformation : Malformation}
      (split : Text.lines source = above ++ text :: below)
      (readable : ∀ other ∈ above, ∃ form,
        Form.readTrimmed (Text.trim other).toList = .ok form ∧ form.isHalt = false)
      (malformed : Form.readTrimmed (Text.trim text).toList = .error (.malformed malformation)) :
      Blames options file source above.length (.malformed malformation)
  /-- All lines can be read, and the line is the first that repeats a
  declaration. -/
  | repeated {lines above : List Marked} {marked : Marked} {complaint : Complaint}
      (linesOf : LinesOf options file source lines)
      (first : FirstFault (Repeats file) lines above marked complaint) :
      Blames options file source above.length complaint
  /-- All lines can be read and none repeats a declaration, and the line is the
  first that is defective. -/
  | defective {lines above : List Marked} {marked : Marked} {complaint : Complaint}
      (linesOf : LinesOf options file source lines)
      (single : Faultless (Repeats file) lines)
      (first : FirstFault (Defective (labelNames lines)) lines above marked complaint) :
      Blames options file source above.length complaint

/-- No line of a source is at fault, but the program has more words than it may
have: its instructions, with the halt that it gets where the source does not end
with one, and the variables that they work on. -/
inductive TooLarge (options : CompileOptions) (file source : String) : Nat → Nat → Prop where
  | size {lines : List Marked} (linesOf : LinesOf options file source lines)
      (single : Faultless (Repeats file) lines)
      (sound : Faultless (Defective (labelNames lines)) lines)
      (large : options.maxWords < (wordCount lines + (if Source.endsWithHalt source then 0 else 1) +
        (mentionedNames lines).card : Nat)) :
      TooLarge options file source
        (wordCount lines + if Source.endsWithHalt source then 0 else 1) (mentionedNames lines).card

section Sources

variable {options : CompileOptions} {file source : String} {lines above below : List Marked}
  {marked : Marked} {complaint : Complaint} {error : CompileError}

/-- The lines of a source are those that are marked when it is compiled. -/
theorem linesOf_iff :
    LinesOf options file source lines ↔
      ∃ read, Source.lines file source = .ok read ∧ lines = marks options.optimize read := by
  constructor
  · rintro ⟨read, decided⟩
    exact ⟨_, read, decided.unique (decided_marks read _) (map_line_marks read _).symm⟩
  · rintro ⟨lines, read, rfl⟩
    exact ⟨by rw [map_line_marks read, read], decided_marks read _⟩

theorem LinesOf.located (linesOf : LinesOf options file source lines) : Located file lines := by
  intro index marked here
  have there : (lines.map (·.line))[index]? = some marked.line := by
    rw [List.getElem?_map, here]
    rfl
  obtain ⟨text, _, readLine⟩ := Source.exists_text_of_lines linesOf.read there
  exact (Line.read_eq_ok_iff.mp readLine).2.2

/-- The error of a line points to the physical line from which it was read. -/
theorem LinesOf.pointsTo_iff (linesOf : LinesOf options file source lines)
    (split : lines = above ++ marked :: below) :
    Source.PointsTo file source above.length complaint error ↔
      error = marked.complain complaint := by
  have here : (lines.map (·.line))[above.length]? = some marked.line := by simp [split]
  obtain ⟨text, physical, readLine⟩ := Source.exists_text_of_lines linesOf.read here
  obtain ⟨_, trimmed, place⟩ := Line.read_eq_ok_iff.mp readLine
  have inside := (List.getElem?_eq_some_iff.mp here).1
  rw [Source.pointsTo_iff physical fun _ => Source.isHaltText_of_mem_take linesOf.read inside,
    Marked.complain, trimmed, place]

theorem assemble_eq_error_iff {maxWords : Int} {code : List Emitted} {symbols : SymbolTable}
    {labels : Table Nat} {eliminated : List String} {implicitHalt : Bool} :
    assemble maxWords code symbols labels eliminated implicitHalt = .error error ↔
      maxWords < (code.length + (slots code).length : Nat) ∧
        error = ⟨.tooLarge code.length (slots code).length maxWords, none, none⟩ := by
  simp only [assemble]
  split
  · next large =>
      rw [and_iff_right large, Except.error.injEq, eq_comm]
  · next fits =>
      constructor
      · rintro ⟨⟩
      · rintro ⟨large, _⟩
        exact absurd large fits

/-- Lines that are laid out are refused for the first of them that is defective,
and if there is none, for the size of the program. -/
theorem emit_assemble_eq_error_iff (linesOf : LinesOf options file source lines)
    {layout : Layout} (placed : Layout.empty.placeAll lines = .ok layout) (terminated : Bool) :
    (emit layout.labels .empty lines >>= fun (code, symbols) =>
        assemble options.maxWords (close (!terminated) code) symbols layout.labels
          (droppedNames lines) (!terminated)) = .error error ↔
      (∃ above marked complaint,
        FirstFault (Defective (labelNames lines)) lines above marked complaint ∧
          error = marked.complain complaint) ∨
      Faultless (Defective (labelNames lines)) lines ∧
        options.maxWords < (wordCount lines + (if terminated then 0 else 1) +
          (mentionedNames lines).card : Nat) ∧
        error = ⟨.tooLarge (wordCount lines + if terminated then 0 else 1)
          (mentionedNames lines).card options.maxWords, none, none⟩ := by
  obtain ⟨nodup, _⟩ := Layout.exists_placeAll_empty_iff.mp ⟨layout, placed⟩
  have names : layout.labels.names = labelNames lines := Layout.labelNames_of_placeAll placed
  have size : ∀ code symbols, emit layout.labels .empty lines = .ok (code, symbols) →
      (close (!terminated) code).length = wordCount lines + (if terminated then 0 else 1) ∧
        (slots (close (!terminated) code)).length = (mentionedNames lines).card :=
    fun code _ emitted => ⟨by rw [length_close, length_of_emit emitted], length_slots emitted _⟩
  -- That no line is defective is the same as that all of them were emitted.
  rw [bind_eq_error_iff, emit_eq_error_iff linesOf.decided nodup, ← names,
    ← exists_emit_iff_faultless linesOf.decided nodup]
  refine or_congr Iff.rfl ?_
  constructor
  · rintro ⟨⟨code, symbols⟩, emitted, failed⟩
    obtain ⟨instructions, data⟩ := size code symbols emitted
    rw [assemble_eq_error_iff, instructions, data] at failed
    exact ⟨⟨_, emitted⟩, failed⟩
  · rintro ⟨⟨⟨code, symbols⟩, emitted⟩, failed⟩
    obtain ⟨instructions, data⟩ := size code symbols emitted
    rw [← instructions, ← data] at failed
    exact ⟨_, emitted, assemble_eq_error_iff.mpr failed⟩

/-- The phases in which lines are compiled, each with its errors. -/
theorem ofLines_eq_error_iff (linesOf : LinesOf options file source lines) {terminated : Bool} :
    ofLines options (some terminated) (lines.map (·.line)) = .error error ↔
      (∃ above marked complaint, FirstFault (Repeats file) lines above marked complaint ∧
        error = marked.complain complaint) ∨
      Faultless (Repeats file) lines ∧
        ((∃ above marked complaint,
          FirstFault (Defective (labelNames lines)) lines above marked complaint ∧
            error = marked.complain complaint) ∨
        Faultless (Defective (labelNames lines)) lines ∧
          options.maxWords < (wordCount lines + (if terminated then 0 else 1) +
            (mentionedNames lines).card : Nat) ∧
          error = ⟨.tooLarge (wordCount lines + if terminated then 0 else 1)
            (mentionedNames lines).card options.maxWords, none, none⟩) := by
  have same : marks options.optimize (lines.map (·.line)) = lines := by
    obtain ⟨read, found, rfl⟩ := linesOf_iff.mp linesOf
    rw [map_line_marks found]
  rw [ofLines, same, bind_eq_error_iff, Layout.placeAll_eq_error_iff linesOf.located,
    ← Layout.exists_placeAll_iff_faultless linesOf.located]
  refine or_congr Iff.rfl ?_
  constructor
  · rintro ⟨layout, placed, failed⟩
    exact ⟨⟨layout, placed⟩, (emit_assemble_eq_error_iff linesOf placed terminated).mp failed⟩
  · rintro ⟨⟨layout, placed⟩, failed⟩
    exact ⟨layout, placed, (emit_assemble_eq_error_iff linesOf placed terminated).mpr failed⟩

end Sources

end Program

namespace Compilation

variable {options : CompileOptions} {file source : String} {error : CompileError}

theorem ofSource_eq_source_iff :
    ofSource options file source = .error (.source error) ↔
      Source.lines file source = .error (.source error) ∨
        ∃ lines, Source.lines file source = .ok lines ∧
          Program.ofLines options (some (Source.endsWithHalt source)) lines = .error error := by
  rw [ofSource, bind_eq_error_iff]
  refine or_congr Iff.rfl (exists_congr fun lines => and_congr_right fun _ => ?_)
  cases Program.ofLines options (some (Source.endsWithHalt source)) lines with
  | ok program => simp [pure, Except.pure]
  | error other => simp

/-- A source is refused for the first line that cannot be read, else for the
first that repeats a declaration, else for the first that is defective, and else
for the size of its program.  The error of a line points to it. -/
theorem ofSource_eq_source_error_iff :
    ofSource options file source = .error (.source error) ↔
      (∃ index complaint, Program.Blames options file source index complaint ∧
        Source.PointsTo file source index complaint error) ∨
      ∃ instructions data, Program.TooLarge options file source instructions data ∧
        error = ⟨.tooLarge instructions data options.maxWords, none, none⟩ := by
  rw [ofSource_eq_source_iff]
  constructor
  · rintro (unread | ⟨lines, read, failed⟩)
    · obtain ⟨above, text, below, split, readable, failed⟩ := Source.lines_eq_error_iff.mp unread
      obtain ⟨malformation, malformed, rfl⟩ := Line.read_eq_source_iff.mp failed
      exact .inl ⟨above.length, _, .unread split readable malformed,
        (Source.pointsTo_iff_of_readable split readable).mpr rfl⟩
    · have linesOf : Program.LinesOf options file source (Program.marks options.optimize lines) :=
        Program.linesOf_iff.mpr ⟨lines, read, rfl⟩
      rw [← Program.map_line_marks read options.optimize,
        Program.ofLines_eq_error_iff linesOf] at failed
      rcases failed with ⟨above, marked, complaint, first, rfl⟩ |
        ⟨single, ⟨above, marked, complaint, first, rfl⟩ | ⟨sound, large, rfl⟩⟩
      · obtain ⟨below, split⟩ := first.split
        exact .inl ⟨above.length, complaint, .repeated linesOf first,
          (linesOf.pointsTo_iff split).mpr rfl⟩
      · obtain ⟨below, split⟩ := first.split
        exact .inl ⟨above.length, complaint, .defective linesOf single first,
          (linesOf.pointsTo_iff split).mpr rfl⟩
      · exact .inr ⟨_, _, .size linesOf single sound large, rfl⟩
  · rintro (⟨index, complaint, blames, points⟩ | ⟨instructions, data, tooLarge, rfl⟩)
    · cases blames with
      | unread split readable malformed =>
          have same := (Source.pointsTo_iff_of_readable split readable).mp points
          exact .inl (Source.lines_eq_error_iff.mpr ⟨_, _, _, split, readable,
            Line.read_eq_source_iff.mpr ⟨_, malformed, same⟩⟩)
      | repeated linesOf first =>
          obtain ⟨below, split⟩ := first.split
          have same := (linesOf.pointsTo_iff split).mp points
          exact .inr ⟨_, linesOf.read, (Program.ofLines_eq_error_iff linesOf).mpr
            (.inl ⟨_, _, complaint, first, same⟩)⟩
      | defective linesOf single first =>
          obtain ⟨below, split⟩ := first.split
          have same := (linesOf.pointsTo_iff split).mp points
          exact .inr ⟨_, linesOf.read, (Program.ofLines_eq_error_iff linesOf).mpr
            (.inr ⟨single, .inl ⟨_, _, complaint, first, same⟩⟩)⟩
    · cases tooLarge with
      | size linesOf single sound large =>
          exact .inr ⟨_, linesOf.read, (Program.ofLines_eq_error_iff linesOf).mpr
            (.inr ⟨single, .inr ⟨sound, large, rfl⟩⟩)⟩

/-- A variable that is declared again is refused before an unknown command above
it, at the line that repeats it. -/
example :
    (Compilation.ofSource {} "twice" "a=1\nLEAP a\n a = 2").map (fun _ => ()) =
      .error (.source
        ⟨.duplicate .variable "a" ⟨"twice", 1⟩, some ⟨"twice", 3⟩, some "a = 2"⟩) := by
  decide +kernel

end Compilation

end DecimalMachine
