import DecimalMachine.Program.Compilation
import DecimalMachine.Proofs.Source.Extent

/-!
# Truncated sources

A source is cut off behind its first halt command.  What follows is not read, so
that sources which agree up to a halt command have the same lines, or the same
line that cannot be read.  All that is left of the rest is whether its last
physical line is a halt.
-/

namespace DecimalMachine

namespace Source

/-- Whether a physical line is read as a halt command. -/
def isHaltText (text : String) : Bool :=
  match Form.readTrimmed (Text.trim text).toList with
  | .ok form => form.isHalt
  | .error _ => false

/-- The physical lines of two sources agree up to and including a halt
command. -/
def AgreeToHalt (first second : String) : Prop :=
  ∃ front halt one other, isHaltText halt = true ∧
    Text.lines first = front ++ halt :: one ∧ Text.lines second = front ++ halt :: other

/-- A halt command is read as one wherever it stands. -/
theorem isHaltText_iff {text : String} (location : Location) :
    isHaltText text = true ↔
      ∃ line, Line.read text location = .ok line ∧ line.isHalt = true := by
  constructor
  · intro halt
    unfold isHaltText at halt
    split at halt
    · next form shape => exact ⟨⟨form, Text.trim text, location⟩, by simp [Line.read, shape], halt⟩
    · cases halt
  · rintro ⟨line, read, halt⟩
    rw [isHaltText, Line.readTrimmed_of_read read]
    exact halt

/-- What follows a halt command is not read. -/
theorem readToHalt_append_halt {text : String} (halt : isHaltText text = true)
    (front : List (String × Location)) (location : Location)
    (one other : List (String × Location)) :
    readToHalt (front ++ (text, location) :: one) =
      readToHalt (front ++ (text, location) :: other) := by
  induction front with
  | nil =>
      rcases (isHaltText_iff location).mp halt with ⟨line, read, ends⟩
      simp [readToHalt, read, ends, bind, Except.bind]
  | cons head front ih => simp only [List.cons_append, readToHalt, ih]

theorem lines_eq_of_agreeToHalt {first second : String} (agree : AgreeToHalt first second)
    (file : String) : lines file first = lines file second := by
  rcases agree with ⟨front, halt, one, other, ends, firstLines, secondLines⟩
  rw [lines, lines, numbered, numbered, firstLines, secondLines, List.mapIdx_append,
    List.mapIdx_append, List.mapIdx_cons, List.mapIdx_cons]
  exact readToHalt_append_halt ends _ _ _ _

/-- In a source that can be read, a halt command is among the lines if and only
if it is among the physical lines. -/
theorem exists_isHalt_iff {file source : String} {lines : List Line}
    (read : Source.lines file source = .ok lines) :
    (∃ line ∈ lines, line.isHalt = true) ↔ ∃ text ∈ Text.lines source, isHaltText text = true := by
  have extent := readToHalt_eq_ok_iff.mp read
  constructor
  · rintro ⟨line, member, halt⟩
    obtain ⟨index, here⟩ := List.mem_iff_getElem?.mp member
    obtain ⟨text, physical, readLine⟩ := exists_text_of_lines read here
    exact ⟨text, List.mem_of_getElem? physical, (isHaltText_iff _).mpr ⟨line, readLine, halt⟩⟩
  · rintro ⟨text, member, halt⟩
    rcases extent.ends with all | ⟨last, ends, lastHalt⟩
    · obtain ⟨index, inside, there⟩ := List.mem_iff_getElem.mp member
      have within : index < lines.length := by
        rw [all, numbered, List.length_mapIdx]
        exact inside
      obtain ⟨other, physical, readLine⟩ :=
        exists_text_of_lines read (List.getElem?_eq_getElem within)
      rw [List.getElem?_eq_getElem inside, there] at physical
      cases physical
      obtain ⟨line, readAgain, ends⟩ := (isHaltText_iff _).mp halt
      rw [readLine] at readAgain
      cases readAgain
      exact ⟨_, List.getElem_mem within, ends⟩
    · exact ⟨last, List.mem_of_getLast? ends, lastHalt⟩

end Source

/-- Of what follows a halt command it only matters whether it ends with a halt:
the sources are compiled to the same program, or refused for the same reason. -/
theorem Compilation.ofSource_eq_of_agreeToHalt {first second : String}
    (agree : Source.AgreeToHalt first second)
    (ends : Source.endsWithHalt first = Source.endsWithHalt second)
    (options : CompileOptions) (file : String) :
    ofSource options file first = ofSource options file second := by
  simp only [ofSource, Source.lines_eq_of_agreeToHalt agree, ends]

end DecimalMachine
