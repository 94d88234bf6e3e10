import DecimalMachine.Proofs.Decimal.Canonical
import DecimalMachine.Proofs.Outcomes
import DecimalMachine.Source.Line

/-!
# The lines of a source

The lines that are read end with the first halt command: none of the others is
one.  If the last physical line is a halt, then a halt command ends the lines
as well.  Every literal keeps within the digit limit.
-/

namespace DecimalMachine

namespace Form

theorem readExpression_eq_ok {name : String} {text : List Char} {form : Form}
    (read : readExpression name text = .ok form) :
    ∃ first rest, form = .expression name first rest := by
  simp only [readExpression, bind_eq_ok_iff] at read
  obtain ⟨first, _, rest, _, read⟩ := read
  cases read
  exact ⟨first, rest, rfl⟩

theorem readTokens_ne_variable {tokens : List (List Char)} {name : String} {value : Int} :
    readTokens tokens ≠ .ok (.variable name value) := by
  unfold readTokens
  split <;> simp

/-- A declared literal keeps within the digit limit. -/
theorem writable_of_readDeclaration {text : List Char} {name : String} {value : Int}
    (read : readDeclaration text = .ok (.variable name value)) : Decimal.Writable value := by
  simp only [readDeclaration] at read
  split at read
  · cases read
  split at read
  · cases read
  split at read
  · cases read
  split at read
  · next literal =>
      split at read
      · next shape =>
          cases read
          exact Decimal.writable_of_readShape literal shape
      · cases read
  · obtain ⟨first, rest, impossible⟩ := readExpression_eq_ok read
    cases impossible

theorem writable_of_readTrimmed {text : List Char} {name : String} {value : Int}
    (read : readTrimmed text = .ok (.variable name value)) : Decimal.Writable value := by
  unfold readTrimmed at read
  split at read
  · cases read
  split at read
  · cases read
  split at read
  · split at read <;> cases read
  split at read
  · exact writable_of_readDeclaration read
  · exact absurd read readTokens_ne_variable

end Form

namespace Line

/-- A line that was read has the form of its trimmed text, and keeps this text and
its place. -/
theorem read_eq_ok_iff {text : String} {location : Location} {line : Line} :
    Line.read text location = .ok line ↔
      Form.readTrimmed (Text.trim text).toList = .ok line.form ∧ line.text = Text.trim text ∧
        line.location = location := by
  obtain ⟨form, trimmed, place⟩ := line
  rw [Line.read]
  cases Form.readTrimmed (Text.trim text).toList with
  | ok other => simp [eq_comm]
  | error flaw => cases flaw <;> simp

/-- A line that was not read is refused as malformed, at its place and beside its
trimmed text, unless it is too long. -/
theorem read_eq_source_iff {text : String} {location : Location} {error : CompileError} :
    Line.read text location = .error (.source error) ↔
      ∃ malformation, Form.readTrimmed (Text.trim text).toList = .error (.malformed malformation) ∧
        error = complain (Text.trim text) location (.malformed malformation) := by
  rw [Line.read]
  cases Form.readTrimmed (Text.trim text).toList with
  | ok form => simp
  | error flaw => cases flaw <;> simp [eq_comm]

theorem readTrimmed_of_read {text : String} {location : Location} {line : Line}
    (read : Line.read text location = .ok line) :
    Form.readTrimmed (Text.trim text).toList = .ok line.form :=
  (read_eq_ok_iff.mp read).1

theorem isHalt_of_read {text : String} {location : Location} {line : Line}
    (read : Line.read text location = .ok line) (halt : Text.trim text = Form.haltCommand) :
    line.isHalt = true := by
  have form := readTrimmed_of_read read
  rw [halt] at form
  have shape : Form.readTrimmed Form.haltCommand.toList = .ok (.instruction "HALT" none) := by
    rfl
  rw [shape] at form
  rw [isHalt, ← Except.ok.inj form]
  rfl

end Line

namespace Source

theorem getElem?_numbered (file source : String) (index : Nat) :
    (numbered file source)[index]? =
      (Text.lines source)[index]?.map fun text => (text, ⟨file, index + 1⟩) := by
  rw [numbered, List.getElem?_mapIdx]

/-- The lines that are read begin with the first physical line, and end there if
it is a halt command. -/
theorem readToHalt_cons_eq_ok {text : String} {location : Location}
    {rest : List (String × Location)} {lines : List Line}
    (read : readToHalt ((text, location) :: rest) = .ok lines) :
    ∃ head, Line.read text location = .ok head ∧
      (head.isHalt = true ∧ lines = [head] ∨
        head.isHalt = false ∧ ∃ tail, readToHalt rest = .ok tail ∧ lines = head :: tail) := by
  simp only [readToHalt, bind_eq_ok_iff] at read
  obtain ⟨head, readHead, read⟩ := read
  split at read
  · next ended =>
      cases read
      exact ⟨head, readHead, .inl ⟨ended, rfl⟩⟩
  · next going =>
      obtain ⟨tail, readTail, read⟩ := bind_eq_ok_iff.mp read
      cases read
      exact ⟨head, readHead, .inr ⟨Bool.eq_false_iff.mpr going, tail, readTail, rfl⟩⟩

/-- Every line that is read comes from one physical line. -/
theorem exists_read_of_mem {physical : List (String × Location)} {lines : List Line}
    (read : readToHalt physical = .ok lines) {line : Line} (member : line ∈ lines) :
    ∃ text location, Line.read text location = .ok line := by
  induction physical generalizing lines with
  | nil =>
      cases read
      cases member
  | cons first rest ih =>
      obtain ⟨text, location⟩ := first
      obtain ⟨head, readHead, ⟨_, rfl⟩ | ⟨_, tail, readTail, rfl⟩⟩ := readToHalt_cons_eq_ok read
      · cases List.mem_singleton.mp member
        exact ⟨text, location, readHead⟩
      · rcases List.mem_cons.mp member with rfl | member
        · exact ⟨text, location, readHead⟩
        · exact ih readTail member

/-- Only the last line that is read can be a halt command. -/
theorem isHalt_eq_false_of_mem_dropLast {physical : List (String × Location)} {lines : List Line}
    (read : readToHalt physical = .ok lines) {line : Line} (member : line ∈ lines.dropLast) :
    line.isHalt = false := by
  induction physical generalizing lines with
  | nil =>
      cases read
      cases member
  | cons first rest ih =>
      obtain ⟨head, _, ⟨_, rfl⟩ | ⟨going, tail, readTail, rfl⟩⟩ := readToHalt_cons_eq_ok read
      · cases member
      · cases tail with
        | nil => cases member
        | cons second more =>
            rw [List.dropLast_cons_cons] at member
            rcases List.mem_cons.mp member with rfl | member
            · exact going
            · exact ih readTail member

theorem exists_isHalt_of_getLast? {physical : List (String × Location)} {lines : List Line}
    (read : readToHalt physical = .ok lines) {text : String} {location : Location}
    (last : physical.getLast? = some (text, location)) (halt : Text.trim text = Form.haltCommand) :
    ∃ line, lines.getLast? = some line ∧ line.isHalt = true := by
  induction physical generalizing lines with
  | nil => cases last
  | cons first rest ih =>
      obtain ⟨firstText, firstLocation⟩ := first
      obtain ⟨head, readHead, ⟨ended, rfl⟩ | ⟨going, tail, readTail, rfl⟩⟩ :=
        readToHalt_cons_eq_ok read
      · exact ⟨head, rfl, ended⟩
      · cases rest with
        | nil =>
            simp only [List.getLast?_singleton, Option.some.injEq, Prod.mk.injEq] at last
            obtain ⟨rfl, rfl⟩ := last
            rw [Line.isHalt_of_read readHead halt] at going
            cases going
        | cons second more =>
            rw [List.getLast?_cons_cons] at last
            obtain ⟨line, lastLine, ended⟩ := ih readTail last
            refine ⟨line, ?_, ended⟩
            cases tail with
            | nil => cases lastLine
            | cons => rw [List.getLast?_cons_cons, lastLine]

/-- The lines of a source that ends with a halt end with a halt command. -/
theorem exists_isHalt_of_endsWithHalt {file source : String} {lines : List Line}
    (read : Source.lines file source = .ok lines) (ends : endsWithHalt source = true) :
    ∃ line, lines.getLast? = some line ∧ line.isHalt = true := by
  unfold endsWithHalt at ends
  split at ends
  · next last found =>
      have lastNumbered : (numbered file source).getLast? =
          some (last, ⟨file, (Text.lines source).length⟩) := by
        rw [numbered, List.getLast?_eq_getElem?, List.length_mapIdx, List.getElem?_mapIdx,
          ← List.getLast?_eq_getElem?, found]
        cases size : (Text.lines source) with
        | nil => simp [size] at found
        | cons => simp
      exact exists_isHalt_of_getLast? read lastNumbered (eq_of_beq ends)
  · cases ends

theorem writable_of_mem_lines {file source : String} {lines : List Line}
    (read : Source.lines file source = .ok lines) {line : Line} (member : line ∈ lines)
    {name : String} {value : Int} (form : line.form = .variable name value) :
    Decimal.Writable value := by
  obtain ⟨text, location, readLine⟩ := exists_read_of_mem read member
  have trimmed := Line.readTrimmed_of_read readLine
  rw [form] at trimmed
  exact Form.writable_of_readTrimmed trimmed

end Source

end DecimalMachine
