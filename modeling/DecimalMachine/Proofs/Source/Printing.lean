import DecimalMachine.Proofs.Source.Classification
import DecimalMachine.Proofs.Source.Extent
import DecimalMachine.Proofs.Text.Lines

/-!
# Printed lines

Every line that was read can be printed: without the blanks that do not count,
and with its literal in canonical form.  A printed line is read as the line
itself, but for its text, and cannot be taken for a line of another form: what
is printed satisfies the grammar of the form.
-/

namespace DecimalMachine

namespace Form

/-- A form as it is printed. A comment is printed as the text it was read
from. -/
def print (text : List Char) : Form → List Char
  | .blank => []
  | .comment => text
  | .variable name value => name.toList ++ '=' :: (Decimal.text value).toList
  | .expression name first rest => name.toList ++ '=' :: Grammar.sum first rest
  | .label name => '@' :: name.toList
  | .instruction command none => command.toList
  | .instruction command (some operand) => command.toList ++ ' ' :: operand.toList

end Form

namespace Line

/-- A line as it is printed. -/
def print (line : Line) : String :=
  .ofList (line.form.print line.text.toList)

/-- A line that is read from what it was printed as. -/
def reprinted (line : Line) : Line :=
  { line with text := line.print }

end Line

/-- Lines as they are printed, each ended by a line feed. -/
def Source.print (lines : List Line) : String :=
  .ofList (lines.flatMap fun line => line.print.toList ++ ['\n'])

namespace Grammar

/-! ## Characters of printed lines -/

theorem isBlank_of_isLetter {c : Char} (letter : IsLetter c) : Text.isBlank c = false := by
  have bounds : 65 ≤ c.toNat ∧ c.toNat ≤ 122 := by
    rcases letter with ⟨low, high⟩ | ⟨low, high⟩
    · have low := UInt32.le_iff_toNat_le.mp (Char.le_def.mp low)
      have high := UInt32.le_iff_toNat_le.mp (Char.le_def.mp high)
      exact ⟨low, Nat.le_trans high (by decide)⟩
    · have low := UInt32.le_iff_toNat_le.mp (Char.le_def.mp low)
      have high := UInt32.le_iff_toNat_le.mp (Char.le_def.mp high)
      exact ⟨Nat.le_trans (by decide) low, high⟩
  simp only [Text.isBlank, Bool.or_eq_false_iff, Bool.and_eq_false_iff, decide_eq_false_iff_not,
    beq_eq_false_iff_ne]
  omega

theorem isBlank_of_mem_identifier {name : List Char} (identifier : Identifier name) {c : Char}
    (member : c ∈ name) : Text.isBlank c = false := by
  obtain ⟨start, more⟩ := identifier
  have kinds : IsLetter c ∨ (∃ value, IsDigit c value) ∨ c = '_' := by
    rcases List.mem_cons.mp member with rfl | member
    · exact start.imp_right .inr
    · exact more c member
  rcases kinds with letter | digit | rfl
  · exact isBlank_of_isLetter letter
  · exact Text.isBlank_of_isDigit (isDigit_iff.mpr digit)
  · rfl

theorem isBlank_of_mem_sum {first : String} {rest : List (Sign × String)}
    (terms : ∀ term ∈ Form.terms first rest, Identifier term.toList) {c : Char}
    (member : c ∈ sum first rest) : Text.isBlank c = false := by
  rcases List.mem_append.mp member with inFirst | inRest
  · exact isBlank_of_mem_identifier (terms first List.mem_cons_self) inFirst
  · obtain ⟨⟨sign, term⟩, given, member⟩ := List.mem_flatMap.mp inRest
    rcases List.mem_cons.mp member with rfl | inTerm
    · cases sign <;> rfl
    · have name := terms term (List.mem_cons_of_mem first (List.mem_map_of_mem given))
      exact isBlank_of_mem_identifier name inTerm

theorem isBlank_of_mem_text {value : Int} {c : Char} (member : c ∈ (Decimal.text value).toList) :
    Text.isBlank c = false := by
  rw [Decimal.toList_text] at member
  rcases Decimal.isDigit_or_eq_of_mem_chars member with digit | rfl
  · exact Text.isBlank_of_isDigit digit
  · rfl

/-- There are no blanks in a printed declaration. -/
theorem isBlank_of_mem_declaration {name value : List Char} (identifier : Identifier name)
    (solid : ∀ c ∈ value, Text.isBlank c = false) :
    ∀ c ∈ name ++ '=' :: value, Text.isBlank c = false := by
  intro c member
  rcases List.mem_append.mp member with inName | member
  · exact isBlank_of_mem_identifier identifier inName
  · rcases List.mem_cons.mp member with rfl | inValue
    · rfl
    · exact solid c inValue

/-- A text that is a whole line: no terminator is in it, and no blank at its
ends. -/
structure Tidy (text : List Char) : Prop where
  trimmed : Text.Trimmed text
  inside : ∀ c ∈ text, Text.isLineEnd c = false

theorem isLineEnd_of_isBlank {c : Char} (solid : Text.isBlank c = false) :
    Text.isLineEnd c = false := by
  rw [Bool.eq_false_iff]
  intro ending
  rw [Text.isBlank_of_isLineEnd ending] at solid
  cases solid

theorem tidy_of_solid {text : List Char} (solid : ∀ c ∈ text, Text.isBlank c = false) :
    Tidy text where
  trimmed := ⟨fun c first => solid c (List.mem_of_mem_head? first),
    fun c last => solid c (List.mem_of_mem_getLast? last)⟩
  inside := fun c member => isLineEnd_of_isBlank (solid c member)

/-- Two tokens with one space between them are a whole line. -/
theorem tidy_pair {first second : List Char} (firstToken : Text.Token first)
    (secondToken : Text.Token second) : Tidy (first ++ ' ' :: second) where
  trimmed := by
    constructor
    · intro c head
      cases first with
      | nil => exact absurd rfl firstToken.nonempty
      | cons other rest =>
          cases head
          exact firstToken.solid c List.mem_cons_self
    · intro c last
      have shown : ' ' :: second ≠ [] := List.cons_ne_nil _ _
      rw [Text.getLast?_append_of_ne_nil shown, ← List.singleton_append,
        Text.getLast?_append_of_ne_nil secondToken.nonempty] at last
      exact secondToken.solid c (List.mem_of_mem_getLast? last)
  inside := by
    intro c member
    rcases List.mem_append.mp member with inFirst | member
    · exact isLineEnd_of_isBlank (firstToken.solid c inFirst)
    · rcases List.mem_cons.mp member with rfl | inSecond
      · rfl
      · exact isLineEnd_of_isBlank (secondToken.solid c inSecond)

/-! ## Printed forms -/

section Printed

variable {text : List Char} {form : Form}

theorem tidy_print (written : HasForm text form) (tidy : Tidy text) : Tidy (form.print text) := by
  cases written with
  | blank => exact tidy
  | comment => exact tidy
  | label identifier =>
      apply tidy_of_solid
      intro c member
      rcases List.mem_cons.mp member with rfl | inName
      · rfl
      · exact isBlank_of_mem_identifier identifier inName
  | «variable» unmarked declares =>
      exact tidy_of_solid
        (isBlank_of_mem_declaration declares.identifier fun c => isBlank_of_mem_text)
  | expression unmarked declares terms =>
      exact tidy_of_solid
        (isBlank_of_mem_declaration declares.identifier fun c => isBlank_of_mem_sum terms)
  | command unmarked plain tokens =>
      exact tidy_of_solid (tokens.token List.mem_cons_self).solid
  | operand unmarked plain tokens =>
      exact tidy_pair (tokens.token List.mem_cons_self)
        (tokens.token (List.mem_cons_of_mem _ List.mem_cons_self))

theorem unmarked_append {name : List Char} (identifier : Identifier name) (back : List Char) :
    Unmarked (name ++ back) := by
  obtain ⟨start, _⟩ := identifier
  rw [← isAlpha_iff] at start
  constructor
  · rintro ⟨⟩
    revert start
    decide
  · rintro ⟨⟩
    revert start
    decide

theorem declares_append {name : String} (identifier : Identifier name.toList) {value : List Char}
    (solid : ∀ c ∈ value, Text.isBlank c = false) :
    Declares (name.toList ++ '=' :: value) name value where
  compact := by
    rw [List.filter_eq_self]
    intro c member
    simp [isBlank_of_mem_declaration identifier solid c member]
  identifier := identifier

/-- The canonical form of a value that was read is a literal that is short
enough. -/
theorem literal_text {literal : List Char} {value : Int} {count : Nat}
    (denotes : Literal literal value count) (short : count ≤ 4300) :
    ∃ digits, Literal (Decimal.text value).toList value digits ∧ digits ≤ 4300 := by
  obtain ⟨shape, rfl, rfl⟩ := literal_iff.mp denotes
  have writable : Decimal.Writable (Decimal.numeralValue literal) := by
    apply Decimal.writable_of_readShape shape
    rw [Decimal.readShape_eq]
    exact if_pos short
  refine ⟨_, literal_iff.mpr ⟨?_, ?_, rfl⟩, ?_⟩
  · rw [Decimal.toList_text, Decimal.isLiteralShape, Decimal.splitSign_chars]
    exact Decimal.isDigits_digits _
  · rw [Decimal.numeralValue, Decimal.toList_text, Decimal.splitSign_chars, Decimal.ofDigits_digits,
      Decimal.withSign_natAbs]
  · rw [Decimal.numeralLength, Decimal.toList_text, Decimal.splitSign_chars]
    exact writable

/-- A printed command with an operand begins as the line that was read, and has
no other characters but the space. -/
theorem hasForm_operand {command operand : String} (unmarked : Unmarked text) (plain : '=' ∉ text)
    (made : Text.Tokens text [command.toList, operand.toList]) :
    HasForm (command.toList ++ ' ' :: operand.toList) (.instruction command (some operand)) := by
  have commandToken := made.token List.mem_cons_self
  have operandToken := made.token (List.mem_cons_of_mem _ List.mem_cons_self)
  obtain ⟨gap, _, rfl⟩ := made.exists_gap
  have front : ∀ back, (command.toList ++ back).head? = command.toList.head? := by
    obtain ⟨c, rest, shape⟩ := List.exists_cons_of_ne_nil commandToken.nonempty
    intro back
    rw [shape, List.cons_append, List.head?_cons, List.head?_cons]
  refine .operand ?_ ?_ ?_
  · rw [List.append_assoc, Unmarked, front] at unmarked
    rwa [Unmarked, front]
  · simp only [List.mem_append, not_or] at plain
    simpa using And.intro plain.1.1 plain.2
  · have space : Text.Gap [' '] := ⟨List.cons_ne_nil _ _, by simp; decide⟩
    have printed := Text.Tokens.more commandToken space (.last operandToken)
    rwa [List.append_assoc] at printed

/-- A form is what it is printed as. -/
theorem hasForm_print (written : HasForm text form) : HasForm (form.print text) form := by
  cases written with
  | blank => exact .blank
  | comment text => exact .comment text
  | label identifier => exact .label identifier
  | «variable» unmarked declares denotes short =>
      obtain ⟨digits, denotes, short⟩ := literal_text denotes short
      exact .variable (unmarked_append declares.identifier _)
        (declares_append declares.identifier fun c => isBlank_of_mem_text) denotes short
  | expression unmarked declares terms =>
      exact .expression (unmarked_append declares.identifier _)
        (declares_append declares.identifier fun c => isBlank_of_mem_sum terms) terms
  | command unmarked plain tokens =>
      rw [tokens.eq_of_singleton] at unmarked plain tokens
      exact .command unmarked plain tokens
  | operand unmarked plain tokens => exact hasForm_operand unmarked plain tokens

end Printed

end Grammar

/-! ## Printed lines -/

section Lines

variable {file source text : String} {location : Location} {line : Line} {lines : List Line}

theorem Line.tidy_print (read : Line.read text location = .ok line)
    (inside : ∀ c ∈ text.toList, Text.isLineEnd c = false) :
    Grammar.Tidy line.print.toList := by
  obtain ⟨written, trimmed, _⟩ := Line.read_eq_ok_iff.mp read
  rw [Line.print, String.toList_ofList, trimmed]
  have form := Grammar.hasForm_of_readTrimmed (Text.trimmed_trim text) written
  exact Grammar.tidy_print form
    ⟨Text.trimmed_trim text, fun c member => inside c (Text.mem_of_mem_trim member)⟩

/-- A printed line is read as the line, at the same place. -/
theorem Line.read_print (read : Line.read text location = .ok line)
    (inside : ∀ c ∈ text.toList, Text.isLineEnd c = false) :
    Line.read line.print location = .ok line.reprinted := by
  have trimmed := (Line.tidy_print read inside).trimmed.trim_eq
  obtain ⟨written, kept, place⟩ := Line.read_eq_ok_iff.mp read
  have form := Grammar.hasForm_of_readTrimmed (Text.trimmed_trim text) written
  refine Line.read_eq_ok_iff.mpr ⟨?_, trimmed.symm, place⟩
  rw [trimmed, Line.print, String.toList_ofList, kept]
  exact (Grammar.hasForm_print form).readTrimmed_eq

/-- A line is printed as before when it was read from what it was printed as. -/
theorem Line.print_reprinted (line : Line) : line.reprinted.print = line.print := by
  obtain ⟨form, text, location⟩ := line
  cases form with
  | comment => exact String.ofList_toList
  | instruction command operand => cases operand <;> simp only [print, reprinted, Form.print]
  | _ => simp only [print, reprinted, Form.print]

namespace Source

theorem print_reprinted (lines : List Line) :
    Source.print (lines.map Line.reprinted) = Source.print lines := by
  rw [Source.print, Source.print, List.flatMap_map]
  simp only [Line.print_reprinted]

/-- Every printed line is a line of the printed text. -/
theorem lines_print (tidy : ∀ line ∈ lines, Grammar.Tidy line.print.toList) :
    Text.lines (Source.print lines) = lines.map Line.print := by
  rw [Text.lines, Source.print, String.toList_ofList]
  induction lines with
  | nil => rfl
  | cons line lines ih =>
      have here := (tidy line List.mem_cons_self).inside
      rw [List.flatMap_cons, List.append_assoc, List.singleton_append,
        Text.lineChars_append_newline here, List.map_cons, List.map_cons, String.ofList_toList,
        ih fun other member => tidy other (List.mem_cons_of_mem line member)]

/-- What is read of a source is read again from what it is printed as. -/
theorem read_print (read : Source.lines file source = .ok lines) :
    Source.lines file (Source.print lines) = .ok (lines.map Line.reprinted) := by
  have extent := readToHalt_eq_ok_iff.mp read
  have tidy : ∀ line ∈ lines, Grammar.Tidy line.print.toList := by
    intro line member
    obtain ⟨index, here⟩ := List.mem_iff_getElem?.mp member
    obtain ⟨text, physical, readLine⟩ := exists_text_of_lines read here
    have member := List.mem_of_getElem? physical
    exact Line.tidy_print readLine fun c => Text.isLineEnd_of_mem_lines member
  apply readToHalt_eq_ok_iff.mpr
  constructor
  · intro index other here
    rw [List.getElem?_map] at here
    obtain ⟨line, found, rfl⟩ := Option.map_eq_some_iff.mp here
    obtain ⟨text, physical, readLine⟩ := exists_text_of_lines read found
    have member := List.mem_of_getElem? physical
    refine ⟨line.print, ⟨file, index + 1⟩, ?_, ?_⟩
    · rw [getElem?_numbered, lines_print tidy, List.getElem?_map, found]
      rfl
    · exact Line.read_print readLine fun c => Text.isLineEnd_of_mem_lines member
  · intro other member
    rw [← List.map_dropLast] at member
    obtain ⟨line, given, rfl⟩ := List.mem_map.mp member
    exact extent.going line given
  · left
    rw [numbered, List.length_mapIdx, lines_print tidy, List.length_map, List.length_map]

end Source

end Lines

end DecimalMachine
