import DecimalMachine.Program.Compilation
import DecimalMachine.Proofs.Source.Extent
import DecimalMachine.Proofs.Text.Tokens

/-!
# Literals of sources

A declaration by a literal is accepted with the value of the literal, unless the
literal has more digits than a conversion takes.  This is the only reason beside
the errors of the source itself for which a source is refused: the lines above
can be read, none of them is a halt command, and the literal is too long.
-/

namespace DecimalMachine

namespace Decimal

/-- The number of digits of a numeral, leading zeros included. -/
def numeralLength (text : List Char) : Nat :=
  (splitSign text).2.length

/-- The integer that a numeral denotes, however long it is. -/
def numeralValue (text : List Char) : Int :=
  withSign (splitSign text).1 (ofDigits (splitSign text).2)

theorem readShape_eq (text : List Char) :
    readShape text = if numeralLength text ≤ digitLimit then .ok (numeralValue text)
      else .error (.numeral (numeralLength text)) :=
  rfl

end Decimal

/-! ## Declarations by a literal -/

/-- A text is the declaration of a name by a literal, with blanks anywhere. -/
structure DeclaresLiteral (text : String) (name literal : List Char) : Prop where
  compact : (Text.trim text).toList.filter (! Text.isBlank ·) = name ++ '=' :: literal
  identifier : Text.isNameShape name = true
  shape : Decimal.isLiteralShape literal = true

namespace Text

theorem ne_equals_of_mem_name {name : List Char} (identifier : isNameShape name = true) {c : Char}
    (member : c ∈ name) : c ≠ '=' := by
  rintro rfl
  cases name with
  | nil => cases member
  | cons first rest =>
      simp only [isNameShape, Bool.and_eq_true, List.all_eq_true] at identifier
      rcases List.mem_cons.mp member with rfl | member
      · exact absurd identifier.1 (by decide)
      · exact absurd (identifier.2 _ member) (by decide)

end Text

namespace Form

theorem readTerm_ne_limit {expression term : List Char} {error : Decimal.LimitError} :
    readTerm expression term ≠ .error (.limit error) := by
  unfold readTerm
  split
  · simp
  · split <;> simp

/-- The terms of an expression are names, so that no numeral is read. -/
theorem readExpression_ne_limit {name : String} {text : List Char} {error : Decimal.LimitError} :
    readExpression name text ≠ .error (.limit error) := by
  intro failed
  simp only [readExpression] at failed
  rcases bind_eq_error_iff.mp failed with first | ⟨first, _, failed⟩
  · exact readTerm_ne_limit first
  · rcases bind_eq_error_iff.mp failed with others | ⟨others, _, ⟨⟩⟩
    rcases exists_of_mapM_eq_error others with ⟨item, _, failed⟩
    rcases bind_eq_error_iff.mp failed with term | ⟨_, _, ⟨⟩⟩
    exact readTerm_ne_limit term

theorem readTokens_ne_limit {tokens : List (List Char)} {error : Decimal.LimitError} :
    readTokens tokens ≠ .error (.limit error) := by
  unfold readTokens
  split <;> simp

/-- A declaration falls apart at its first equals sign, with a name in front. -/
theorem readDeclaration_append {name : List Char} (identifier : Text.isNameShape name = true)
    (value : List Char) :
    readDeclaration (name ++ '=' :: value) =
      if value.isEmpty then .error (.malformed (.missingValue (.ofList name)))
      else if value.contains '=' then .error (.malformed .secondEquals)
      else if Decimal.isLiteralShape value then
        match Decimal.readShape value with
        | .ok value => .ok (.variable (.ofList name) value)
        | .error error => .error (.limit error)
      else readExpression (.ofList name) value := by
  have unequal : ∀ c ∈ name, decide (c ≠ '=') = true := by
    intro c member
    simpa using Text.ne_equals_of_mem_name identifier member
  have front : (name ++ '=' :: value).takeWhile (· ≠ '=') = name := by
    rw [List.takeWhile_append_of_pos unequal]
    simp
  have back : (name ++ '=' :: value).dropWhile (· ≠ '=') = '=' :: value := by
    rw [List.dropWhile_append_of_pos unequal]
    simp
  simp only [readDeclaration, front, back, identifier, List.drop_one, List.tail_cons]
  rfl

/-- What is not malformed has a name and a value, with one equals sign between
them. -/
theorem exists_of_readDeclaration (text : List Char)
    (accepted : ∀ malformation, readDeclaration text ≠ .error (.malformed malformation)) :
    ∃ name value, text = name ++ '=' :: value ∧ Text.isNameShape name = true := by
  refine ⟨text.takeWhile (· ≠ '='), (text.dropWhile (· ≠ '=')).drop 1, ?_, ?_⟩
  · cases back : text.dropWhile (· ≠ '=') with
    | nil =>
        simp only [readDeclaration, back] at accepted
        split at accepted
        · exact absurd rfl (accepted _)
        · exact absurd rfl (accepted _)
    | cons c rest =>
        have equals : c = '=' := by
          have head := List.head?_dropWhile_not (fun c => decide (c ≠ '=')) text
          rw [back] at head
          simpa using head
        have parts : text.takeWhile (· ≠ '=') ++ text.dropWhile (· ≠ '=') = text :=
          List.takeWhile_append_dropWhile
        rw [back, equals] at parts
        exact parts.symm
  · simp only [readDeclaration] at accepted
    split at accepted
    · exact absurd rfl (accepted _)
    · next identifier => simpa using identifier

/-- A declaration by a literal is accepted unless the literal is too long. -/
theorem readDeclaration_literal {name literal : List Char}
    (identifier : Text.isNameShape name = true) (shape : Decimal.isLiteralShape literal = true) :
    readDeclaration (name ++ '=' :: literal) =
      if Decimal.numeralLength literal ≤ Decimal.digitLimit then
        .ok (.variable (.ofList name) (Decimal.numeralValue literal))
      else .error (.limit (.numeral (Decimal.numeralLength literal))) := by
  have single : literal.contains '=' = false := by
    rw [Bool.eq_false_iff]
    intro contained
    rcases Decimal.isDigit_or_sign_of_mem_literal shape (List.contains_iff_mem.mp contained) with
      digit | sign | sign
    · exact absurd digit (by decide)
    · exact absurd sign (by decide)
    · exact absurd sign (by decide)
  have given : literal.isEmpty = false := by
    cases literal with
    | nil => cases shape
    | cons => rfl
  rw [readDeclaration_append identifier, given, single, shape, Decimal.readShape_eq]
  by_cases fits : Decimal.numeralLength literal ≤ Decimal.digitLimit
  · simp [fits]
  · simp [fits]

theorem readDeclaration_eq_limit {text : List Char} {error : Decimal.LimitError}
    (failed : readDeclaration text = .error (.limit error)) :
    ∃ name literal, text = name ++ '=' :: literal ∧ Text.isNameShape name = true ∧
      Decimal.isLiteralShape literal = true := by
  obtain ⟨name, literal, rfl, identifier⟩ :=
    exists_of_readDeclaration text (by simp [failed])
  refine ⟨name, literal, rfl, identifier, ?_⟩
  rw [readDeclaration_append identifier] at failed
  split at failed
  · cases failed
  split at failed
  · cases failed
  split at failed
  · assumption
  · exact absurd failed readExpression_ne_limit

end Form

namespace Line

variable {text : String} {name literal : List Char}

/-- A trimmed text that is a name in front of anything, once its blanks are
removed, begins as the name does. -/
theorem exists_nameStart {back : List Char} (identifier : Text.isNameShape name = true)
    (compact : (Text.trim text).toList.filter (! Text.isBlank ·) = name ++ back) :
    ∃ c rest, (Text.trim text).toList = c :: rest ∧ Text.isNameStart c = true := by
  cases name with
  | nil => cases identifier
  | cons first more =>
      simp only [Text.isNameShape, Bool.and_eq_true] at identifier
      cases trimmed : (Text.trim text).toList with
      | nil =>
          rw [trimmed] at compact
          cases compact
      | cons c rest =>
          have blank : Text.isBlank c = false :=
            (Text.trimmed_trim text).starts c (by rw [trimmed, List.head?_cons])
          rw [trimmed, List.filter_cons_of_pos (by simp [blank])] at compact
          injection compact with same _
          exact ⟨c, rest, rfl, same ▸ identifier.1⟩

/-- A declaration by a literal is read as one, unless the literal is too long. -/
theorem readTrimmed_literal (declares : DeclaresLiteral text name literal) :
    Form.readTrimmed (Text.trim text).toList =
      if Decimal.numeralLength literal ≤ Decimal.digitLimit then
        .ok (.variable (.ofList name) (Decimal.numeralValue literal))
      else .error (.limit (.numeral (Decimal.numeralLength literal))) := by
  rcases exists_nameStart declares.identifier declares.compact with ⟨c, rest, trimmed, start⟩
  have contained : (c :: rest).contains '=' = true := by
    have member : '=' ∈ (Text.trim text).toList.filter (! Text.isBlank ·) := by
      rw [declares.compact]
      simp
    rw [List.contains_iff_mem, ← trimmed]
    exact (List.mem_filter.mp member).1
  have uncommented : c ≠ Form.commentMark := by
    rintro rfl
    cases start
  have unlabelled : c ≠ Form.labelMark := by
    rintro rfl
    cases start
  have compact := declares.compact
  rw [trimmed] at compact
  rw [trimmed, Form.readTrimmed, if_neg uncommented, if_neg unlabelled, if_pos contained, compact,
    Form.readDeclaration_literal declares.identifier declares.shape]

theorem readTrimmed_eq_limit_iff {error : Decimal.LimitError} :
    Form.readTrimmed (Text.trim text).toList = .error (.limit error) ↔
      ∃ name literal, DeclaresLiteral text name literal ∧
        Decimal.digitLimit < Decimal.numeralLength literal ∧
        error = .numeral (Decimal.numeralLength literal) := by
  constructor
  · intro failed
    have declares : ∃ name literal, DeclaresLiteral text name literal := by
      have read := failed
      unfold Form.readTrimmed at read
      split at read
      · cases read
      split at read
      · cases read
      split at read
      · split at read <;> cases read
      split at read
      · rcases Form.readDeclaration_eq_limit read with ⟨name, literal, compact, identifier, shape⟩
        exact ⟨name, literal, compact, identifier, shape⟩
      · exact absurd read Form.readTokens_ne_limit
    rcases declares with ⟨name, literal, declares⟩
    rw [readTrimmed_literal declares] at failed
    by_cases fits : Decimal.numeralLength literal ≤ Decimal.digitLimit
    · rw [if_pos fits] at failed
      cases failed
    · rw [if_neg fits] at failed
      injection failed with same
      injection same with same
      exact ⟨name, literal, declares, Nat.lt_of_not_le fits, same.symm⟩
  · rintro ⟨name, literal, declares, long, rfl⟩
    rw [readTrimmed_literal declares, if_neg (Nat.not_le_of_lt long)]

end Line

namespace Line

theorem read_eq_limit_iff {text : String} {location : Location} {error : Decimal.LimitError} :
    Line.read text location = .error (.limit error) ↔
      Form.readTrimmed (Text.trim text).toList = .error (.limit error) := by
  unfold Line.read
  simp only
  split
  · next shape => simp [shape]
  · next shape => simp [shape]
  · next shape => simp [shape]

end Line

/-! ## Sources with a literal that is too long -/

namespace Source

/-- The first line of a source that cannot be read is the declaration of a
literal of so many digits, which are too many.  No line above it is a halt
command. -/
def HasLongLiteral (source : String) (digits : Nat) : Prop :=
  ∃ front text rest name literal, Text.lines source = front ++ text :: rest ∧
    (∀ above ∈ front, ∃ form, Form.readTrimmed (Text.trim above).toList = .ok form ∧
      form.isHalt = false) ∧
    DeclaresLiteral text name literal ∧ Decimal.numeralLength literal = digits ∧
    Decimal.digitLimit < digits

/-- Reading the lines meets the digit limit exactly at a literal that is too
long. -/
theorem lines_eq_limit_iff {file source : String} {error : Decimal.LimitError} :
    Source.lines file source = .error (.limit error) ↔
      ∃ digits, HasLongLiteral source digits ∧ error = .numeral digits := by
  simp only [lines_eq_error_iff, Line.read_eq_limit_iff, Line.readTrimmed_eq_limit_iff]
  constructor
  · rintro ⟨above, text, below, split, readable, name, literal, declares, long, rfl⟩
    exact ⟨_, ⟨above, text, below, name, literal, split, readable, declares, rfl, long⟩, rfl⟩
  · rintro ⟨_, ⟨above, text, below, name, literal, split, readable, declares, rfl, long⟩, rfl⟩
    exact ⟨above, text, below, split, readable, name, literal, declares, long, rfl⟩

end Source

/-- A source is compiled, or refused for an error of the source, unless it has a
literal that is too long. -/
theorem Compilation.ofSource_eq_limit_iff {options : CompileOptions} {file source : String}
    {error : Decimal.LimitError} :
    ofSource options file source = .error (.limit error) ↔
      ∃ digits, Source.HasLongLiteral source digits ∧ error = .numeral digits := by
  rw [← Source.lines_eq_limit_iff, ofSource, bind_eq_error_iff]
  constructor
  · rintro (failed | ⟨lines, _, failed⟩)
    · exact failed
    · split at failed <;> cases failed
  · exact .inl

end DecimalMachine
