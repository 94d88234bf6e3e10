import DecimalMachine.Proofs.Source.Grammar

/-!
# The classification of lines

A line is accepted if and only if the grammar has a form for its trimmed text, and
then as this form.  Every other line is refused as malformed, beside its trimmed
text, except for the declaration of a literal that is too long to be read.
-/

namespace DecimalMachine

namespace Grammar

/-! ## Reading declarations -/

theorem not_isNameStart_of_isDigit {c : Char} (digit : c.isDigit = true) :
    Text.isNameStart c = false := by
  have bounds := Text.toNat_of_isDigit digit
  rw [Bool.eq_false_iff]
  intro start
  simp only [Text.isNameStart, Bool.or_eq_true, isAlpha_iff, beq_iff_eq] at start
  rcases start with (letter | letter) | rfl
  · have low : 'A'.toNat ≤ c.toNat := UInt32.le_iff_toNat_le.mp (Char.le_def.mp letter.1)
    have value : 'A'.toNat = 65 := rfl
    omega
  · have low : 'a'.toNat ≤ c.toNat := UInt32.le_iff_toNat_le.mp (Char.le_def.mp letter.1)
    have value : 'a'.toNat = 97 := rfl
    omega
  · cases digit

section Names

variable {first : String} {rest : List (Sign × String)}

theorem equals_notMem_sum
    (terms : ∀ term ∈ Form.terms first rest, Text.isNameShape term.toList = true) :
    '=' ∉ sum first rest := by
  intro member
  rcases List.mem_append.mp member with inFirst | inRest
  · exact Text.ne_equals_of_mem_name (terms first List.mem_cons_self) inFirst rfl
  · rcases List.mem_flatMap.mp inRest with ⟨⟨sign, term⟩, memRest, member⟩
    rcases List.mem_cons.mp member with mark | inTerm
    · cases sign <;> cases mark
    · have name := terms term (List.mem_cons_of_mem first (List.mem_map_of_mem memRest))
      exact Text.ne_equals_of_mem_name name inTerm rfl

/-- A sum of names begins as a name does, so that it is not empty and no
literal. -/
theorem exists_nameStart_sum (name : Text.isNameShape first.toList = true)
    (rest : List (Sign × String)) :
    ∃ c text, sum first rest = c :: text ∧ Text.isNameStart c = true := by
  cases letters : first.toList with
  | nil =>
      rw [letters] at name
      cases name
  | cons c more =>
      simp only [letters, Text.isNameShape, Bool.and_eq_true] at name
      exact ⟨c, _, by rw [sum, letters, List.cons_append], name.1⟩

theorem isLiteralShape_sum (name : Text.isNameShape first.toList = true) :
    Decimal.isLiteralShape (sum first rest) = false := by
  rcases exists_nameStart_sum name rest with ⟨c, text, whole, start⟩
  rw [whole, Bool.eq_false_iff]
  intro shape
  rcases Decimal.isDigit_or_sign_of_mem_literal shape List.mem_cons_self with digit | rfl | rfl
  · rw [not_isNameStart_of_isDigit digit] at start
    cases start
  · cases start
  · cases start

/-- A declaration by a sum of names is read as an expression. -/
theorem readDeclaration_sum {name : List Char} (identifier : Text.isNameShape name = true)
    (terms : ∀ term ∈ Form.terms first rest, Text.isNameShape term.toList = true) :
    Form.readDeclaration (name ++ '=' :: sum first rest) =
      .ok (.expression (.ofList name) first rest) := by
  have started := terms first List.mem_cons_self
  have given : (sum first rest).isEmpty = false := by
    rcases exists_nameStart_sum started rest with ⟨c, text, whole, _⟩
    rw [whole]
    rfl
  have single : (sum first rest).contains '=' = false := by
    simpa using equals_notMem_sum terms
  rw [Form.readDeclaration_append identifier, given, single, isLiteralShape_sum started]
  exact readExpression_eq_ok_iff.mpr ⟨first, rest, rfl, rfl, terms⟩

end Names

/-- A declaration without blanks is read if and only if its value is a literal
that is short enough, or a sum of names. -/
theorem readDeclaration_eq_ok_iff {text : List Char} {form : Form} :
    Form.readDeclaration text = .ok form ↔
      ∃ name value, text = String.toList name ++ '=' :: value ∧ Identifier name.toList ∧
        ((∃ number digits, Literal value number digits ∧ digits ≤ 4300 ∧
            form = .variable name number) ∨
          ∃ first rest, value = sum first rest ∧
            (∀ term ∈ Form.terms first rest, Identifier term.toList) ∧
            form = .expression name first rest) := by
  simp only [identifier_iff]
  constructor
  · intro read
    obtain ⟨name, value, rfl, identifier⟩ :=
      Form.exists_of_readDeclaration text (by simp [read])
    refine ⟨.ofList name, value, by simp, by simpa using identifier, ?_⟩
    by_cases shape : Decimal.isLiteralShape value = true
    · rw [Form.readDeclaration_literal identifier shape] at read
      split at read
      · next fits =>
          cases read
          exact .inl ⟨_, _, literal_iff.mpr ⟨shape, rfl, rfl⟩, fits, rfl⟩
      · cases read
    · rw [Form.readDeclaration_append identifier, if_neg shape] at read
      split at read
      · cases read
      split at read
      · cases read
      obtain ⟨first, rest, rfl, rfl, terms⟩ := readExpression_eq_ok_iff.mp read
      exact .inr ⟨first, rest, rfl, terms, rfl⟩
  · rintro ⟨name, value, rfl, identifier, ⟨number, digits, denotes, fits, rfl⟩ |
      ⟨first, rest, rfl, terms, rfl⟩⟩
    · obtain ⟨shape, rfl, rfl⟩ := literal_iff.mp denotes
      rw [Form.readDeclaration_literal identifier shape, String.ofList_toList]
      exact if_pos fits
    · rw [readDeclaration_sum identifier terms, String.ofList_toList]

/-! ## Reading lines -/

theorem readTrimmed_unmarked {text : List Char} (unmarked : Unmarked text) (nonempty : text ≠ []) :
    Form.readTrimmed text =
      if text.contains '=' then Form.readDeclaration (text.filter (! Text.isBlank ·))
      else Form.readTokens (Text.tokenChars text) := by
  obtain ⟨c, rest, rfl⟩ := List.exists_cons_of_ne_nil nonempty
  have uncommented : c ≠ Form.commentMark := by
    rintro rfl
    exact unmarked.1 rfl
  have unlabelled : c ≠ Form.labelMark := by
    rintro rfl
    exact unmarked.2 rfl
  rw [Form.readTrimmed, if_neg uncommented, if_neg unlabelled]

theorem contains_of_declares {text value : List Char} {name : String}
    (declares : Declares text name value) : text.contains '=' = true := by
  have member : '=' ∈ text.filter (! Text.isBlank ·) := by
    rw [declares.compact]
    simp
  exact List.contains_iff_mem.mpr (List.mem_filter.mp member).1

theorem readTrimmed_declares {text value : List Char} {name : String} (unmarked : Unmarked text)
    (declares : Declares text name value) :
    Form.readTrimmed text = Form.readDeclaration (name.toList ++ '=' :: value) := by
  have contained := contains_of_declares declares
  have nonempty : text ≠ [] := by
    rintro rfl
    cases contained
  rw [readTrimmed_unmarked unmarked nonempty, if_pos contained, declares.compact]

theorem readTrimmed_tokens {text : List Char} {tokens : List (List Char)}
    (unmarked : Unmarked text) (plain : '=' ∉ text) (made : Text.Tokens text tokens) :
    Form.readTrimmed text = Form.readTokens tokens := by
  rw [readTrimmed_unmarked unmarked made.ne_nil, if_neg (by simpa using plain), made.tokenChars_eq]

section Forms

variable {text : List Char} {form : Form}

/-- What is read of a declaration is a form of the grammar. -/
theorem hasForm_of_readDeclaration (unmarked : Unmarked text)
    (read : Form.readDeclaration (text.filter (! Text.isBlank ·)) = .ok form) :
    HasForm text form := by
  rcases readDeclaration_eq_ok_iff.mp read with ⟨name, value, compact, identifier, kinds⟩
  rcases kinds with ⟨number, digits, denotes, short, rfl⟩ | ⟨first, rest, rfl, terms, rfl⟩
  · exact .variable unmarked ⟨compact, identifier⟩ denotes short
  · exact .expression unmarked ⟨compact, identifier⟩ terms

/-- What is read of a command line is a form of the grammar. -/
theorem hasForm_of_readTokens {tokens : List (List Char)} (unmarked : Unmarked text)
    (plain : '=' ∉ text) (made : Text.Tokens text tokens)
    (read : Form.readTokens tokens = .ok form) : HasForm text form := by
  unfold Form.readTokens at read
  split at read
  · exact absurd rfl made.tokens_ne_nil
  · cases read
    exact .command unmarked plain (by simpa using made)
  · cases read
    exact .operand unmarked plain (by simpa using made)
  · cases read

theorem hasForm_of_readTrimmed (trimmed : Text.Trimmed text)
    (read : Form.readTrimmed text = .ok form) : HasForm text form := by
  cases text with
  | nil =>
      cases read
      exact .blank
  | cons c rest =>
      by_cases comment : c = '>'
      · subst comment
        cases read
        exact .comment rest
      by_cases label : c = '@'
      · subst label
        rw [Form.readTrimmed, if_neg (by decide), if_pos (by rfl)] at read
        split at read
        · next shape =>
            cases read
            have identifier : Identifier (String.ofList rest).toList := by
              rwa [identifier_iff, String.toList_ofList]
            simpa using HasForm.label identifier
        · cases read
      have unmarked : Unmarked (c :: rest) := by simp [Unmarked, comment, label]
      rw [readTrimmed_unmarked unmarked (List.cons_ne_nil c rest)] at read
      split at read
      · exact hasForm_of_readDeclaration unmarked read
      · next plain =>
          obtain ⟨tokens, made⟩ := trimmed.exists_tokens (List.cons_ne_nil c rest)
          rw [made.tokenChars_eq] at read
          exact hasForm_of_readTokens unmarked (by simpa using plain) made read

/-- A text with a form is read as this form. -/
theorem HasForm.readTrimmed_eq (written : HasForm text form) :
    Form.readTrimmed text = .ok form := by
  cases written with
  | blank => rfl
  | comment => rfl
  | label identifier =>
      have shape := identifier_iff.mp identifier
      simp [Form.readTrimmed, Form.commentMark, Form.labelMark, shape]
  | «variable» unmarked declares denotes short =>
      rw [readTrimmed_declares unmarked declares]
      exact readDeclaration_eq_ok_iff.mpr ⟨_, _, rfl, declares.identifier,
        .inl ⟨_, _, denotes, short, rfl⟩⟩
  | expression unmarked declares terms =>
      rw [readTrimmed_declares unmarked declares]
      exact readDeclaration_eq_ok_iff.mpr ⟨_, _, rfl, declares.identifier,
        .inr ⟨_, _, rfl, terms, rfl⟩⟩
  | command unmarked plain tokens =>
      rw [readTrimmed_tokens unmarked plain tokens]
      simp [Form.readTokens]
  | operand unmarked plain tokens =>
      rw [readTrimmed_tokens unmarked plain tokens]
      simp [Form.readTokens]

/-- A trimmed text is read as a form if and only if the grammar has this form for
it. -/
theorem readTrimmed_eq_ok_iff (trimmed : Text.Trimmed text) :
    Form.readTrimmed text = .ok form ↔ HasForm text form :=
  ⟨hasForm_of_readTrimmed trimmed, HasForm.readTrimmed_eq⟩

end Forms

/-- A trimmed text is too long to be read if and only if it declares a literal
that is. -/
theorem readTrimmed_eq_limit_iff {text : String} {error : Decimal.LimitError} :
    Form.readTrimmed (Text.trim text).toList = .error (.limit error) ↔
      ∃ digits, DeclaresTooLong (Text.trim text).toList digits ∧ error = .numeral digits := by
  rw [Line.readTrimmed_eq_limit_iff]
  constructor
  · rintro ⟨name, literal, declares, long, rfl⟩
    rcases Line.exists_nameStart declares.identifier declares.compact with
      ⟨c, rest, trimmed, start⟩
    have unmarked : Unmarked (Text.trim text).toList := by
      rw [trimmed]
      constructor
      · rintro ⟨⟩
        cases start
      · rintro ⟨⟩
        cases start
    have split : Declares (Text.trim text).toList (.ofList name) literal := by
      refine ⟨?_, ?_⟩
      · rw [String.toList_ofList]
        exact declares.compact
      · rw [String.toList_ofList]
        exact identifier_iff.mpr declares.identifier
    exact ⟨_, ⟨unmarked, split, literal_iff.mpr ⟨declares.shape, rfl, rfl⟩, long⟩, rfl⟩
  · rintro ⟨digits, ⟨unmarked, split, denotes, long⟩, rfl⟩
    obtain ⟨shape, _, rfl⟩ := literal_iff.mp denotes
    exact ⟨_, _, ⟨split.compact, identifier_iff.mp split.identifier, shape⟩, long, rfl⟩

end Grammar

/-- The reading of a line gives what the grammar says of its trimmed text. -/
structure FollowsGrammar (text : String) (location : Location) : Prop where
  accepts : ∀ line, Line.read text location = .ok line ↔
    Grammar.HasForm (Text.trim text).toList line.form ∧ line.text = Text.trim text ∧
      line.location = location
  /-- The value of a variable has a canonical text, which can be written. -/
  canonical : ∀ line name value, Line.read text location = .ok line →
    line.form = .variable name value →
      Decimal.write value = .ok (Decimal.text value) ∧
        Decimal.isCanonical (Decimal.text value) = true
  /-- An expression has one more term than it has operators. -/
  balanced : ∀ line name first rest, Line.read text location = .ok line →
    line.form = .expression name first rest →
      (Form.terms first rest).length = (rest.map (·.1)).length + 1
  limits : ∀ error, Line.read text location = .error (.limit error) ↔
    ∃ digits, Grammar.DeclaresTooLong (Text.trim text).toList digits ∧ error = .numeral digits
  /-- Every other line is refused beside its trimmed text. -/
  refuses : (∃ malformation, Line.read text location =
      .error (.source ⟨.malformed malformation, some location, some (Text.trim text)⟩)) ↔
    (∀ form, ¬ Grammar.HasForm (Text.trim text).toList form) ∧
      ∀ digits, ¬ Grammar.DeclaresTooLong (Text.trim text).toList digits

/-- The lines that are accepted are those of the grammar. -/
theorem Line.followsGrammar (text : String) (location : Location) :
    FollowsGrammar text location := by
  have accepts : ∀ form, Form.readTrimmed (Text.trim text).toList = .ok form ↔
      Grammar.HasForm (Text.trim text).toList form :=
    fun form => Grammar.readTrimmed_eq_ok_iff (Text.trimmed_trim text)
  have limits : ∀ error, Form.readTrimmed (Text.trim text).toList = .error (.limit error) ↔ _ :=
    fun error => Grammar.readTrimmed_eq_limit_iff
  refine ⟨?_, ?_, ?_, ?_, ?_⟩
  · rintro ⟨form, trimmed, place⟩
    rw [← accepts, read]
    cases Form.readTrimmed (Text.trim text).toList with
    | ok other => simp [eq_comm]
    | error flaw => cases flaw <;> simp
  · intro line name value read form
    have trimmed := readTrimmed_of_read read
    rw [form] at trimmed
    have writable := Form.writable_of_readTrimmed trimmed
    exact ⟨by rw [Decimal.write_eq, if_pos writable], Decimal.isCanonical_text value⟩
  · intro line name first rest _ _
    simp [Form.terms]
  · intro error
    rw [read_eq_limit_iff, limits]
  · simp only [← accepts]
    have short : (∀ digits, ¬ Grammar.DeclaresTooLong (Text.trim text).toList digits) ↔
        ∀ error, Form.readTrimmed (Text.trim text).toList ≠ .error (.limit error) := by
      constructor
      · intro none error failed
        rcases (limits error).mp failed with ⟨digits, long, _⟩
        exact none digits long
      · intro none digits long
        exact none _ ((limits _).mpr ⟨digits, long, rfl⟩)
    rw [short, read]
    cases Form.readTrimmed (Text.trim text).toList with
    | ok form => simp
    | error flaw => cases flaw <;> simp [complain]

end DecimalMachine
