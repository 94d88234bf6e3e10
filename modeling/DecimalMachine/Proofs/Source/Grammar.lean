import DecimalMachine.Proofs.Source.Literals
import Mathlib.Data.List.Induction

/-!
# The grammar of source lines

What a line says is settled by a grammar of its trimmed text, which does not
mention how lines are read: names, integer literals, sums of names, tokens, and
one rule for each form.  Blanks count in labels and commands and not in
declarations.

Each part of the grammar is what the reader of this part accepts: names by their
shape, literals with the value and the number of digits that are read, and sums
by their terms and operators.
-/

namespace DecimalMachine

namespace Grammar

/-! ## Names, literals and sums -/

/-- A letter of ASCII. -/
def IsLetter (c : Char) : Prop :=
  ('A' ≤ c ∧ c ≤ 'Z') ∨ ('a' ≤ c ∧ c ≤ 'z')

/-- A digit of ASCII with its value. -/
def IsDigit (c : Char) (value : Nat) : Prop :=
  value < 10 ∧ c.toNat = '0'.toNat + value

/-- A letter or an underscore, then letters, digits and underscores. -/
inductive Identifier : List Char → Prop where
  | mk {first : Char} {rest : List Char} (start : IsLetter first ∨ first = '_')
      (more : ∀ c ∈ rest, IsLetter c ∨ (∃ value, IsDigit c value) ∨ c = '_') :
      Identifier (first :: rest)

/-- At least one digit, and the number that the digits denote. -/
inductive Digits : List Char → Nat → Prop where
  | one {c : Char} {value : Nat} (digit : IsDigit c value) : Digits [c] value
  | next {text : List Char} {front : Nat} {c : Char} {value : Nat} (digits : Digits text front)
      (digit : IsDigit c value) : Digits (text ++ [c]) (10 * front + value)

/-- Digits after an optional sign: the integer that they denote, and how many
they are. -/
inductive Literal : List Char → Int → Nat → Prop where
  | unsigned {text : List Char} {value : Nat} (digits : Digits text value) :
      Literal text value text.length
  | plus {text : List Char} {value : Nat} (digits : Digits text value) :
      Literal ('+' :: text) value text.length
  | minus {text : List Char} {value : Nat} (digits : Digits text value) :
      Literal ('-' :: text) (-value) text.length

/-- The terms of an expression with an operator before each but the first. -/
def sum (first : String) (rest : List (Sign × String)) : List Char :=
  first.toList ++ rest.flatMap fun item => item.1.char :: item.2.toList

/-! ## Lines -/

/-- A text begins with no mark of a comment or a label. -/
def Unmarked (text : List Char) : Prop :=
  text.head? ≠ some '>' ∧ text.head? ≠ some '@'

/-- But for its blanks, a text is a name, an equals sign and a value. -/
structure Declares (text : List Char) (name : String) (value : List Char) : Prop where
  compact : text.filter (! Text.isBlank ·) = name.toList ++ '=' :: value
  identifier : Identifier name.toList

/-- A trimmed line has a form. -/
inductive HasForm : List Char → Form → Prop where
  | blank : HasForm [] .blank
  | comment (text : List Char) : HasForm ('>' :: text) .comment
  | label {name : String} (identifier : Identifier name.toList) :
      HasForm ('@' :: name.toList) (.label name)
  | variable {text literal : List Char} {name : String} {value : Int} {digits : Nat}
      (unmarked : Unmarked text) (declares : Declares text name literal)
      (denotes : Literal literal value digits) (short : digits ≤ 4300) :
      HasForm text (.variable name value)
  | expression {text : List Char} {name first : String} {rest : List (Sign × String)}
      (unmarked : Unmarked text) (declares : Declares text name (sum first rest))
      (terms : ∀ term ∈ Form.terms first rest, Identifier term.toList) :
      HasForm text (.expression name first rest)
  | command {text : List Char} {command : String} (unmarked : Unmarked text)
      (plain : '=' ∉ text) (tokens : Text.Tokens text [command.toList]) :
      HasForm text (.instruction command none)
  | operand {text : List Char} {command operand : String} (unmarked : Unmarked text)
      (plain : '=' ∉ text) (tokens : Text.Tokens text [command.toList, operand.toList]) :
      HasForm text (.instruction command (some operand))

/-- A trimmed line declares a literal of so many digits, which are too many. -/
inductive DeclaresTooLong : List Char → Nat → Prop where
  | mk {text literal : List Char} {name : String} {value : Int} {digits : Nat}
      (unmarked : Unmarked text) (declares : Declares text name literal)
      (denotes : Literal literal value digits) (long : 4300 < digits) :
      DeclaresTooLong text digits

/-! ## Reading names and literals -/

theorem isAlpha_iff {c : Char} : c.isAlpha = true ↔ IsLetter c := by
  have parts : c.isAlpha = (c.isUpper || c.isLower) := rfl
  have upper : c.isUpper = decide ('A'.val ≤ c.val ∧ c.val ≤ 'Z'.val) := rfl
  have lower : c.isLower = (decide ('a'.val ≤ c.val) && decide (c.val ≤ 'z'.val)) := rfl
  simp [parts, upper, lower, IsLetter, Char.le_def]

theorem isDigit_iff {c : Char} : c.isDigit = true ↔ ∃ value, IsDigit c value := by
  constructor
  · intro digit
    have bounds := Text.toNat_of_isDigit digit
    have zero : '0'.toNat = 48 := rfl
    exact ⟨c.toNat - 48, by omega, by omega⟩
  · rintro ⟨value, small, shift⟩
    have zero : '0'.toNat = 48 := rfl
    simp only [Char.isDigit, Bool.and_eq_true, decide_eq_true_eq, ge_iff_le,
      UInt32.le_iff_toNat_le]
    have low : '0'.val.toNat = 48 := rfl
    have high : '9'.val.toNat = 57 := rfl
    have same : c.toNat = c.val.toNat := rfl
    omega

theorem identifier_iff {text : List Char} :
    Identifier text ↔ Text.isNameShape text = true := by
  have start : ∀ {c : Char}, Text.isNameStart c = true ↔ IsLetter c ∨ c = '_' := by
    simp [Text.isNameStart, isAlpha_iff]
  have inner : ∀ {c : Char}, Text.isNameChar c = true ↔
      IsLetter c ∨ (∃ value, IsDigit c value) ∨ c = '_' := by
    simp [Text.isNameChar, Char.isAlphanum, isAlpha_iff, isDigit_iff, or_assoc]
  cases text with
  | nil =>
      constructor
      · rintro ⟨⟩
      · rintro ⟨⟩
  | cons first rest =>
      simp only [Text.isNameShape, Bool.and_eq_true, List.all_eq_true, start, inner]
      constructor
      · rintro ⟨head, tail⟩
        exact ⟨head, tail⟩
      · rintro ⟨head, tail⟩
        exact .mk head tail

theorem ofDigits_append {text : List Char} {c : Char} {value : Nat} (digit : IsDigit c value) :
    Decimal.ofDigits (text ++ [c]) = 10 * Decimal.ofDigits text + value := by
  rw [Decimal.ofDigits, Nat.ofDigitChars_append, Nat.ofDigitChars_cons, digit.2,
    Nat.add_sub_cancel_left, Nat.ofDigitChars_nil, Decimal.ofDigits]

theorem digits_iff {text : List Char} {value : Nat} :
    Digits text value ↔ Decimal.isDigits text = true ∧ Decimal.ofDigits text = value := by
  constructor
  · intro digits
    induction digits with
    | @one c value digit =>
        refine ⟨by simp [Decimal.isDigits, isDigit_iff.mpr ⟨value, digit⟩], ?_⟩
        rw [← List.nil_append [c], ofDigits_append digit]
        simp [Decimal.ofDigits]
    | @next text front c value _ digit ih =>
        rcases ih with ⟨all, rfl⟩
        refine ⟨?_, ofDigits_append digit⟩
        simp only [Decimal.isDigits, Bool.and_eq_true, List.all_append] at all ⊢
        simp [all.2, isDigit_iff.mpr ⟨value, digit⟩]
  · rintro ⟨all, rfl⟩
    -- Induction on the last digit, which is worth the least.
    induction text using List.reverseRecOn with
    | nil => cases all
    | append_singleton text c ih =>
        simp only [Decimal.isDigits, Bool.and_eq_true, List.all_append, List.all_cons] at all
        rcases isDigit_iff.mp all.2.2.1 with ⟨value, digit⟩
        rw [ofDigits_append digit]
        by_cases alone : text = []
        · subst alone
          simpa [Decimal.ofDigits] using Digits.one digit
        · refine .next (ih ?_) digit
          simp only [Decimal.isDigits, all.2.1, Bool.and_true, Bool.not_eq_true',
            List.isEmpty_eq_false_iff]
          exact alone

theorem literal_iff {text : List Char} {value : Int} {digits : Nat} :
    Literal text value digits ↔ Decimal.isLiteralShape text = true ∧
      Decimal.numeralValue text = value ∧ Decimal.numeralLength text = digits := by
  constructor
  · rintro (run | run | run)
    · obtain ⟨all, rfl⟩ := digits_iff.mp run
      simp [Decimal.isLiteralShape, Decimal.numeralValue, Decimal.numeralLength,
        Decimal.splitSign_of_isDigits all, all, Decimal.withSign]
    · obtain ⟨all, rfl⟩ := digits_iff.mp run
      exact ⟨all, rfl, rfl⟩
    · obtain ⟨all, rfl⟩ := digits_iff.mp run
      exact ⟨all, rfl, rfl⟩
  · rintro ⟨shape, rfl, rfl⟩
    unfold Decimal.isLiteralShape at shape
    unfold Decimal.numeralValue Decimal.numeralLength
    unfold Decimal.splitSign at shape ⊢
    split at shape
    · exact .minus (digits_iff.mpr ⟨shape, rfl⟩)
    · exact .plus (digits_iff.mpr ⟨shape, rfl⟩)
    · exact .unsigned (digits_iff.mpr ⟨shape, rfl⟩)

/-! ## Reading sums -/

/-- No character of a name is an operator. -/
theorem ofChar?_of_mem_name {name : List Char} (identifier : Text.isNameShape name = true)
    {c : Char} (member : c ∈ name) : Sign.ofChar? c = none := by
  have inner : Text.isNameStart c = true ∨ Text.isNameChar c = true := by
    cases name with
    | nil => cases member
    | cons first rest =>
        simp only [Text.isNameShape, Bool.and_eq_true, List.all_eq_true] at identifier
        rcases List.mem_cons.mp member with rfl | member
        · exact .inl identifier.1
        · exact .inr (identifier.2 c member)
  have notPlus : c ≠ '+' := by
    rintro rfl
    revert inner
    decide
  have notMinus : c ≠ '-' := by
    rintro rfl
    revert inner
    decide
  rw [Sign.ofChar?, if_neg notPlus, if_neg notMinus]

theorem ofChar?_char (sign : Sign) : Sign.ofChar? sign.char = some sign := by
  cases sign <;> rfl

theorem char_of_ofChar? {c : Char} {sign : Sign} (written : Sign.ofChar? c = some sign) :
    sign.char = c := by
  unfold Sign.ofChar? at written
  split at written
  · next plus =>
      cases written
      exact plus.symm
  · split at written
    · next minus =>
        cases written
        exact minus.symm
    · cases written

/-- The terms into which a text is cut, as texts. -/
def cutTerms (text : List Char) : String × List (Sign × String) :=
  (.ofList (Form.splitTerms text).1,
    (Form.splitTerms text).2.map fun item => (item.1, .ofList item.2))

/-- The pieces of a text and the operators between them are the whole of it. -/
theorem sum_cutTerms (text : List Char) : sum (cutTerms text).1 (cutTerms text).2 = text := by
  induction text with
  | nil => rfl
  | cons c text ih =>
      simp only [sum, cutTerms, String.toList_ofList, List.flatMap_map] at ih ⊢
      cases sign : Sign.ofChar? c with
      | none => simp [Form.splitTerms, sign, ih]
      | some sign' => simp [Form.splitTerms, sign, char_of_ofChar? sign, ih]

theorem splitTerms_append {front : List Char} (plain : ∀ c ∈ front, Sign.ofChar? c = none)
    (text : List Char) :
    Form.splitTerms (front ++ text) =
      (front ++ (Form.splitTerms text).1, (Form.splitTerms text).2) := by
  induction front with
  | nil => rfl
  | cons c front ih =>
      have rest := ih fun other member => plain other (List.mem_cons_of_mem c member)
      simp [Form.splitTerms, plain c List.mem_cons_self, rest]

/-- A sum of names is cut into its terms. -/
theorem cutTerms_sum {first : String} {rest : List (Sign × String)}
    (terms : ∀ term ∈ Form.terms first rest, Text.isNameShape term.toList = true) :
    cutTerms (sum first rest) = (first, rest) := by
  induction rest generalizing first with
  | nil =>
      have plain := fun c => ofChar?_of_mem_name (c := c) (terms first List.mem_cons_self)
      have alone := splitTerms_append plain []
      rw [List.append_nil] at alone
      simp [cutTerms, sum, alone, Form.splitTerms]
  | cons second rest ih =>
      obtain ⟨sign, second⟩ := second
      have plain := fun c => ofChar?_of_mem_name (c := c) (terms first List.mem_cons_self)
      have tail : cutTerms (sum second rest) = (second, rest) :=
        ih fun term member => terms term (List.mem_cons_of_mem first member)
      have whole : sum first ((sign, second) :: rest) =
          first.toList ++ sign.char :: sum second rest := by
        simp [sum]
      simp only [cutTerms, Prod.mk.injEq] at tail
      rw [whole, cutTerms, splitTerms_append plain]
      simp [Form.splitTerms, ofChar?_char, tail]

theorem readTerm_eq_ok_iff {expression term : List Char} {name : String} :
    Form.readTerm expression term = .ok name ↔
      Text.isNameShape term = true ∧ name = .ofList term := by
  unfold Form.readTerm
  split
  · next empty =>
      rw [List.isEmpty_iff] at empty
      simp [empty, Text.isNameShape]
  · split
    · next shape => simp [shape, eq_comm]
    · next shape => simp [shape]

theorem readTerms_eq_ok_iff {expression : List Char} {items : List (Sign × List Char)}
    {results : List (Sign × String)} :
    (items.mapM fun (sign, term) => do
        let term ← Form.readTerm expression term
        pure (sign, term)) = .ok results ↔
      (∀ item ∈ items, Text.isNameShape item.2 = true) ∧
        results = items.map fun item => (item.1, .ofList item.2) := by
  induction items generalizing results with
  | nil =>
      constructor
      · rintro ⟨⟩
        exact ⟨by simp, rfl⟩
      · rintro ⟨_, rfl⟩
        rfl
  | cons item items ih =>
      simp only [List.mapM_cons, bind_eq_ok_iff, readTerm_eq_ok_iff, ih, List.forall_mem_cons,
        List.map_cons]
      constructor
      · rintro ⟨_, ⟨_, ⟨shape, rfl⟩, ⟨⟩⟩, _, ⟨shapes, rfl⟩, ⟨⟩⟩
        exact ⟨⟨shape, shapes⟩, rfl⟩
      · rintro ⟨⟨shape, shapes⟩, rfl⟩
        exact ⟨_, ⟨_, ⟨shape, rfl⟩, rfl⟩, _, ⟨shapes, rfl⟩, rfl⟩

/-- A right-hand side that is no literal is read if and only if it is a sum of
names. -/
theorem readExpression_eq_ok_iff {name : String} {text : List Char} {form : Form} :
    Form.readExpression name text = .ok form ↔
      ∃ first rest, form = .expression name first rest ∧ text = sum first rest ∧
        ∀ term ∈ Form.terms first rest, Text.isNameShape term.toList = true := by
  have read : Form.readExpression name text = .ok form ↔
      (∀ term ∈ Form.terms (cutTerms text).1 (cutTerms text).2,
        Text.isNameShape term.toList = true) ∧
      form = .expression name (cutTerms text).1 (cutTerms text).2 := by
    simp only [Form.readExpression, bind_eq_ok_iff, readTerm_eq_ok_iff, readTerms_eq_ok_iff,
      Form.terms, cutTerms, List.forall_mem_cons, List.map_map, List.forall_mem_map,
      Function.comp_apply, String.toList_ofList]
    constructor
    · rintro ⟨_, ⟨shape, rfl⟩, _, ⟨shapes, rfl⟩, ⟨⟩⟩
      exact ⟨⟨shape, shapes⟩, rfl⟩
    · rintro ⟨⟨shape, shapes⟩, rfl⟩
      exact ⟨_, ⟨shape, rfl⟩, _, ⟨shapes, rfl⟩, rfl⟩
  rw [read]
  constructor
  · rintro ⟨terms, rfl⟩
    exact ⟨_, _, rfl, (sum_cutTerms text).symm, terms⟩
  · rintro ⟨first, rest, rfl, rfl, terms⟩
    rw [cutTerms_sum terms]
    exact ⟨terms, rfl⟩

end Grammar

end DecimalMachine
