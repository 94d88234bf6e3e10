import DecimalMachine.Decimal.Numeral
import DecimalMachine.Proofs.Decimal.Canonical

/-!
# Literals and numerals

Literals are numerals: read freely, a literal has the value that it has as a
literal, or is too long in both readings.  A numeral need not be a literal.  It is
one if it is written plainly, in ASCII digits without blanks or underscores.
-/

namespace DecimalMachine.Decimal

/-! ## Digits -/

/-- Digits of ASCII have the values that they have in a literal. -/
theorem digitValues?_of_isDigits {text : List Char} (digits : isDigits text = true) :
    digitValues? text = some (text.map fun c => c.toNat - 48) := by
  simp only [isDigits, Bool.and_eq_true, List.all_eq_true, Bool.not_eq_true'] at digits
  obtain ⟨nonempty, all⟩ := digits
  induction text with
  | nil => cases nonempty
  | cons c rest ih =>
      have value := digitValue?_of_isDigit (all c List.mem_cons_self)
      cases rest with
      | nil => simp [digitValues?, value]
      | cons second more =>
          have solid : second ≠ '_' := by
            rintro rfl
            exact absurd (all '_' (by simp)) (by decide)
          have tail := ih rfl fun d member => all d (List.mem_cons_of_mem c member)
          rw [digitValues?]
          · simp [value, tail]
          · simp
          · rintro rest' ⟨⟩
            exact solid rfl

/-- A numeral is made of digits and underscores, with at least one digit. -/
theorem digits_of_digitValues? {text : List Char} {values : List Nat}
    (read : digitValues? text = some values) :
    text ≠ [] ∧ ∀ c ∈ text, c = '_' ∨ (digitValue? c).isSome = true := by
  induction text using digitValues?.induct generalizing values with
  | case1 => cases read
  | case2 c =>
      obtain ⟨value, digit, _⟩ := Option.map_eq_some_iff.mp read
      simp [digit]
  | case3 c rest ih =>
      simp only [digitValues?, Option.bind_eq_bind, Option.bind_eq_some_iff] at read
      obtain ⟨value, digit, tail, readTail, _⟩ := read
      refine ⟨by simp, ?_⟩
      intro d member
      rcases List.mem_cons.mp member with rfl | member
      · exact .inr (by simp [digit])
      · rcases List.mem_cons.mp member with mark | member
        · exact .inl mark
        · exact (ih readTail).2 d member
  | case4 c rest more plain ih =>
      rw [digitValues?] at read
      · simp only [Option.bind_eq_bind, Option.bind_eq_some_iff] at read
        obtain ⟨value, digit, tail, readTail, _⟩ := read
        refine ⟨by simp, ?_⟩
        intro d member
        rcases List.mem_cons.mp member with rfl | member
        · exact .inr (by simp [digit])
        · exact (ih readTail).2 d member
      · exact more
      · exact plain

/-! ## Margins -/

/-- A line feed at the end is a margin. -/
theorem dropAround_append_newline {text : List Char} (nonempty : text ≠ [])
    (solid : ∀ c ∈ text, isMargin c = false) :
    Text.dropAround isMargin (text ++ ['\n']) = text := by
  have front : (text ++ ['\n']).dropWhile isMargin = text ++ ['\n'] := by
    apply Text.dropWhile_eq_self
    intro c head
    obtain ⟨first, rest, rfl⟩ := List.exists_cons_of_ne_nil nonempty
    cases head
    exact solid _ List.mem_cons_self
  have back : text.reverse.dropWhile isMargin = text.reverse := by
    apply Text.dropWhile_eq_self
    intro c head
    exact solid c (List.mem_reverse.mp (List.mem_of_head? head))
  have newline : isMargin '\n' = true := rfl
  rw [Text.dropAround, front, List.reverse_append, List.reverse_singleton, List.singleton_append,
    List.dropWhile_cons_of_pos newline, back, List.reverse_reverse]

theorem dropAround_isMargin {text : List Char} (nonempty : Text.dropFinalNewline text ≠ [])
    (solid : ∀ c ∈ Text.dropFinalNewline text, isMargin c = false) :
    Text.dropAround isMargin text = Text.dropFinalNewline text := by
  unfold Text.dropFinalNewline at solid nonempty ⊢
  split
  · next ends =>
      obtain ⟨front, rfl⟩ := List.getLast?_eq_some_iff.mp ends
      rw [if_pos ends, List.dropLast_concat] at solid nonempty
      rw [List.dropLast_concat]
      exact dropAround_append_newline nonempty solid
  · next stays =>
      rw [if_neg stays] at solid
      exact Text.dropAround_eq_self solid

/-! ## Literals -/

theorem isMargin_of_mem_literal {text : List Char} (shape : isLiteralShape text = true) {c : Char}
    (member : c ∈ text) : isMargin c = false := by
  have solid : Text.isBlank c = false := by
    rcases isDigit_or_sign_of_mem_literal shape member with digit | rfl | rfl
    · exact Text.isBlank_of_isDigit digit
    · rfl
    · rfl
  simp [isMargin, solid]

theorem ne_nil_of_isLiteralShape {text : List Char} (shape : isLiteralShape text = true) :
    text ≠ [] := by
  rintro rfl
  cases shape

/-- A literal is read freely as it is read strictly. -/
theorem numeral?_of_isLiteral {text : String} (literal : isLiteral text = true) :
    numeral? text = (read text).toOption := by
  have shape : isLiteralShape (Text.dropFinalNewline text.toList) = true := literal
  have magnitude : isDigits (splitSign (Text.dropFinalNewline text.toList)).2 = true := shape
  have trimmed := dropAround_isMargin (ne_nil_of_isLiteralShape shape)
    fun c member => isMargin_of_mem_literal shape member
  rw [numeral?, trimmed, read, readShape]
  simp only [digitValues?_of_isDigits magnitude, Option.bind_eq_bind, Option.bind_some,
    List.length_map, List.foldl_map]
  split
  · rfl
  · rfl

/-! ## Plain texts -/

/-- A text without white space, underscores and decimal digits beyond ASCII. -/
def IsPlain (text : String) : Prop :=
  ∀ c ∈ text.toList, isMargin c = false ∧ c ≠ '_' ∧
    ((digitValue? c).isSome = true → c.isDigit = true)

instance (text : String) : Decidable (IsPlain text) :=
  List.decidableBAll _ text.toList

theorem mem_of_mem_splitSign {text : List Char} {c : Char} (member : c ∈ (splitSign text).2) :
    c ∈ text := by
  unfold splitSign at member
  split at member
  · exact List.mem_cons_of_mem _ member
  · exact List.mem_cons_of_mem _ member
  · exact member

/-- A numeral that is written plainly is a literal. -/
theorem isLiteral_of_numeral? {text : String} (plain : IsPlain text) {value : Int}
    (read : numeral? text = some value) : isLiteral text = true := by
  have trimmed : Text.dropAround isMargin text.toList = text.toList :=
    Text.dropAround_eq_self fun c member => (plain c member).1
  have unended : Text.dropFinalNewline text.toList = text.toList := by
    apply Text.dropFinalNewline_eq_self
    rintro c member rfl
    cases (plain '\n' member).1
  rw [numeral?, trimmed] at read
  simp only [Option.bind_eq_bind, Option.bind_eq_some_iff] at read
  obtain ⟨values, digits, _⟩ := read
  obtain ⟨nonempty, made⟩ := digits_of_digitValues? digits
  rw [isLiteral, unended, isLiteralShape, isDigits, Bool.and_eq_true]
  refine ⟨by simpa using nonempty, List.all_eq_true.mpr ?_⟩
  intro c member
  obtain ⟨_, noUnderscore, ascii⟩ := plain c (mem_of_mem_splitSign member)
  rcases made c member with underscore | digit
  · exact absurd underscore noUnderscore
  · exact ascii digit

end DecimalMachine.Decimal
