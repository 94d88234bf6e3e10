import DecimalMachine.Decimal.Literal
import DecimalMachine.Text.Blank

/-!
# Canonical texts

A canonical text has no plus sign, no leading zeros, and no minus sign before a
zero.  Integers are written canonically, and a canonical text reads back as the
integer that it was written for, as long as it keeps within the digit limit.
-/

namespace DecimalMachine

namespace Text

theorem dropWhile_eq_self {drops : Char → Bool} {text : List Char}
    (keeps : ∀ c, text.head? = some c → drops c = false) : text.dropWhile drops = text := by
  cases text with
  | nil => rfl
  | cons c rest => simp [keeps c rfl]

/-- A text without blanks at all is not changed by trimming. -/
theorem dropAround_eq_self {drops : Char → Bool} {text : List Char}
    (keeps : ∀ c ∈ text, drops c = false) : dropAround drops text = text := by
  have forward : text.dropWhile drops = text :=
    dropWhile_eq_self fun c head => keeps c (List.mem_of_head? head)
  have backward : text.reverse.dropWhile drops = text.reverse :=
    dropWhile_eq_self fun c head => keeps c (List.mem_reverse.mp (List.mem_of_head? head))
  rw [dropAround, forward, backward, List.reverse_reverse]

theorem trim_eq_self {text : String} (keeps : ∀ c ∈ text.toList, isBlank c = false) :
    trim text = text := by
  rw [trim, dropAround_eq_self keeps, String.ofList_toList]

theorem toNat_of_isDigit {c : Char} (digit : c.isDigit = true) : 48 ≤ c.toNat ∧ c.toNat ≤ 57 := by
  simpa [Char.isDigit, UInt32.le_iff_toNat_le] using digit

theorem isBlank_of_isDigit {c : Char} (digit : c.isDigit = true) : isBlank c = false := by
  have bounds := toNat_of_isDigit digit
  simp only [isBlank, Bool.or_eq_false_iff, Bool.and_eq_false_iff, decide_eq_false_iff_not,
    beq_eq_false_iff_ne]
  omega

theorem dropFinalNewline_eq_self {text : List Char} (keeps : ∀ c ∈ text, c ≠ '\n') :
    dropFinalNewline text = text := by
  rw [dropFinalNewline, if_neg]
  intro last
  exact keeps '\n' (List.mem_of_getLast? last) rfl

/-- At most one line feed is missing at the end. -/
theorem eq_dropFinalNewline_or (text : List Char) :
    text = dropFinalNewline text ∨ text = dropFinalNewline text ++ ['\n'] := by
  unfold dropFinalNewline
  split
  · next ends =>
      obtain ⟨front, rfl⟩ := List.getLast?_eq_some_iff.mp ends
      rw [List.dropLast_concat]
      exact .inr rfl
  · exact .inl rfl

end Text

namespace Decimal

/-- Digits without leading zeros. -/
def isCanonicalDigits : List Char → Bool
  | [] => false
  | [c] => c.isDigit
  | c :: rest => c.isDigit && c != '0' && rest.all Char.isDigit

/-- The shape of a canonical text. -/
def isCanonicalShape : List Char → Bool
  | '-' :: rest => isCanonicalDigits rest && rest != ['0']
  | text => isCanonicalDigits text

/-- Whether a text is canonical. -/
def isCanonical (text : String) : Bool :=
  isCanonicalShape text.toList

/-- An integer within the digit limit, which can be written. -/
def Writable (n : Int) : Prop :=
  (digits n.natAbs).length ≤ digitLimit

instance (n : Int) : Decidable (Writable n) :=
  inferInstanceAs (Decidable (_ ≤ _))

/-! ## Digits -/

theorem isDigit_of_mem_digits {n : Nat} {c : Char} (member : c ∈ digits n) :
    c.isDigit = true :=
  Nat.isDigit_of_mem_toDigits (by decide) (by decide) member

theorem digits_ne_nil (n : Nat) : digits n ≠ [] :=
  Nat.toDigits_ne_nil

theorem isDigits_digits (n : Nat) : isDigits (digits n) = true := by
  have all : (digits n).all Char.isDigit = true :=
    List.all_eq_true.mpr fun c member => isDigit_of_mem_digits member
  simp [isDigits, digits_ne_nil, all]

theorem not_isDigit_minus : ('-').isDigit = false := rfl

theorem splitSign_of_isDigits {text : List Char} (digits : isDigits text = true) :
    splitSign text = (false, text) := by
  unfold splitSign
  split
  · simp [isDigits, not_isDigit_minus] at digits
  · exact absurd digits (by simp [isDigits, show ('+').isDigit = false from rfl])
  · rfl

theorem isDigit_or_sign_of_mem_literal {text : List Char} (literal : isLiteralShape text = true)
    {c : Char} (member : c ∈ text) : c.isDigit = true ∨ c = '-' ∨ c = '+' := by
  have digits : ∀ d ∈ (splitSign text).2, d.isDigit = true := by
    simp only [isLiteralShape, isDigits, Bool.and_eq_true, List.all_eq_true] at literal
    exact literal.2
  unfold splitSign at digits
  split at digits
  · rcases List.mem_cons.mp member with sign | member
    · exact .inr (.inl sign)
    · exact .inl (digits c member)
  · rcases List.mem_cons.mp member with sign | member
    · exact .inr (.inr sign)
    · exact .inl (digits c member)
  · exact .inl (digits c member)

/-- The magnitude of an integer follows its sign. -/
theorem splitSign_chars (n : Int) : splitSign (chars n) = (decide (n < 0), digits n.natAbs) := by
  cases n with
  | ofNat n =>
      rw [chars, splitSign_of_isDigits (isDigits_digits n)]
      simp
  | negSucc n => simp [chars, splitSign, Int.negSucc_lt_zero]

theorem withSign_natAbs (n : Int) : withSign (decide (n < 0)) n.natAbs = n := by
  unfold withSign
  split
  · next negative =>
      simp only [decide_eq_true_eq] at negative
      omega
  · next negative =>
      simp only [decide_eq_true_eq] at negative
      omega

/-- The characters of an integer are digits, but for the sign. -/
theorem isDigit_or_eq_of_mem_chars {n : Int} {c : Char} (member : c ∈ chars n) :
    c.isDigit = true ∨ c = '-' := by
  cases n with
  | ofNat n => exact .inl (isDigit_of_mem_digits member)
  | negSucc n =>
      rcases List.mem_cons.mp member with sign | member
      · exact .inr sign
      · exact .inl (isDigit_of_mem_digits member)

theorem dropFinalNewline_chars (n : Int) : Text.dropFinalNewline (chars n) = chars n := by
  apply Text.dropFinalNewline_eq_self
  intro c member newline
  subst newline
  simpa using isDigit_or_eq_of_mem_chars member

/-! ## Reading what was written -/

@[simp]
theorem toList_text (n : Int) : (text n).toList = chars n :=
  String.toList_ofList

@[simp]
theorem isLiteral_text (n : Int) : isLiteral (text n) = true := by
  rw [isLiteral, toList_text, dropFinalNewline_chars, isLiteralShape, splitSign_chars]
  exact isDigits_digits n.natAbs

/-- A number within the digit limit reads back from its text. -/
theorem read_text {n : Int} (writable : Writable n) : read (text n) = .ok n := by
  rw [read, toList_text, dropFinalNewline_chars, readShape, splitSign_chars]
  have fits : (digits n.natAbs).length ≤ digitLimit := writable
  simp [fits, ofDigits_digits, withSign_natAbs]

theorem write_eq (n : Int) :
    write n = if Writable n then .ok (text n) else .error .result :=
  rfl

theorem text_ne_empty (n : Int) : text n ≠ "" := by
  intro empty
  have nil : chars n = [] := by rw [← toList_text, empty]; rfl
  cases n with
  | ofNat n => exact digits_ne_nil n nil
  | negSucc n => simp [chars] at nil

/-- Leading zeros do not make the value of a numeral longer than the numeral
itself. -/
theorem length_digits_ofDigits_le {text : List Char} (nonempty : text ≠ [])
    (digit : ∀ c ∈ text, c.isDigit = true) : (digits (ofDigits text)).length ≤ text.length := by
  have positive : 0 < text.length := List.length_pos_iff.mpr nonempty
  refine (Nat.length_toDigits_le_iff (by decide) positive).mpr ?_
  suffices bound : ∀ value, Nat.ofDigitChars 10 text value < (value + 1) * 10 ^ text.length by
    simpa [ofDigits] using bound 0
  clear nonempty positive
  induction text with
  | nil => simp
  | cons c rest ih =>
      intro value
      have small : c.toNat - '0'.toNat ≤ 9 := by
        have bounds := Text.toNat_of_isDigit (digit c List.mem_cons_self)
        have zero : '0'.toNat = 48 := rfl
        omega
      have tail := ih (fun c member => digit c (List.mem_cons_of_mem _ member))
        (10 * value + (c.toNat - '0'.toNat))
      rw [Nat.ofDigitChars_cons, List.length_cons, Nat.pow_succ]
      refine Nat.lt_of_lt_of_le tail ?_
      calc
        (10 * value + (c.toNat - '0'.toNat) + 1) * 10 ^ rest.length ≤
            ((value + 1) * 10) * 10 ^ rest.length := Nat.mul_le_mul_right _ (by omega)
        _ = (value + 1) * (10 ^ rest.length * 10) := by rw [Nat.mul_assoc, Nat.mul_comm 10]

/-- What is read from a literal can be written. -/
theorem writable_of_readShape {text : List Char} {n : Int} (literal : isLiteralShape text = true)
    (value : readShape text = .ok n) : Writable n := by
  unfold readShape at value
  split at value
  next negative magnitude split =>
    have digit : isDigits magnitude = true := by
      rwa [isLiteralShape, split] at literal
    simp only [isDigits, Bool.and_eq_true, Bool.not_eq_true', List.isEmpty_eq_false_iff,
      List.all_eq_true] at digit
    split at value
    · next fits =>
        cases value
        have magnitudes : (withSign negative (ofDigits magnitude)).natAbs = ofDigits magnitude := by
          unfold withSign
          split <;> simp
        rw [Writable, magnitudes]
        exact Nat.le_trans (length_digits_ofDigits_le digit.1 digit.2) fits
    · cases value

theorem writable_of_read {text : String} {n : Int} (literal : isLiteral text = true)
    (value : read text = .ok n) : Writable n :=
  writable_of_readShape literal value

theorem writable_zero : Writable 0 := by
  decide

/-! ## Canonical shape -/

theorem isCanonicalDigits_digits (n : Nat) : isCanonicalDigits (digits n) = true := by
  induction n using Nat.strongRecOn with
  | ind n ih =>
      by_cases small : n < 10
      · rw [digits, Nat.toDigits_of_lt_base small]
        simp [isCanonicalDigits, small]
      · have shorter := ih (n / 10) (Nat.div_lt_self (by omega) (by decide))
        have positive : n / 10 ≠ 0 := by omega
        rw [digits, Nat.toDigits_of_base_le (by decide) (by omega)]
        have lastDigit : (n % 10).digitChar.isDigit = true := by
          simp [Nat.mod_lt]
        cases front : Nat.toDigits 10 (n / 10) with
        | nil => exact absurd front Nat.toDigits_ne_nil
        | cons c rest =>
            rw [digits, front] at shorter
            cases rest with
            | nil =>
                have single : n / 10 < 10 := by
                  have length := congrArg List.length front
                  have bound := (Nat.length_toDigits_le_iff (k := 1) (b := 10) (n := n / 10)
                    (by decide) (by decide)).mp (by simp [length])
                  simpa using bound
                rw [Nat.toDigits_of_lt_base single] at front
                have head : c = (n / 10).digitChar := by simpa using front.symm
                subst head
                simp [isCanonicalDigits, single, positive, lastDigit]
            | cons d rest =>
                simp only [isCanonicalDigits, Bool.and_eq_true, List.all_cons] at shorter
                simp [isCanonicalDigits, shorter, lastDigit]

/-- Integers are written canonically. -/
theorem isCanonical_text (n : Int) : isCanonical (text n) = true := by
  rw [isCanonical, toList_text]
  cases n with
  | ofNat n =>
      have canonical := isCanonicalDigits_digits n
      rw [chars]
      unfold isCanonicalShape
      split
      · next rest shape =>
          have digit := isDigit_of_mem_digits (n := n) (c := '-') (by simp [shape])
          exact absurd digit (by decide)
      · exact canonical
  | negSucc n =>
      have canonical := isCanonicalDigits_digits (n + 1)
      have nonzero : digits (n + 1) ≠ ['0'] := by
        intro zero
        have value := ofDigits_digits (n + 1)
        rw [zero] at value
        have : ofDigits ['0'] = 0 := rfl
        omega
      simp [chars, isCanonicalShape, canonical, nonzero]

end Decimal

end DecimalMachine
