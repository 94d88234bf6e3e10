import DecimalMachine.Proofs.Source.Grammar
import DecimalMachine.Proofs.Word.Rendering
import DecimalMachine.Word.Basic

/-!
# Decoded words

A text is decoded if and only if it denotes an integer within the digit limit, and
writing the word gives the canonical text of this integer.  The text no longer
tells whether it was written for a number or for an instruction: it is decoded to
the same word again, unless the word is a number whose four digits begin with the
code of an operation.
-/

namespace DecimalMachine

namespace Grammar

/-- A text is a literal of so many digits, after which one line feed may stand. -/
inductive Denotes (text : String) : Int → Nat → Prop where
  | plain {value : Int} {digits : Nat} (literal : Literal text.toList value digits) :
      Denotes text value digits
  | ended {front : List Char} {value : Int} {digits : Nat} (whole : text.toList = front ++ ['\n'])
      (literal : Literal front value digits) : Denotes text value digits

theorem denotes_iff {text : String} {value : Int} {digits : Nat} :
    Denotes text value digits ↔ Literal (Text.dropFinalNewline text.toList) value digits := by
  constructor
  · rintro (literal | ⟨whole, literal⟩)
    · rw [Text.dropFinalNewline_eq_self]
      · exact literal
      · rintro c member rfl
        have shape := (literal_iff.mp literal).1
        simpa using Decimal.isDigit_or_sign_of_mem_literal shape member
    · rw [whole, Text.dropFinalNewline, if_pos (by simp), List.dropLast_concat]
      exact literal
  · intro literal
    rcases Text.eq_dropFinalNewline_or text.toList with whole | whole
    · exact .plain (whole ▸ literal)
    · exact .ended whole literal

/-- A text denotes one integer only, in so many digits. -/
theorem Denotes.unique {text : String} {value other : Int} {digits count : Nat}
    (denotes : Denotes text value digits) (also : Denotes text other count) :
    value = other ∧ digits = count := by
  obtain ⟨_, value, digits⟩ := literal_iff.mp (denotes_iff.mp denotes)
  obtain ⟨_, other, count⟩ := literal_iff.mp (denotes_iff.mp also)
  exact ⟨value.symm.trans other, digits.symm.trans count⟩

/-- The canonical text of an integer denotes it. -/
theorem denotes_text (value : Int) :
    Denotes (Decimal.text value) value (Decimal.digits value.natAbs).length := by
  rw [denotes_iff, literal_iff, Decimal.toList_text, Decimal.dropFinalNewline_chars,
    Decimal.isLiteralShape, Decimal.numeralValue, Decimal.numeralLength, Decimal.splitSign_chars,
    Decimal.ofDigits_digits, Decimal.withSign_natAbs]
  exact ⟨Decimal.isDigits_digits value.natAbs, rfl, rfl⟩

/-- What a literal text denotes is what is read from it. -/
theorem isLiteral_iff {text : String} :
    Decimal.isLiteral text = true ↔ ∃ value digits, Denotes text value digits := by
  simp only [denotes_iff, literal_iff, Decimal.isLiteral]
  constructor
  · intro shape
    exact ⟨_, _, shape, rfl, rfl⟩
  · rintro ⟨_, _, shape, _⟩
    exact shape

theorem Denotes.read_eq {text : String} {value : Int} {digits : Nat}
    (denotes : Denotes text value digits) :
    Decimal.read text =
      if digits ≤ Decimal.digitLimit then .ok value else .error (.numeral digits) := by
  obtain ⟨_, rfl, rfl⟩ := literal_iff.mp (denotes_iff.mp denotes)
  exact Decimal.readShape_eq _

end Grammar

open Grammar

/-! ## Four digits -/

/-- The code of an operation has two digits. -/
theorem Opcode.ten_le_code (opcode : Opcode) : 10 ≤ opcode.code := by
  cases opcode <;> decide

namespace Instruction

/-- Four digits that do not begin with a zero are the canonical text of their
number. -/
theorem render_eq_text {opcode operand : Nat} (leading : 10 ≤ opcode) (smallCode : opcode < 100)
    (smallOperand : operand < 100) :
    render ⟨opcode, operand⟩ = Decimal.text (100 * opcode + operand : Nat) := by
  have tens : (100 * opcode + operand) / 10 = 10 * opcode + operand / 10 := by omega
  have ones : (100 * opcode + operand) % 10 = operand % 10 := by omega
  have hundreds : (10 * opcode + operand / 10) / 10 = opcode := by omega
  have next : (10 * opcode + operand / 10) % 10 = operand / 10 := by omega
  have digits : Decimal.digits (100 * opcode + operand) =
      [(opcode / 10).digitChar, (opcode % 10).digitChar,
        (operand / 10).digitChar, (operand % 10).digitChar] := by
    rw [Decimal.digits, Nat.toDigits_of_base_le (by decide) (by omega), tens, ones,
      Nat.toDigits_of_base_le (by decide) (by omega), hundreds, next,
      Nat.toDigits_of_base_le (by decide) leading, Nat.toDigits_of_lt_base (by omega)]
    rfl
  apply String.toList_inj.mp
  rw [toList_render smallCode smallOperand, Decimal.toList_text]
  exact digits.symm

/-- Four digits hold two numbers below one hundred, and denote the number that
these make up. -/
theorem exists_of_ofText? {text : String} {instruction : Instruction}
    (decoded : ofText? text = some instruction) :
    ∃ opcode operand : Nat, instruction = ⟨opcode, operand⟩ ∧ opcode < 100 ∧ operand < 100 ∧
      Denotes text (100 * opcode + operand : Nat) 4 := by
  unfold ofText? ofChars? at decoded
  split at decoded
  · next a b c d whole =>
      split at decoded
      · next digits =>
          cases decoded
          have run : Decimal.isDigits [a, b, c, d] = true := by
            simpa [Decimal.isDigits] using digits
          simp only [List.all_cons, List.all_nil, Bool.and_true, Bool.and_eq_true] at digits
          have small : ∀ {x y : Char}, x.isDigit = true → y.isDigit = true →
              Decimal.ofDigits [x, y] < 100 := by
            intro x y first second
            have boundFirst := Text.toNat_of_isDigit first
            have boundSecond := Text.toNat_of_isDigit second
            have zero : '0'.toNat = 48 := rfl
            simp only [Decimal.ofDigits, Nat.ofDigitChars_cons, Nat.ofDigitChars_nil]
            omega
          have value : Decimal.ofDigits [a, b, c, d] =
              100 * Decimal.ofDigits [a, b] + Decimal.ofDigits [c, d] := by
            simp only [Decimal.ofDigits, Nat.ofDigitChars_cons, Nat.ofDigitChars_nil]
            omega
          refine ⟨_, _, rfl, small digits.1 digits.2.1, small digits.2.2.1 digits.2.2.2, ?_⟩
          rw [denotes_iff, whole, ← value]
          exact .unsigned (digits_iff.mpr ⟨run, rfl⟩)
      · cases decoded
  · cases decoded

end Instruction

namespace Word

variable {text : String} {word : Word} {number : Int}

/-- The integer that a word denotes. -/
def value : Word → Int
  | .instruction decoded => 100 * decoded.opcode + decoded.operand
  | .literal value => value

/-- The four digits of an integer begin with the code of an operation. -/
def IsExecutable (number : Int) : Prop :=
  1000 ≤ number ∧ number ≤ 9999 ∧ ∃ opcode : Opcode, number / 100 = opcode.code

theorem isExecutable_of_code (opcode : Opcode) {operand : Nat} (small : operand < 100) :
    IsExecutable (100 * opcode.code + operand) := by
  have low := opcode.ten_le_code
  have high := opcode.code_lt
  exact ⟨by omega, by omega, opcode, by omega⟩

/-- A text is an instruction of the machine if it is one of four digits with a
code that an operation has. -/
theorem exists_of_instruction? {decoded : Instruction} (reads : instruction? text = some decoded) :
    ∃ (opcode : Opcode) (operand : Nat), decoded = ⟨opcode.code, operand⟩ ∧ operand < 100 ∧
      Denotes text (100 * opcode.code + operand : Nat) 4 := by
  rw [instruction?, Option.filter_eq_some_iff] at reads
  obtain ⟨four, known⟩ := reads
  obtain ⟨opcode, operation⟩ := Option.isSome_iff_exists.mp known
  obtain ⟨code, operand, rfl, _, smallOperand, denotes⟩ := Instruction.exists_of_ofText? four
  have same : code = opcode.code := Int.ofNat.inj (Opcode.ofCode?_eq_some_iff.mp operation)
  exact ⟨opcode, operand, by rw [same], smallOperand, same ▸ denotes⟩

/-- A text that no instruction denotes is not read as one. -/
theorem instruction?_eq_none (other : ∀ (opcode : Opcode) (operand : Nat), operand < 100 →
    ¬ Denotes text (100 * opcode.code + operand : Nat) 4) : instruction? text = none := by
  rw [Option.eq_none_iff_forall_ne_some]
  intro decoded reads
  obtain ⟨opcode, operand, _, small, denotes⟩ := exists_of_instruction? reads
  exact other opcode operand small denotes

/-! ## Canonical texts -/

theorem instruction?_text_of_isExecutable (executable : IsExecutable number) :
    instruction? (Decimal.text number) = some ⟨number / 100, number % 100⟩ := by
  obtain ⟨low, high, opcode, code⟩ := executable
  obtain ⟨operand, rest⟩ : ∃ operand : Nat, number % 100 = operand :=
    Int.eq_ofNat_of_zero_le (Int.emod_nonneg number (by decide))
  have smallOperand : operand < 100 := by omega
  have whole : number = (100 * opcode.code + operand : Nat) := by omega
  have four : Instruction.ofText? (Decimal.text number) = some ⟨opcode.code, operand⟩ := by
    rw [whole, ← Instruction.render_eq_text opcode.ten_le_code opcode.code_lt smallOperand]
    exact Instruction.ofText?_render opcode.code_lt smallOperand
  rw [instruction?, four, code, rest]
  simp [Option.filter, Instruction.operation?]

theorem instruction?_text_of_not_isExecutable (plain : ¬ IsExecutable number) :
    instruction? (Decimal.text number) = none := by
  apply instruction?_eq_none
  intro opcode operand small denotes
  have same : (100 * opcode.code + operand : Int) = number :=
    (denotes.unique (denotes_text number)).1
  exact plain (same ▸ isExecutable_of_code opcode small)

/-! ## What is decoded -/

theorem decode_of_instruction? {decoded : Instruction} (reads : instruction? text = some decoded) :
    decode text = .ok (.instruction decoded) := by
  simp only [decode, reads]

theorem decode_of_denotes {digits : Nat} (other : instruction? text = none)
    (denotes : Denotes text number digits) :
    decode text =
      if digits ≤ 4300 then .ok (.literal number) else .error (.limit (.numeral digits)) := by
  simp only [decode, other, isLiteral_iff.mpr ⟨_, _, denotes⟩, denotes.read_eq, if_true]
  rw [Decimal.digitLimit]
  by_cases short : digits ≤ 4300
  · simp only [if_pos short]
  · simp only [if_neg short]

theorem decode_of_not_denotes (neither : ¬ ∃ value digits, Denotes text value digits) :
    decode text = .error (.notWord text) := by
  have other : instruction? text = none :=
    instruction?_eq_none fun _ _ _ denotes => neither ⟨_, _, denotes⟩
  have plain : ¬ Decimal.isLiteral text = true := fun literal => neither (isLiteral_iff.mp literal)
  simp only [decode, other, if_neg plain]

/-- What a text is decoded to. -/
inductive Decoded (text : String) : Word → Prop where
  | instruction {opcode : Opcode} {operand : Nat}
      (reads : instruction? text = some ⟨opcode.code, operand⟩) (small : operand < 100)
      (denotes : Denotes text (100 * opcode.code + operand : Nat) 4) :
      Decoded text (.instruction ⟨opcode.code, operand⟩)
  | literal {number : Int} {digits : Nat} (other : instruction? text = none)
      (denotes : Denotes text number digits) (short : digits ≤ 4300) :
      Decoded text (.literal number)

theorem decoded_of_decode (decodes : decode text = .ok word) : Decoded text word := by
  cases reads : instruction? text with
  | some decoded =>
      rw [decode_of_instruction? reads] at decodes
      cases decodes
      obtain ⟨opcode, operand, rfl, small, denotes⟩ := exists_of_instruction? reads
      exact .instruction reads small denotes
  | none =>
      by_cases literal : ∃ number digits, Denotes text number digits
      · obtain ⟨number, digits, denotes⟩ := literal
        rw [decode_of_denotes reads denotes] at decodes
        split at decodes
        · next short =>
            cases decodes
            exact .literal reads denotes short
        · cases decodes
      · rw [decode_of_not_denotes literal] at decodes
        cases decodes

namespace Decoded

/-- A decoded word denotes what its text does, in few enough digits. -/
theorem exists_denotes (decoded : Decoded text word) :
    ∃ digits, Denotes text word.value digits ∧ digits ≤ 4300 := by
  cases decoded with
  | instruction _ _ denotes => exact ⟨4, denotes, by decide⟩
  | literal _ denotes short => exact ⟨_, denotes, short⟩

theorem writable (decoded : Decoded text word) : Decimal.Writable word.value := by
  obtain ⟨digits, denotes, short⟩ := decoded.exists_denotes
  refine Decimal.writable_of_read (isLiteral_iff.mpr ⟨_, _, denotes⟩) ?_
  rw [denotes.read_eq]
  exact if_pos short

/-- A decoded word is written as the canonical text of its integer. -/
theorem encode_eq (decoded : Decoded text word) : word.encode = Decimal.text word.value := by
  cases decoded with
  | instruction _ small _ =>
      exact Instruction.render_eq_text (Opcode.ten_le_code _) (Opcode.code_lt _) small
  | literal => rfl

end Decoded

/-- The canonical text of a number that can be written is decoded to the number,
or to the instruction that its digits are. -/
theorem decode_text (writable : Decimal.Writable number) :
    (IsExecutable number →
      decode (Decimal.text number) = .ok (.instruction ⟨number / 100, number % 100⟩)) ∧
    (¬ IsExecutable number → decode (Decimal.text number) = .ok (.literal number)) := by
  constructor
  · exact fun executable =>
      decode_of_instruction? (instruction?_text_of_isExecutable executable)
  · intro plain
    rw [decode_of_denotes (instruction?_text_of_not_isExecutable plain) (denotes_text number)]
    exact if_pos writable

/-! ## The value is kept -/

/-- How a word is shown in a listing, where its number can be written. -/
inductive Listed : Word → String → Prop where
  | halt (operand : Int) : Listed (.instruction ⟨Opcode.halt.code, operand⟩) "HALT"
  | operation {opcode : Opcode} (operand : Int) (other : opcode ≠ .halt) :
      Listed (.instruction ⟨opcode.code, operand⟩)
        (opcode.mnemonic ++ " " ++ Decimal.twoDigits operand)
  | literal {number : Int} {shown : String} (written : Decimal.write number = .ok shown) :
      Listed (.literal number) (".DATA " ++ shown)

theorem Decoded.listed (decoded : Decoded text word) : Listed word (disassemble text) := by
  have writable := decoded.writable
  cases decoded with
  | @instruction opcode operand reads _ _ =>
      have known : (Instruction.mk opcode.code operand).operation? = some opcode :=
        Opcode.ofCode?_code opcode
      simp only [disassemble, decode_of_instruction? reads, known]
      by_cases halt : opcode = .halt
      · subst halt
        exact .halt operand
      · cases opcode with
        | halt => exact absurd rfl halt
        | _ => exact .operation operand halt
  | @literal number _ other denotes short =>
      have written : Decimal.write number = .ok (Decimal.text number) := if_pos writable
      simp only [disassemble, decode_of_denotes other denotes, if_pos short]
      exact .literal written

/-- Decoding a text keeps the integer that it denotes. -/
structure KeepsValue (text : String) : Prop where
  accepts : (∃ word, decode text = .ok word) ↔
    ∃ number digits, Denotes text number digits ∧ digits ≤ 4300
  /-- The word is written as a canonical text of the same integer. -/
  encodes : ∀ word number digits, decode text = .ok word → Denotes text number digits →
    Decimal.isCanonical word.encode = true ∧
      ∃ count, Denotes word.encode number count ∧ count ≤ 4300
  /-- The word that was written is decoded to itself, unless it is a number that
  looks like an instruction. -/
  again : ∀ word, decode text = .ok word →
    (decode word.encode = .ok word ↔ ¬ ∃ number, word = .literal number ∧ IsExecutable number)
  /-- A number that looks like an instruction is decoded to this instruction. -/
  changes : ∀ number, decode text = .ok (.literal number) → IsExecutable number →
    decode (encode (.literal number)) = .ok (.instruction ⟨number / 100, number % 100⟩)
  notWord : (¬ ∃ number digits, Denotes text number digits) →
    decode text = .error (.notWord text)
  tooLong : ∀ number digits, Denotes text number digits → 4300 < digits →
    decode text = .error (.limit (.numeral digits))
  /-- A listing shows the word, or the text if there is none. -/
  listed : ∀ word, decode text = .ok word → Listed word (disassemble text)
  marked : ∀ error, decode text = .error error → disassemble text = "?? " ++ text

/-- Instructions are decoded to themselves again. -/
theorem Decoded.again (decoded : Decoded text word) :
    decode word.encode = .ok word ↔ ¬ ∃ number, word = .literal number ∧ IsExecutable number := by
  have settled := decode_text decoded.writable
  rw [← decoded.encode_eq] at settled
  cases decoded with
  | @instruction opcode operand _ small _ =>
      have code : (100 * opcode.code + operand : Int) / 100 = opcode.code := by omega
      have rest : (100 * opcode.code + operand : Int) % 100 = operand := by omega
      rw [settled.1 (isExecutable_of_code opcode small)]
      simp [value, code, rest]
  | @literal number digits other denotes short =>
      by_cases executable : IsExecutable number
      · rw [settled.1 executable]
        simp [executable]
      · rw [settled.2 executable]
        simp [executable, value]

theorem keepsValue (text : String) : KeepsValue text where
  accepts := by
    constructor
    · rintro ⟨word, decodes⟩
      exact ⟨word.value, (decoded_of_decode decodes).exists_denotes⟩
    · rintro ⟨number, digits, denotes, short⟩
      cases reads : instruction? text with
      | some decoded => exact ⟨_, decode_of_instruction? reads⟩
      | none => exact ⟨.literal number, by rw [decode_of_denotes reads denotes, if_pos short]⟩
  encodes := by
    intro word number digits decodes denotes
    have decoded := decoded_of_decode decodes
    obtain ⟨count, same, _⟩ := decoded.exists_denotes
    obtain ⟨rfl, rfl⟩ := denotes.unique same
    rw [decoded.encode_eq]
    exact ⟨Decimal.isCanonical_text _, _, denotes_text _, decoded.writable⟩
  again := fun word decodes => (decoded_of_decode decodes).again
  changes := by
    intro number decodes executable
    exact (decode_text (decoded_of_decode decodes).writable).1 executable
  notWord := decode_of_not_denotes
  tooLong := by
    intro number digits denotes long
    have other : instruction? text = none := by
      apply instruction?_eq_none
      intro opcode operand _ four
      have same := (denotes.unique four).2
      omega
    rw [decode_of_denotes other denotes, if_neg (Nat.not_le_of_lt long)]
  listed := fun word decodes => (decoded_of_decode decodes).listed
  marked := by
    intro error failed
    simp only [disassemble, failed]

example : decode "02007\n" = .ok (.literal 2007) := by decide +kernel

end Word

end DecimalMachine
