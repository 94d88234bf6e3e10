import DecimalMachine.Proofs.Decimal.Canonical
import DecimalMachine.Word.Instruction

/-!
# Rendered instruction words

An operation code or an operand below one hundred takes exactly two digits, so
an instruction made of two such numbers is written as a word that decodes to
itself.
-/

namespace DecimalMachine

namespace Decimal

/-- A number below one hundred is shown by its tens and its ones. -/
theorem toList_twoDigits {n : Nat} (small : n < 100) :
    (twoDigits n).toList = [(n / 10).digitChar, (n % 10).digitChar] := by
  rw [twoDigits, String.toList_ofList]
  change padLeft '0' 2 (Nat.toDigits 10 n) = _
  by_cases single : n < 10
  · rw [Nat.toDigits_of_lt_base single, Nat.div_eq_of_lt single, Nat.mod_eq_of_lt single]
    rfl
  · have tens : n / 10 < 10 := by omega
    rw [Nat.toDigits_of_base_le (by decide) (by omega), Nat.toDigits_of_lt_base tens]
    rfl

theorem ofDigits_tens_ones {n : Nat} (small : n < 100) :
    ofDigits [(n / 10).digitChar, (n % 10).digitChar] = n := by
  have tens : n / 10 < 10 := by omega
  have ones : n % 10 < 10 := by omega
  rw [ofDigits, Nat.ofDigitChars_cons_digitChar_of_lt_ten tens,
    Nat.ofDigitChars_cons_digitChar_of_lt_ten ones, Nat.ofDigitChars_nil]
  omega

end Decimal

namespace Instruction

variable {opcode operand : Nat}

theorem toList_render (smallCode : opcode < 100) (smallOperand : operand < 100) :
    (render ⟨opcode, operand⟩).toList =
      [(opcode / 10).digitChar, (opcode % 10).digitChar,
        (operand / 10).digitChar, (operand % 10).digitChar] := by
  rw [render, String.toList_append, Decimal.toList_twoDigits smallCode,
    Decimal.toList_twoDigits smallOperand]
  rfl

theorem isDigit_of_mem_render (smallCode : opcode < 100) (smallOperand : operand < 100) {c : Char}
    (member : c ∈ (render ⟨opcode, operand⟩).toList) : c.isDigit = true := by
  rw [toList_render smallCode smallOperand] at member
  simp only [List.mem_cons, List.not_mem_nil, or_false] at member
  rcases member with rfl | rfl | rfl | rfl <;> simp <;> omega

/-- A word of two-digit numbers decodes to the instruction it was made of. -/
theorem ofText?_render (smallCode : opcode < 100) (smallOperand : operand < 100) :
    ofText? (render ⟨opcode, operand⟩) = some ⟨opcode, operand⟩ := by
  have unended : Text.dropFinalNewline (render ⟨opcode, operand⟩).toList =
      (render ⟨opcode, operand⟩).toList := by
    apply Text.dropFinalNewline_eq_self
    intro c member newline
    subst newline
    exact absurd (isDigit_of_mem_render smallCode smallOperand member) (by decide)
  have digits := fun c => isDigit_of_mem_render (c := c) smallCode smallOperand
  rw [ofText?, unended]
  rw [toList_render smallCode smallOperand] at digits ⊢
  rw [ofChars?, if_pos (List.all_eq_true.mpr digits), Decimal.ofDigits_tens_ones smallCode,
    Decimal.ofDigits_tens_ones smallOperand]

theorem render_ne_empty (smallCode : opcode < 100) (smallOperand : operand < 100) :
    render ⟨opcode, operand⟩ ≠ "" := by
  intro empty
  have nil := toList_render smallCode smallOperand
  rw [empty] at nil
  simp at nil

end Instruction

theorem Opcode.code_lt (opcode : Opcode) : opcode.code < 100 := by
  cases opcode <;> decide

end DecimalMachine
