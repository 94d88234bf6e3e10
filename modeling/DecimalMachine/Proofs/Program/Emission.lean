import DecimalMachine.Proofs.Program.Layout
import DecimalMachine.Program.Emission

/-!
# Code of emitted lines

The code of lines is the code of each of them, one after the other.  A line
takes as many instructions as it was laid out with, its operands fit its
operations, and every variable that it works on is declared by a line above it.
-/

namespace DecimalMachine.Program

variable {labels : Table Nat} {symbols next final : SymbolTable} {marked : Marked}
  {code : List Emitted}

/-- What a line emits, given the labels of its program and the variables above
it, and the variables below it. -/
inductive Emits (labels : Table Nat) (symbols : SymbolTable) (marked : Marked) :
    List Emitted → SymbolTable → Prop where
  /-- Blank lines, comments and labels emit nothing. -/
  | silent (undeclared : marked.line.form.declares? = none)
      (uncommanded : ∀ command operand, marked.line.form ≠ .instruction command operand) :
      Emits labels symbols marked [] symbols
  | literal {name : String} {value : Int} (form : marked.line.form = .variable name value)
      (fresh : symbols.find? name = none) :
      Emits labels symbols marked []
        (symbols.add name marked.line.location ⟨Decimal.text value, none⟩)
  | dropped {name first : String} {rest : List (Sign × String)}
      (form : marked.line.form = .expression name first rest) (kept : marked.kept = false) :
      Emits labels symbols marked [] symbols
  | lowered {name first : String} {rest : List (Sign × String)}
      (form : marked.line.form = .expression name first rest) (kept : marked.kept = true)
      (known : ∀ term ∈ Form.terms first rest, ∃ entry, symbols.find? term = some entry)
      (fresh : symbols.find? name = none) :
      Emits labels symbols marked (lower name first rest)
        (symbols.add name marked.line.location ⟨expressionSeed, none⟩)
  | halt {command : String} (form : marked.line.form = .instruction command none)
      (opcode : Opcode.ofMnemonic? command = some .halt) :
      Emits labels symbols marked [.halt] symbols
  | branch {command operand : String} {opcode : Opcode} {entry : Entry Nat}
      (form : marked.line.form = .instruction command (some operand))
      (mnemonic : Opcode.ofMnemonic? command = some opcode) (branch : opcode.isBranch = true)
      (label : labels.find? (.ofList (operand.toList.drop 1)) = some entry) :
      Emits labels symbols marked [⟨opcode, .target entry.value⟩] symbols
  | access {command operand : String} {opcode : Opcode} {entry : Entry Variable}
      (form : marked.line.form = .instruction command (some operand))
      (mnemonic : Opcode.ofMnemonic? command = some opcode) (branch : opcode.isBranch = false)
      (halt : opcode ≠ .halt) (known : symbols.find? operand = some entry) :
      Emits labels symbols marked [.access opcode operand] symbols

/-- The operand that refers to a label. -/
def labelOperand (name : String) : String :=
  .ofList (Form.labelMark :: name.toList)

theorem isLabelOperand_labelOperand (name : String) :
    Form.isLabelOperand (labelOperand name) = true := by
  simp [Form.isLabelOperand, labelOperand]

theorem drop_labelOperand (name : String) : (labelOperand name).toList.drop 1 = name.toList := by
  simp [labelOperand]

theorem exists_eq_labelOperand {operand : String} (marked : Form.isLabelOperand operand = true) :
    ∃ name, operand = labelOperand name := by
  refine ⟨.ofList (operand.toList.drop 1), ?_⟩
  simp only [Form.isLabelOperand, decide_eq_true_eq] at marked
  apply String.toList_injective
  cases characters : operand.toList with
  | nil =>
      rw [characters] at marked
      cases marked
  | cons first rest =>
      rw [characters] at marked
      cases marked
      simp [labelOperand]

/-- The operand of a branch is an identifier behind a mark, and the label is
declared. -/
theorem branchOperand_eq_ok_iff {line : Line} {command operand : String} {result : Operand} :
    branchOperand labels line command operand = .ok result ↔
      ∃ name entry, operand = labelOperand name ∧ Text.isNameShape name.toList = true ∧
        labels.find? name = some entry ∧ result = .target entry.value := by
  constructor
  · intro resolved
    simp only [branchOperand] at resolved
    split at resolved
    · cases resolved
    split at resolved
    · cases resolved
    split at resolved
    · cases resolved
    next unmarked empty identifier =>
      obtain ⟨entry, found, resolved⟩ := bind_eq_ok_iff.mp resolved
      cases resolved
      obtain ⟨name, rfl⟩ := exists_eq_labelOperand (by simpa using unmarked)
      rw [drop_labelOperand] at identifier found
      rw [String.ofList_toList] at found
      exact ⟨name, entry, rfl, by simpa using identifier, Table.resolve_eq_ok_iff.mp found, rfl⟩
  · rintro ⟨name, entry, rfl, identifier, found, rfl⟩
    have nonempty : name.toList.isEmpty = false := by
      cases characters : name.toList with
      | nil =>
          rw [characters] at identifier
          cases identifier
      | cons => rfl
    have resolve : labels.resolve .label name (some line.location) (some line.text) = .ok entry :=
      Table.resolve_eq_ok_iff.mpr found
    simp only [branchOperand, isLabelOperand_labelOperand, drop_labelOperand, identifier, nonempty,
      String.ofList_toList, resolve]
    rfl

/-- A branch is emitted with the instruction that it goes to. -/
theorem emitCommand_of_isBranch {line : Line} {command operand : String} {opcode : Opcode}
    (mnemonic : Opcode.ofMnemonic? command = some opcode) (branch : opcode.isBranch = true) :
    emitCommand labels symbols line command (some operand) =
      (Emitted.mk opcode ·) <$> branchOperand labels line command operand := by
  unfold emitCommand
  rw [mnemonic]
  cases opcode with
  | branch | branchNeg | branchZero => rfl
  | _ => cases branch

/-- An operation on a variable is emitted with the variable, which has to be
declared. -/
theorem emitCommand_of_not_isBranch {line : Line} {command operand : String} {opcode : Opcode}
    (mnemonic : Opcode.ofMnemonic? command = some opcode) (branch : opcode.isBranch = false)
    (halt : opcode ≠ .halt) :
    emitCommand labels symbols line command (some operand) =
      if Form.isLabelOperand operand then
        .error (Line.complain line.text line.location (.malformed (.labelForVariable command)))
      else
        symbols.resolve .variable operand line.location line.text >>= fun entry =>
          pure (.access opcode entry.name) := by
  unfold emitCommand
  rw [mnemonic]
  cases opcode with
  | halt => exact absurd rfl halt
  | branch | branchNeg | branchZero => cases branch
  | _ => rfl

theorem emits_of_emitCommand {command : String} {operand : Option String} {emitted : Emitted}
    (form : marked.line.form = .instruction command operand)
    (emit : emitCommand labels symbols marked.line command operand = .ok emitted) :
    Emits labels symbols marked [emitted] symbols := by
  unfold emitCommand at emit
  simp only at emit
  split at emit
  · cases emit
  · next mnemonic =>
      cases emit
      exact .halt form mnemonic
  · cases emit
  · cases emit
  · next operation operand notHalt mnemonic =>
      split at emit
      · next branch =>
          obtain ⟨target, resolved, rfl⟩ := map_eq_ok_iff.mp emit
          obtain ⟨name, entry, rfl, _, label, rfl⟩ := branchOperand_eq_ok_iff.mp resolved
          refine .branch form mnemonic branch ?_
          rwa [drop_labelOperand, String.ofList_toList]
      · next branch =>
          split at emit
          · cases emit
          · obtain ⟨entry, found, emit⟩ := bind_eq_ok_iff.mp emit
            have known := Table.resolve_eq_ok_iff.mp found
            cases emit
            rw [Table.name_of_find? known]
            exact .access form mnemonic (by simpa using branch) (by simpa using notHalt) known

theorem emits_of_emitLine (emit : emitLine labels symbols marked = .ok (code, next)) :
    Emits labels symbols marked code next := by
  unfold emitLine at emit
  simp only at emit
  split at emit
  · next name value form =>
      obtain ⟨declared, declare, emit⟩ := bind_eq_ok_iff.mp emit
      obtain ⟨fresh, rfl⟩ := Table.declare_eq_ok_iff.mp declare
      cases emit
      exact .literal form fresh
  · next name first rest form =>
      split at emit
      · next kept =>
          obtain ⟨entries, resolved, emit⟩ := bind_eq_ok_iff.mp emit
          obtain ⟨declared, declare, emit⟩ := bind_eq_ok_iff.mp emit
          obtain ⟨fresh, rfl⟩ := Table.declare_eq_ok_iff.mp declare
          cases emit
          refine .lowered form kept ?_ fresh
          intro term member
          obtain ⟨entry, found⟩ := exists_mapM_eq_ok_iff.mp ⟨entries, resolved⟩ term member
          exact ⟨entry, Table.resolve_eq_ok_iff.mp found⟩
      · next kept =>
          cases emit
          exact .dropped form (by simpa using kept)
  · next command operand form =>
      obtain ⟨emitted, emitCommand, emit⟩ := bind_eq_ok_iff.mp emit
      cases emit
      exact emits_of_emitCommand form emitCommand
  · next declarations expressions instructions =>
      cases emit
      refine .silent ?_ instructions
      cases form : marked.line.form with
      | «variable» name value => exact absurd form (declarations name value)
      | expression name first rest => exact absurd form (expressions name first rest)
      | _ => rfl

theorem emit_cons_eq_ok_iff {below : List Marked} :
    emit labels symbols (marked :: below) = .ok (code, final) ↔
      ∃ head next tail, emitLine labels symbols marked = .ok (head, next) ∧
        emit labels next below = .ok (tail, final) ∧ head ++ tail = code := by
  rw [emit, bind_eq_ok_iff]
  constructor
  · rintro ⟨⟨head, next⟩, line, emitted⟩
    obtain ⟨⟨tail, last⟩, rest, emitted⟩ := bind_eq_ok_iff.mp emitted
    cases emitted
    exact ⟨head, next, tail, line, rest, rfl⟩
  · rintro ⟨head, next, tail, line, rest, rfl⟩
    exact ⟨(head, next), line, bind_eq_ok_iff.mpr ⟨(tail, final), rest, rfl⟩⟩

theorem emit_cons_eq_ok {below : List Marked}
    (emitted : emit labels symbols (marked :: below) = .ok (code, final)) :
    ∃ head tail next, Emits labels symbols marked head next ∧
      emit labels next below = .ok (tail, final) ∧ code = head ++ tail := by
  obtain ⟨head, next, tail, line, rest, rfl⟩ := emit_cons_eq_ok_iff.mp emitted
  exact ⟨head, tail, next, emits_of_emitLine line, rest, rfl⟩

/-- The code of lines comes in two parts wherever they are cut. -/
theorem emit_append (above below : List Marked) :
    emit labels symbols (above ++ below) = emit labels symbols above >>= fun first =>
      emit labels first.2 below >>= fun second => pure (first.1 ++ second.1, second.2) := by
  induction above generalizing symbols with
  | nil => cases rest : emit labels symbols below <;> simp [emit, rest, bind, Except.bind, pure,
      Except.pure]
  | cons marked above ih =>
      simp only [List.cons_append, emit, ih, bind_assoc, pure_bind, List.append_assoc]

theorem emit_append_eq_ok {above below : List Marked}
    (emitted : emit labels symbols (above ++ below) = .ok (code, final)) :
    ∃ head tail next, emit labels symbols above = .ok (head, next) ∧
      emit labels next below = .ok (tail, final) ∧ code = head ++ tail := by
  simp only [emit_append, bind_eq_ok_iff] at emitted
  obtain ⟨⟨head, next⟩, aboveOk, ⟨tail, last⟩, belowOk, whole⟩ := emitted
  cases whole
  exact ⟨head, tail, next, aboveOk, belowOk, rfl⟩

/-! ## Sizes -/

theorem length_chain (target running : String) (rest : List (Sign × String)) :
    (chain target running rest).length = 3 * rest.length := by
  induction rest generalizing running with
  | nil => rfl
  | cons term rest ih =>
      simp only [chain, List.length_cons, ih]
      omega

theorem length_lower (target first : String) (rest : List (Sign × String)) :
    (lower target first rest).length = expressionSize rest := by
  unfold lower expressionSize
  split
  · rfl
  · exact length_chain target first rest

theorem expressionSize_cons (term : Sign × String) (rest : List (Sign × String)) :
    expressionSize (term :: rest) = 3 + 3 * rest.length := by
  rw [expressionSize, if_neg (by simp), List.length_cons, Nat.mul_succ, Nat.add_comm]

/-- A line emits as many instructions as it was laid out with. -/
theorem Emits.length_eq (emits : Emits labels symbols marked code next) :
    code.length = marked.size := by
  cases emits with
  | silent undeclared uncommanded =>
      unfold Marked.size
      split
      · next form => simp [form, Form.declares?] at undeclared
      · next form => exact absurd form (uncommanded _ _)
      · rfl
  | literal form => simp [Marked.size, form]
  | dropped form kept => simp [Marked.size, form, kept]
  | lowered form kept => simp [Marked.size, form, kept, length_lower]
  | halt form | branch form | access form => simp [Marked.size, form]

theorem length_of_emit {lines : List Marked}
    (emitted : emit labels symbols lines = .ok (code, final)) : code.length = wordCount lines := by
  induction lines generalizing symbols code with
  | nil =>
      cases emitted
      rfl
  | cons marked below ih =>
      obtain ⟨head, tail, next, emits, rest, rfl⟩ := emit_cons_eq_ok emitted
      rw [List.length_append, emits.length_eq, ih rest, wordCount_cons]

/-! ## Variables -/

/-- Declared variables stay declared. -/
theorem Emits.find?_next (emits : Emits labels symbols marked code next) {name : String}
    {entry : Entry Variable} (known : symbols.find? name = some entry) :
    next.find? name = some entry := by
  cases emits <;> simp [Table.find?_add, known]

theorem find?_of_emit {lines : List Marked}
    (emitted : emit labels symbols lines = .ok (code, final)) {name : String}
    {entry : Entry Variable} (known : symbols.find? name = some entry) :
    final.find? name = some entry := by
  induction lines generalizing symbols code with
  | nil =>
      cases emitted
      exact known
  | cons marked below ih =>
      obtain ⟨head, tail, next, emits, rest, _⟩ := emit_cons_eq_ok emitted
      exact ih rest (emits.find?_next known)

/-- The variables that an expression works on are its terms and its target. -/
theorem mem_of_mem_chain {target running : String} {rest : List (Sign × String)}
    {emitted : Emitted} (member : emitted ∈ chain target running rest) :
    ∃ opcode name, emitted = .access opcode name ∧ opcode.isBranch = false ∧ opcode ≠ .halt ∧
      (name = target ∨ name ∈ Form.terms running rest) := by
  induction rest generalizing running with
  | nil => cases member
  | cons term rest ih =>
      obtain ⟨sign, name⟩ := term
      simp only [chain, List.mem_cons] at member
      rcases member with rfl | rfl | rfl | member
      · exact ⟨.load, running, rfl, rfl, by decide, .inr List.mem_cons_self⟩
      · refine ⟨signOpcode sign, name, rfl, ?_, ?_, .inr (by simp [Form.terms])⟩
        · cases sign <;> rfl
        · cases sign <;> decide
      · exact ⟨.store, target, rfl, rfl, by decide, .inl rfl⟩
      · obtain ⟨opcode, other, shape, branch, halt, place⟩ := ih member
        refine ⟨opcode, other, shape, branch, halt, ?_⟩
        simp only [Form.terms, List.mem_cons, List.map_cons] at place ⊢
        rcases place with place | place | place
        · exact .inl place
        · exact .inl place
        · exact .inr (.inr (.inr place))

theorem mem_of_mem_lower {target first : String} {rest : List (Sign × String)}
    {emitted : Emitted} (member : emitted ∈ lower target first rest) :
    ∃ opcode name, emitted = .access opcode name ∧ opcode.isBranch = false ∧ opcode ≠ .halt ∧
      (name = target ∨ name ∈ Form.terms first rest) := by
  unfold lower at member
  split at member
  · simp only [List.mem_cons, List.not_mem_nil, or_false] at member
    rcases member with rfl | rfl
    · exact ⟨.load, first, rfl, rfl, by decide, .inr List.mem_cons_self⟩
    · exact ⟨.store, target, rfl, rfl, by decide, .inl rfl⟩
  · exact mem_of_mem_chain member

/-- An operand fits an operation: a halt has none, a branch goes to an
instruction of the program, and every other operation works on a variable. -/
def Emitted.Fits (size : Nat) (emitted : Emitted) : Prop :=
  match emitted.operand with
  | .absent => emitted.opcode = .halt
  | .target index => emitted.opcode.isBranch = true ∧ index < size
  | .variable _ => emitted.opcode.isBranch = false ∧ emitted.opcode ≠ .halt

theorem Emits.fits {size : Nat} (bounded : ∀ name entry, labels.find? name = some entry →
      entry.value < size) (emits : Emits labels symbols marked code next) {emitted : Emitted}
    (member : emitted ∈ code) : emitted.Fits size := by
  cases emits with
  | silent | literal | dropped => cases member
  | lowered =>
      obtain ⟨opcode, name, rfl, branch, halt, _⟩ := mem_of_mem_lower member
      exact ⟨branch, halt⟩
  | halt =>
      cases List.mem_singleton.mp member
      rfl
  | branch form mnemonic branch label =>
      cases List.mem_singleton.mp member
      exact ⟨branch, bounded _ _ label⟩
  | access form mnemonic branch halt =>
      cases List.mem_singleton.mp member
      exact ⟨branch, halt⟩

/-- A line works on variables that are declared by it or above it. -/
theorem Emits.known (emits : Emits labels symbols marked code next) {emitted : Emitted}
    (member : emitted ∈ code) {name : String} (accessed : emitted.accessed? = some name) :
    ∃ entry, next.find? name = some entry := by
  cases emits with
  | silent | literal | dropped => cases member
  | @lowered target first rest _ _ known fresh =>
      obtain ⟨opcode, other, rfl, _, _, place⟩ := mem_of_mem_lower member
      cases accessed
      rcases place with rfl | place
      · exact ⟨_, by rw [Table.find?_add, fresh, if_pos rfl]; rfl⟩
      · obtain ⟨entry, found⟩ := known _ place
        exact ⟨entry, by simp [Table.find?_add, found]⟩
  | halt | branch =>
      cases List.mem_singleton.mp member
      cases accessed
  | access form mnemonic branch halt known =>
      cases List.mem_singleton.mp member
      cases accessed
      exact ⟨_, known⟩

theorem fits_of_emit {size : Nat} (bounded : ∀ name entry, labels.find? name = some entry →
      entry.value < size) {lines : List Marked}
    (emitted : emit labels symbols lines = .ok (code, final)) {instruction : Emitted}
    (member : instruction ∈ code) : instruction.Fits size := by
  induction lines generalizing symbols code with
  | nil =>
      cases emitted
      cases member
  | cons marked below ih =>
      obtain ⟨head, tail, next, emits, rest, rfl⟩ := emit_cons_eq_ok emitted
      rcases List.mem_append.mp member with member | member
      · exact emits.fits bounded member
      · exact ih rest member

theorem known_of_emit {lines : List Marked}
    (emitted : emit labels symbols lines = .ok (code, final)) {instruction : Emitted}
    (member : instruction ∈ code) {name : String} (accessed : instruction.accessed? = some name) :
    ∃ entry, final.find? name = some entry := by
  induction lines generalizing symbols code with
  | nil =>
      cases emitted
      cases member
  | cons marked below ih =>
      obtain ⟨head, tail, next, emits, rest, rfl⟩ := emit_cons_eq_ok emitted
      rcases List.mem_append.mp member with member | member
      · obtain ⟨entry, found⟩ := emits.known member accessed
        exact ⟨entry, find?_of_emit rest found⟩
      · exact ih rest member

end DecimalMachine.Program
