import DecimalMachine.Proofs.Program.Emission

/-!
# What lines require

Lines are emitted if and only if every line that is kept can be where it stands:
its terms and its operand are declared above it, the label of a branch is
declared anywhere, and no name is declared twice.
-/

namespace DecimalMachine

theorem Opcode.ofMnemonic?_mnemonic (opcode : Opcode) :
    Opcode.ofMnemonic? opcode.mnemonic = some opcode := by
  cases opcode <;> rfl

theorem Opcode.ofMnemonic?_eq_some_iff {text : String} {opcode : Opcode} :
    Opcode.ofMnemonic? text = some opcode ↔ text = opcode.mnemonic := by
  constructor
  · intro found
    have agrees := List.find?_some (show Opcode.all.find? _ = some opcode from found)
    exact (eq_of_beq agrees).symm
  · rintro rfl
    exact ofMnemonic?_mnemonic opcode

theorem Opcode.ofMnemonic?_eq_none_iff {text : String} :
    Opcode.ofMnemonic? text = none ↔ ∀ opcode : Opcode, text ≠ opcode.mnemonic := by
  simp only [Option.eq_none_iff_forall_ne_some, Ne, ofMnemonic?_eq_some_iff]

namespace Program

/-! ## Commands -/

/-- The commands that can be emitted, each with its operand, where some labels
and variables are declared. -/
inductive Command (labels known : List String) : String → Option String → Prop where
  | halt : Command labels known Opcode.halt.mnemonic none
  | branch {opcode : Opcode} {name : String} (branches : opcode.isBranch = true)
      (identifier : Text.isNameShape name.toList = true) (declared : name ∈ labels) :
      Command labels known opcode.mnemonic (some (labelOperand name))
  | access {opcode : Opcode} {name : String} (branches : opcode.isBranch = false)
      (halts : opcode ≠ .halt) (unmarked : Form.isLabelOperand name = false)
      (declared : name ∈ known) :
      Command labels known opcode.mnemonic (some name)

/-- The operands that refer to labels are those of branches. -/
theorem Command.isLabelOperand_eq {labels known : List String} {text operand : String}
    {opcode : Opcode} (command : Command labels known text (some operand))
    (mnemonic : Opcode.ofMnemonic? text = some opcode) :
    Form.isLabelOperand operand = opcode.isBranch := by
  cases command with
  | branch branches identifier declared =>
      rw [Opcode.ofMnemonic?_mnemonic] at mnemonic
      cases mnemonic
      rw [branches, isLabelOperand_labelOperand]
  | access branches halts unmarked declared =>
      rw [Opcode.ofMnemonic?_mnemonic] at mnemonic
      cases mnemonic
      rw [branches, unmarked]

/-- A command is left as it is by other variables, as long as its operand is
among them. -/
theorem Command.imp {labels known others : List String} {text : String}
    {operand : Option String} (command : Command labels known text operand)
    (include_ : ∀ name, operand = some name → Form.isLabelOperand name = false → name ∈ known →
      name ∈ others) : Command labels others text operand := by
  cases command with
  | halt => exact .halt
  | branch branches identifier declared => exact .branch branches identifier declared
  | access branches halts unmarked declared =>
      exact .access branches halts unmarked (include_ _ rfl unmarked declared)

section Emission

variable {labels : Table Nat} {symbols next final : SymbolTable} {marked : Marked}
  {line : Line} {command : String} {code : List Emitted}

theorem exists_emitCommand_iff {operand : Option String} :
    (∃ emitted, emitCommand labels symbols line command operand = .ok emitted) ↔
      Command labels.names symbols.names command operand := by
  constructor
  · rintro ⟨emitted, emit⟩
    unfold emitCommand at emit
    simp only at emit
    split at emit
    · cases emit
    · next mnemonic =>
        rw [Opcode.ofMnemonic?_eq_some_iff.mp mnemonic]
        exact .halt
    · cases emit
    · cases emit
    · next opcode operand notHalt mnemonic =>
        rw [Opcode.ofMnemonic?_eq_some_iff.mp mnemonic]
        split at emit
        · next branches =>
            obtain ⟨target, resolved, _⟩ := map_eq_ok_iff.mp emit
            obtain ⟨name, entry, rfl, identifier, found, _⟩ := branchOperand_eq_ok_iff.mp resolved
            exact .branch branches identifier (Table.exists_find?_iff.mp ⟨entry, found⟩)
        · next branches =>
            split at emit
            · cases emit
            · next unmarked =>
                obtain ⟨entry, found, _⟩ := bind_eq_ok_iff.mp emit
                exact .access (by simpa using branches) (by simpa using notHalt)
                  (by simpa using unmarked)
                  (Table.exists_find?_iff.mp ⟨entry, Table.resolve_eq_ok_iff.mp found⟩)
  · intro command
    cases command with
    | halt => exact ⟨.halt, rfl⟩
    | @branch opcode name branches identifier declared =>
        obtain ⟨entry, found⟩ := Table.exists_find?_iff.mpr declared
        have resolved : branchOperand labels line opcode.mnemonic (labelOperand name) =
            .ok (.target entry.value) :=
          branchOperand_eq_ok_iff.mpr ⟨name, entry, rfl, identifier, found, rfl⟩
        refine ⟨⟨opcode, .target entry.value⟩, ?_⟩
        cases opcode with
        | branch | branchNeg | branchZero =>
            simp [emitCommand, Opcode.ofMnemonic?_mnemonic, Opcode.isBranch, resolved,
              Functor.map, Except.map]
        | _ => cases branches
    | @access opcode name branches halts unmarked declared =>
        obtain ⟨entry, found⟩ := Table.exists_find?_iff.mpr declared
        have resolved : symbols.resolve .variable name (some line.location) (some line.text) =
            .ok entry := Table.resolve_eq_ok_iff.mpr found
        refine ⟨.access opcode entry.name, ?_⟩
        unfold emitCommand
        rw [Opcode.ofMnemonic?_mnemonic]
        cases opcode with
        | halt => exact absurd rfl halts
        | branch | branchNeg | branchZero => cases branches
        | _ =>
            simp [Opcode.isBranch, unmarked, resolved, bind, Except.bind, pure, Except.pure]

/-! ## Lines -/

/-- The variable that a line declares below it, where it is kept. -/
def Marked.introduces? (marked : Marked) : Option String :=
  match marked.line.form with
  | .variable name _ => some name
  | .expression name _ _ => if marked.kept then some name else none
  | _ => none

/-- The names of the variables that lines declare below them. -/
def introducedNames (lines : List Marked) : List String :=
  lines.filterMap Marked.introduces?

theorem introduces?_subset {marked : Marked} {name : String}
    (introduces : marked.introduces? = some name) : marked.line.form.declares? = some name := by
  unfold Marked.introduces? at introduces
  split at introduces
  · next form => simpa [form, Form.declares?] using introduces
  · next form =>
      split at introduces
      · simpa [form, Form.declares?] using introduces
      · cases introduces
  · cases introduces

/-- What a line needs to be emitted below some variables. -/
structure Emittable (labels known : List String) (marked : Marked) : Prop where
  fresh : ∀ name, marked.introduces? = some name → name ∉ known
  terms : ∀ name first rest, marked.line.form = .expression name first rest →
    marked.kept = true → ∀ term ∈ Form.terms first rest, term ∈ known
  command : ∀ command operand, marked.line.form = .instruction command operand →
    Command labels known command operand

theorem exists_declare_iff {name value : String} {location : Location}
    {sourceLine : Option String} :
    (∃ next, SymbolTable.declare symbols name value location sourceLine = .ok next) ↔
      name ∉ symbols.names := by
  simp only [SymbolTable.declare, Table.declare_eq_ok_iff, Table.find?_eq_none_iff]
  exact ⟨fun ⟨_, fresh, _⟩ => fresh, fun fresh => ⟨_, fresh, rfl⟩⟩

/-- The terms of an expression are declared. -/
theorem exists_resolved_iff {terms : List String} {location : Option Location}
    {sourceLine : Option String} :
    (∃ entries, (terms.mapM fun term =>
        symbols.resolve .variable term location sourceLine) = .ok entries) ↔
      ∀ term ∈ terms, term ∈ symbols.names := by
  rw [exists_mapM_eq_ok_iff]
  simp only [Table.resolve_eq_ok_iff, Table.exists_find?_iff]

theorem exists_emitLine_iff :
    (∃ code next, emitLine labels symbols marked = .ok (code, next)) ↔
      Emittable labels.names symbols.names marked := by
  obtain ⟨⟨form, text, location⟩, kept⟩ := marked
  constructor
  · rintro ⟨code, next, emit⟩
    cases form with
    | blank | comment | label => exact ⟨by rintro _ ⟨⟩, by rintro _ _ _ ⟨⟩, by rintro _ _ ⟨⟩⟩
    | «variable» name value =>
        obtain ⟨declared, declare, _⟩ := bind_eq_ok_iff.mp emit
        refine ⟨?_, by rintro _ _ _ ⟨⟩, by rintro _ _ ⟨⟩⟩
        rintro _ ⟨⟩
        exact exists_declare_iff.mp ⟨declared, declare⟩
    | expression name first rest =>
        refine ⟨?_, ?_, by rintro _ _ ⟨⟩⟩
        · intro other introduced
          cases kept with
          | false => cases introduced
          | true =>
              cases introduced
              obtain ⟨_, _, emit⟩ := bind_eq_ok_iff.mp emit
              obtain ⟨declared, declare, _⟩ := bind_eq_ok_iff.mp emit
              exact exists_declare_iff.mp ⟨declared, declare⟩
        · rintro _ _ _ ⟨⟩ ⟨⟩
          obtain ⟨entries, resolved, _⟩ := bind_eq_ok_iff.mp emit
          exact exists_resolved_iff.mp ⟨entries, resolved⟩
    | instruction command operand =>
        obtain ⟨emitted, emit, _⟩ := bind_eq_ok_iff.mp emit
        refine ⟨by rintro _ ⟨⟩, by rintro _ _ _ ⟨⟩, ?_⟩
        rintro _ _ ⟨⟩
        exact exists_emitCommand_iff.mp ⟨emitted, emit⟩
  · intro emittable
    cases form with
    | blank | comment | label => exact ⟨_, _, rfl⟩
    | «variable» name value =>
        obtain ⟨declared, declare⟩ := exists_declare_iff.mpr (emittable.fresh name rfl)
        exact ⟨_, _, bind_eq_ok_iff.mpr ⟨declared, declare, rfl⟩⟩
    | expression name first rest =>
        cases kept with
        | false => exact ⟨_, _, rfl⟩
        | true =>
            obtain ⟨entries, resolved⟩ :=
              exists_resolved_iff.mpr (emittable.terms name first rest rfl rfl)
            obtain ⟨declared, declare⟩ := exists_declare_iff.mpr (emittable.fresh name rfl)
            exact ⟨_, _, bind_eq_ok_iff.mpr ⟨entries, resolved,
              bind_eq_ok_iff.mpr ⟨declared, declare, rfl⟩⟩⟩
    | instruction command operand =>
        obtain ⟨emitted, emit⟩ := exists_emitCommand_iff.mpr (emittable.command command operand rfl)
        exact ⟨_, _, bind_eq_ok_iff.mpr ⟨emitted, emit, rfl⟩⟩

/-- A line adds the variable that it declares to those above it. -/
theorem Emits.names_eq (emits : Emits labels symbols marked code next) :
    next.names = symbols.names ++ marked.introduces?.toList := by
  cases emits with
  | silent undeclared =>
      have nothing : marked.introduces? = none := by
        unfold Marked.introduces?
        split
        · next form => simp [form, Form.declares?] at undeclared
        · next form => simp [form, Form.declares?] at undeclared
        · rfl
      simp [nothing]
  | literal form => simp [Marked.introduces?, form, Table.names_add]
  | dropped form kept => simp [Marked.introduces?, form, kept]
  | lowered form kept => simp [Marked.introduces?, form, kept, Table.names_add]
  | halt form | branch form | access form => simp [Marked.introduces?, form]

theorem introducedNames_cons (marked : Marked) (lines : List Marked) :
    introducedNames (marked :: lines) = marked.introduces?.toList ++ introducedNames lines := by
  cases introduces : marked.introduces? <;> simp [introducedNames, introduces]

theorem names_of_emit (emitted : emit labels symbols lines = .ok (code, final)) :
    final.names = symbols.names ++ introducedNames lines := by
  induction lines generalizing symbols code with
  | nil =>
      cases emitted
      simp [introducedNames]
  | cons marked below ih =>
      obtain ⟨head, tail, next, emits, rest, _⟩ := emit_cons_eq_ok emitted
      rw [ih rest, emits.names_eq, introducedNames_cons, List.append_assoc]

/-- Lines are emitted if and only if each of them can be where it stands. -/
theorem exists_emit_iff {lines : List Marked} :
    (∃ code final, emit labels symbols lines = .ok (code, final)) ↔
      ∀ index marked, lines[index]? = some marked →
        Emittable labels.names (symbols.names ++ introducedNames (lines.take index)) marked := by
  induction lines generalizing symbols with
  | nil => simp [emit]
  | cons first below ih =>
      have above : ∀ {head next}, emitLine labels symbols first = .ok (head, next) →
          ∀ index, next.names ++ introducedNames (below.take index) =
            symbols.names ++ introducedNames ((first :: below).take (index + 1)) := by
        intro head next line index
        rw [(emits_of_emitLine line).names_eq, List.take_succ_cons, introducedNames_cons,
          List.append_assoc]
      constructor
      · rintro ⟨code, final, emitted⟩ index marked here
        obtain ⟨head, next, tail, line, rest, _⟩ := emit_cons_eq_ok_iff.mp emitted
        cases index with
        | zero =>
            cases here
            simpa [introducedNames] using exists_emitLine_iff.mp ⟨head, next, line⟩
        | succ index => exact above line index ▸ ih.mp ⟨tail, final, rest⟩ index marked here
      · intro each
        obtain ⟨head, next, line⟩ := exists_emitLine_iff.mpr
          (by simpa [introducedNames] using each 0 first rfl)
        obtain ⟨tail, final, rest⟩ := ih.mpr fun index marked here =>
          above line index ▸ each (index + 1) marked here
        exact ⟨head ++ tail, final, emit_cons_eq_ok_iff.mpr ⟨head, next, tail, line, rest, rfl⟩⟩

end Emission

end Program

end DecimalMachine
