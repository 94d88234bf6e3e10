import DecimalMachine.Proofs.Program.WellFormed
import DecimalMachine.Proofs.Walks
import Mathlib.Data.List.Find

/-!
# Lines at fault

Laying out lines and emitting their code are walks over the lines, and each line
has its own faults.  A line repeats a declaration where a line above it declares
the same variable or the same label; a line is defective where its command or one
of its terms is refused.  Each walk stops at the first line at fault.

Emission knows the variables of the kept lines only.  A line refers to none but
these, so that the variable it misses is declared by no line above, kept or not.
-/

namespace DecimalMachine.Program

/-- The error of a line. -/
def Marked.complain (marked : Marked) (complaint : Complaint) : CompileError :=
  Line.complain marked.line.text marked.line.location complaint

/-! ## Repeated declarations -/

/-- The variable or the label that a line declares. -/
def Marked.symbol? (marked : Marked) : Option (SymbolKind × String) :=
  match marked.line.form with
  | .variable name _ | .expression name _ _ => some (.variable, name)
  | .label name => some (.label, name)
  | _ => none

/-- Lines that stand in a file one below the other, from its first line on. -/
def Located (file : String) (lines : List Marked) : Prop :=
  ∀ (index : Nat) (marked : Marked), lines[index]? = some marked →
    marked.line.location = ⟨file, index + 1⟩

section Locations

variable {file : String} {lines below : List Marked} {marked : Marked}

theorem Located.of_append (located : Located file (lines ++ below)) : Located file lines := by
  intro index other here
  have inside := (List.getElem?_eq_some_iff.mp here).1
  exact located index other (by rwa [List.getElem?_append_left inside])

theorem Located.location_eq (located : Located file (lines ++ marked :: below)) :
    marked.line.location = ⟨file, lines.length + 1⟩ :=
  located lines.length marked (by simp)

end Locations

/-- A line declares what a line above it declares.  The complaint points to the
first of the lines above that do. -/
inductive Repeats (file : String) (above : List Marked) (marked : Marked) : Complaint → Prop where
  | symbol {kind : SymbolKind} {name : String} {first : Nat}
      (declares : marked.symbol? = some (kind, name))
      (earlier : above.findIdx? (·.symbol? = some (kind, name)) = some first) :
      Repeats file above marked (.duplicate kind name ⟨file, first + 1⟩)

namespace Layout

/-- Where a name is declared. -/
def location? (layout : Layout) (kind : SymbolKind) (name : String) : Option Location :=
  match kind with
  | .variable => (layout.declared.find? name).map (·.location)
  | .label => (layout.labels.find? name).map (·.location)

variable {file : String} {layout next : Layout} {marked : Marked} {lines : List Marked}
  {kind : SymbolKind} {name : String} {error : CompileError}

theorem location?_of_place (place : layout.place marked = .ok next) :
    next.location? kind name = (layout.location? kind name).or
      (if marked.symbol? = some (kind, name) then some marked.line.location else none) := by
  obtain ⟨⟨form, text, location⟩, kept⟩ := marked
  cases form with
  | «variable» other _ | expression other _ _ =>
      obtain ⟨declared, declare, placed⟩ := bind_eq_ok_iff.mp place
      obtain ⟨_, rfl⟩ := Table.declare_eq_ok_iff.mp declare
      cases placed
      cases kind <;> simp [location?, Marked.symbol?, Table.map_location_find?_add]
  | label other =>
      obtain ⟨labels, declare, placed⟩ := bind_eq_ok_iff.mp place
      obtain ⟨_, rfl⟩ := Table.declare_eq_ok_iff.mp declare
      cases placed
      cases kind <;> simp [location?, Marked.symbol?, Table.map_location_find?_add]
  | blank | comment | instruction =>
      cases place
      simp [Marked.symbol?, location?]

/-- A line is refused if and only if what it declares is declared already. -/
theorem place_eq_error_iff :
    layout.place marked = .error error ↔ ∃ kind name location,
      marked.symbol? = some (kind, name) ∧ layout.location? kind name = some location ∧
        error = marked.complain (.duplicate kind name location) := by
  obtain ⟨⟨form, text, location⟩, kept⟩ := marked
  cases form with
  | «variable» name _ | expression name _ _ | label name =>
      simp [place, bind_eq_error_iff, Table.declare_eq_error_iff, pure, Except.pure,
        Marked.symbol?, location?, Marked.complain, Line.complain]
  | blank | comment | instruction => simp [place, Marked.symbol?, pure, Except.pure]

theorem walks_placeAll : Walks empty.placeAll place where
  nil := ⟨empty, rfl⟩
  concat front item := by simp [placeAll, List.foldlM_append]

/-- A name is declared where the first line stands that declares it. -/
theorem location?_of_placeAll (located : Located file lines)
    (placed : empty.placeAll lines = .ok layout) :
    layout.location? kind name =
      (lines.findIdx? (·.symbol? = some (kind, name))).map fun first => ⟨file, first + 1⟩ := by
  induction lines using List.reverseRecOn generalizing layout with
  | nil =>
      cases placed
      cases kind <;> rfl
  | append_singleton lines marked ih =>
      -- The last line adds its own location behind those of the lines above.
      rw [walks_placeAll.concat, bind_eq_ok_iff] at placed
      obtain ⟨front, placed, place⟩ := placed
      rw [location?_of_place place, ih located.of_append placed, located.location_eq,
        List.findIdx?_append, Option.map_or]
      congr 1
      by_cases declares : marked.symbol? = some (kind, name) <;> simp [declares]

theorem place_eq_error_iff_of_placeAll (located : Located file lines)
    (placed : empty.placeAll lines = .ok layout) :
    layout.place marked = .error error ↔
      ∃ complaint, Repeats file lines marked complaint ∧ error = marked.complain complaint := by
  rw [place_eq_error_iff]
  constructor
  · rintro ⟨kind, name, location, declares, earlier, rfl⟩
    rw [location?_of_placeAll located placed, Option.map_eq_some_iff] at earlier
    obtain ⟨first, earlier, rfl⟩ := earlier
    exact ⟨_, .symbol declares earlier, rfl⟩
  · rintro ⟨_, @⟨kind, name, first, declares, earlier⟩, rfl⟩
    refine ⟨kind, name, ⟨file, first + 1⟩, declares, ?_, rfl⟩
    rw [location?_of_placeAll located placed, earlier]
    rfl

/-- Lines are laid out if and only if none of them repeats a declaration. -/
theorem exists_placeAll_iff_faultless (located : Located file lines) :
    (∃ layout, empty.placeAll lines = .ok layout) ↔ Faultless (Repeats file) lines :=
  walks_placeAll.exists_ok_iff fun _ _ _ _ _ split placed =>
    place_eq_error_iff_of_placeAll (split ▸ located).of_append placed

/-- The layout of lines is refused for the first of them that repeats a
declaration. -/
theorem placeAll_eq_error_iff (located : Located file lines) :
    empty.placeAll lines = .error error ↔ ∃ above marked complaint,
      FirstFault (Repeats file) lines above marked complaint ∧
        error = marked.complain complaint :=
  walks_placeAll.eq_error_iff fun _ _ _ _ _ split placed =>
    place_eq_error_iff_of_placeAll (split ▸ located).of_append placed

end Layout

/-! ## Commands that are refused -/

/-- The operands that no branch can have, each with what is wrong with it, where
some labels are declared. -/
inductive BadTarget (labels : List String) (command : String) : String → Complaint → Prop where
  | unmarked {operand : String} (unmarked : Form.isLabelOperand operand = false) :
      BadTarget labels command operand (.malformed (.variableForLabel command operand))
  | empty : BadTarget labels command (labelOperand "") (.malformed .emptyTarget)
  | shape {name : String} (nonempty : name ≠ "") (shape : Text.isNameShape name.toList = false) :
      BadTarget labels command (labelOperand name) (.malformed (.targetName (labelOperand name)))
  | undefined {name : String} (identifier : Text.isNameShape name.toList = true)
      (undeclared : name ∉ labels) :
      BadTarget labels command (labelOperand name)
        (.undefined .label name (Text.closeMatches 3 name labels))

/-- The commands that cannot be emitted, each with its operand and what is wrong
with it, where some labels and variables are declared.  What is similar to an
undeclared variable is looked for among the listed ones. -/
inductive BadCommand (labels declared listed : List String) :
    String → Option String → Complaint → Prop where
  | unknown {command : String} {operand : Option String}
      (unknown : ∀ opcode : Opcode, command ≠ opcode.mnemonic) :
      BadCommand labels declared listed command operand (.unknownCommand command
        (Text.closeMatches 1 (Text.capitalize command) (Opcode.all.map Opcode.mnemonic)))
  | haltOperand {operand : String} :
      BadCommand labels declared listed Opcode.halt.mnemonic (some operand)
        (.malformed .haltOperand)
  | missingOperand {opcode : Opcode} (halts : opcode ≠ .halt) :
      BadCommand labels declared listed opcode.mnemonic none (.missingOperand opcode.mnemonic)
  | branch {opcode : Opcode} {operand : String} {complaint : Complaint}
      (branches : opcode.isBranch = true)
      (target : BadTarget labels opcode.mnemonic operand complaint) :
      BadCommand labels declared listed opcode.mnemonic (some operand) complaint
  | labelForVariable {opcode : Opcode} {operand : String} (branches : opcode.isBranch = false)
      (halts : opcode ≠ .halt) (label : Form.isLabelOperand operand = true) :
      BadCommand labels declared listed opcode.mnemonic (some operand)
        (.malformed (.labelForVariable opcode.mnemonic))
  | undefinedVariable {opcode : Opcode} {name : String} (branches : opcode.isBranch = false)
      (halts : opcode ≠ .halt) (unmarked : Form.isLabelOperand name = false)
      (undeclared : name ∉ declared) :
      BadCommand labels declared listed opcode.mnemonic (some name)
        (.undefined .variable name (Text.closeMatches 3 name listed))

section Commands

variable {labels : Table Nat} {symbols : SymbolTable} {line : Line} {complaint : Complaint}
  {error : CompileError} {command operand name : String}

theorem branchOperand_of_unmarked (unmarked : Form.isLabelOperand operand = false) :
    branchOperand labels line command operand = .error
      (Line.complain line.text line.location (.malformed (.variableForLabel command operand))) := by
  simp [branchOperand, unmarked]

theorem branchOperand_labelOperand :
    branchOperand labels line command (labelOperand name) =
      if name = "" then .error (Line.complain line.text line.location (.malformed .emptyTarget))
      else if Text.isNameShape name.toList = false then
        .error (Line.complain line.text line.location
          (.malformed (.targetName (labelOperand name))))
      else labels.resolve .label name line.location line.text >>= fun entry =>
        pure (.target entry.value) := by
  simp only [branchOperand, isLabelOperand_labelOperand, drop_labelOperand, String.ofList_toList]
  simp

/-- What no branch can have for its operand is refused. -/
theorem BadTarget.branchOperand_eq (target : BadTarget labels.names command operand complaint) :
    branchOperand labels line command operand =
      .error (Line.complain line.text line.location complaint) := by
  cases target with
  | unmarked mark => exact branchOperand_of_unmarked mark
  | empty => rw [branchOperand_labelOperand, if_pos rfl]
  | shape nonempty shape => rw [branchOperand_labelOperand, if_neg nonempty, if_pos shape]
  | @undefined name identifier undeclared =>
      have nonempty : name ≠ "" := by
        rintro rfl
        cases identifier
      rw [branchOperand_labelOperand, if_neg nonempty, if_neg (by simp [identifier])]
      exact bind_eq_error_iff.mpr (.inl (Table.resolve_eq_error_iff.mpr ⟨undeclared, rfl⟩))

/-- An operand is refused for what no branch can have. -/
theorem exists_badTarget (failed : branchOperand labels line command operand = .error error) :
    ∃ complaint, BadTarget labels.names command operand complaint ∧
      error = Line.complain line.text line.location complaint := by
  cases mark : Form.isLabelOperand operand with
  | false =>
      rw [branchOperand_of_unmarked mark] at failed
      cases failed
      exact ⟨_, .unmarked mark, rfl⟩
  | true =>
      obtain ⟨name, rfl⟩ := exists_eq_labelOperand mark
      rw [branchOperand_labelOperand] at failed
      split at failed
      · next empty =>
          subst empty
          cases failed
          exact ⟨_, .empty, rfl⟩
      split at failed
      · next nonempty shape =>
          cases failed
          exact ⟨_, .shape nonempty shape, rfl⟩
      · next identifier =>
          rcases bind_eq_error_iff.mp failed with unresolved | ⟨_, _, ⟨⟩⟩
          obtain ⟨undeclared, rfl⟩ := Table.resolve_eq_error_iff.mp unresolved
          exact ⟨_, .undefined (by simpa using identifier) undeclared, rfl⟩

theorem BadCommand.emitCommand_eq {operand : Option String}
    (bad : BadCommand labels.names symbols.names symbols.names command operand complaint) :
    emitCommand labels symbols line command operand =
      .error (Line.complain line.text line.location complaint) := by
  cases bad with
  | unknown unknown =>
      simp [emitCommand, Opcode.ofMnemonic?_eq_none_iff.mpr unknown]
  | haltOperand => rfl
  | @missingOperand opcode halts =>
      unfold emitCommand
      rw [Opcode.ofMnemonic?_mnemonic]
      cases opcode with
      | halt => exact absurd rfl halts
      | _ => rfl
  | branch branches target =>
      rw [emitCommand_of_isBranch (Opcode.ofMnemonic?_mnemonic _) branches, map_eq_error_iff]
      exact target.branchOperand_eq
  | labelForVariable branches halts label =>
      rw [emitCommand_of_not_isBranch (Opcode.ofMnemonic?_mnemonic _) branches halts,
        if_pos label]
  | undefinedVariable branches halts unmarked undeclared =>
      rw [emitCommand_of_not_isBranch (Opcode.ofMnemonic?_mnemonic _) branches halts,
        if_neg (by simp [unmarked])]
      exact bind_eq_error_iff.mpr (.inl (Table.resolve_eq_error_iff.mpr ⟨undeclared, rfl⟩))

theorem exists_badCommand {operand : Option String}
    (failed : emitCommand labels symbols line command operand = .error error) :
    ∃ complaint, BadCommand labels.names symbols.names symbols.names command operand complaint ∧
      error = Line.complain line.text line.location complaint := by
  cases known : Opcode.ofMnemonic? command with
  | none =>
      simp only [emitCommand, known] at failed
      cases failed
      exact ⟨_, .unknown (Opcode.ofMnemonic?_eq_none_iff.mp known), rfl⟩
  | some opcode =>
      obtain rfl := Opcode.ofMnemonic?_eq_some_iff.mp known
      by_cases halts : opcode = .halt
      · subst halts
        cases operand with
        | none => cases failed
        | some operand =>
            cases failed
            exact ⟨_, .haltOperand, rfl⟩
      cases operand with
      | none =>
          simp only [emitCommand, known] at failed
          cases failed
          exact ⟨_, .missingOperand halts, rfl⟩
      | some operand =>
          cases branches : opcode.isBranch with
          | true =>
              rw [emitCommand_of_isBranch known branches, map_eq_error_iff] at failed
              obtain ⟨complaint, target, rfl⟩ := exists_badTarget failed
              exact ⟨complaint, .branch branches target, rfl⟩
          | false =>
              rw [emitCommand_of_not_isBranch known branches halts] at failed
              split at failed
              · next label =>
                  cases failed
                  exact ⟨_, .labelForVariable branches halts label, rfl⟩
              · next unmarked =>
                  rcases bind_eq_error_iff.mp failed with unresolved | ⟨_, _, ⟨⟩⟩
                  obtain ⟨undeclared, rfl⟩ := Table.resolve_eq_error_iff.mp unresolved
                  exact ⟨_, .undefinedVariable branches halts (by simpa using unmarked)
                    undeclared, rfl⟩

/-- A command is refused if and only if it cannot be emitted. -/
theorem emitCommand_eq_error_iff {operand : Option String} :
    emitCommand labels symbols line command operand = .error error ↔ ∃ complaint,
      BadCommand labels.names symbols.names symbols.names command operand complaint ∧
        error = Line.complain line.text line.location complaint := by
  constructor
  · exact exists_badCommand
  · rintro ⟨complaint, bad, rfl⟩
    exact bad.emitCommand_eq

end Commands

/-! ## Defective lines -/

/-- What is wrong with a line that cannot be emitted, where some labels and
variables are declared: its command, or the first of its terms that is not
declared. -/
inductive Defect (labels declared listed : List String) (marked : Marked) : Complaint → Prop where
  | command {command : String} {operand : Option String} {complaint : Complaint}
      (form : marked.line.form = .instruction command operand)
      (bad : BadCommand labels declared listed command operand complaint) :
      Defect labels declared listed marked complaint
  | term {name first term : String} {rest : List (Sign × String)}
      (form : marked.line.form = .expression name first rest) (kept : marked.kept = true)
      (undeclared : (Form.terms first rest).find? (· ∉ declared) = some term) :
      Defect labels declared listed marked
        (.undefined .variable term (Text.closeMatches 3 term listed))

/-- What is wrong with a line below some others, of which the kept ones suggest
what an undeclared name is meant to be. -/
def Defective (labels : List String) (above : List Marked) (marked : Marked)
    (complaint : Complaint) : Prop :=
  Defect labels (declaredNames above) (introducedNames above) marked complaint

theorem BadCommand.of_same {labels declared others listed : List String} {command : String}
    {operand : Option String} {complaint : Complaint}
    (bad : BadCommand labels declared listed command operand complaint)
    (same : ∀ name, operand = some name → Form.isLabelOperand name = false →
      (name ∈ declared ↔ name ∈ others)) :
    BadCommand labels others listed command operand complaint := by
  cases bad with
  | unknown unknown => exact .unknown unknown
  | haltOperand => exact .haltOperand
  | missingOperand halts => exact .missingOperand halts
  | branch branches target => exact .branch branches target
  | labelForVariable branches halts label => exact .labelForVariable branches halts label
  | @undefinedVariable opcode name branches halts unmarked undeclared =>
      exact .undefinedVariable branches halts unmarked
        (mt (same name rfl unmarked).mpr undeclared)

/-- A line has the same defect where the same of the names to which it refers
are declared. -/
theorem Defect.of_same {labels declared others listed : List String} {marked : Marked}
    {complaint : Complaint} (defect : Defect labels declared listed marked complaint)
    (keeps : ∀ command operand, marked.line.form = .instruction command operand →
      marked.kept = true)
    (same : marked.kept = true → ∀ name ∈ marked.line.form.references,
      (name ∈ declared ↔ name ∈ others)) :
    Defect labels others listed marked complaint := by
  cases defect with
  | command form bad =>
      refine .command form (bad.of_same ?_)
      rintro name rfl unmarked
      exact same (keeps _ _ form) name (by simp [form, Form.references, unmarked])
  | @term name first term rest form kept undeclared =>
      refine .term form kept ?_
      simp only [form, Form.references] at same
      rw [← undeclared]
      refine List.find?_congr fun term member => ?_
      simp only [same kept term member]

section Lines

variable {optimize : Bool} {lines above below : List Marked} {marked : Marked}
  {labels : Table Nat} {symbols : SymbolTable} {names listed : List String} {complaint : Complaint}
  {error : CompileError}

/-- It makes no difference whether an undeclared name is missed in all lines
above or in those that are kept. -/
theorem defect_introduced_iff (decided : Decided optimize (above ++ marked :: below)) :
    Defect names (introducedNames above) listed marked complaint ↔
      Defect names (declaredNames above) listed marked complaint := by
  have here : (above ++ marked :: below)[above.length]? = some marked := by simp
  have keeps : ∀ command operand, marked.line.form = .instruction command operand →
      marked.kept = true := fun _ _ form =>
    decided.kept_of_ne (by simp) (by simp [form])
  have same : marked.kept = true → ∀ name ∈ marked.line.form.references,
      (name ∈ introducedNames above ↔ name ∈ declaredNames above) := by
    intro kept name member
    simpa using mem_introducedNames_iff decided here kept member
  exact ⟨fun defect => defect.of_same keeps same,
    fun defect => defect.of_same keeps fun kept name member => (same kept name member).symm⟩

/-- The terms of an expression are refused for the first that is not declared. -/
theorem resolveTerms_eq_error_iff {terms : List String} {line : Line} :
    (terms.mapM fun term => symbols.resolve .variable term (some line.location) (some line.text)) =
        .error error ↔
      ∃ term, terms.find? (· ∉ symbols.names) = some term ∧ error =
        Line.complain line.text line.location
          (.undefined .variable term (Text.closeMatches 3 term symbols.names)) := by
  simp only [mapM_eq_error_iff, Table.resolve_eq_error_iff, Table.resolve_eq_ok_iff,
    Table.exists_find?_iff, List.find?_eq_some_iff_append]
  constructor
  · rintro ⟨front, term, back, split, found, undeclared, rfl⟩
    exact ⟨term, ⟨by simpa using undeclared, front, back, split, by simpa using found⟩, rfl⟩
  · rintro ⟨term, ⟨undeclared, front, back, split, found⟩, rfl⟩
    exact ⟨front, term, back, split, by simpa using found, by simpa using undeclared, rfl⟩

/-- A line that declares no name again is refused if and only if it has a
defect. -/
theorem emitLine_eq_error_iff
    (fresh : ∀ name, marked.introduces? = some name → name ∉ symbols.names) :
    emitLine labels symbols marked = .error error ↔ ∃ complaint,
      Defect labels.names symbols.names symbols.names marked complaint ∧
        error = marked.complain complaint := by
  obtain ⟨⟨form, text, location⟩, kept⟩ := marked
  cases form with
  | blank | comment | label =>
      constructor
      · rintro ⟨⟩
      · rintro ⟨_, ⟨⟨⟩⟩ | ⟨⟨⟩⟩, _⟩
  | «variable» name value =>
      obtain ⟨declared, declare⟩ := exists_declare_iff.mpr (fresh name rfl)
      constructor
      · intro failed
        rcases bind_eq_error_iff.mp failed with undeclared | ⟨_, _, ⟨⟩⟩
        rw [declare] at undeclared
        cases undeclared
      · rintro ⟨_, ⟨⟨⟩⟩ | ⟨⟨⟩⟩, _⟩
  | expression name first rest =>
      cases kept with
      | false =>
          constructor
          · rintro ⟨⟩
          · rintro ⟨_, ⟨⟨⟩⟩ | ⟨⟨⟩, ⟨⟩⟩, _⟩
      | true =>
          obtain ⟨declared, declare⟩ := exists_declare_iff.mpr (fresh name rfl)
          constructor
          · intro failed
            rcases bind_eq_error_iff.mp failed with unresolved | ⟨_, _, failed⟩
            · obtain ⟨term, undeclared, rfl⟩ := resolveTerms_eq_error_iff.mp unresolved
              exact ⟨_, .term rfl rfl undeclared, rfl⟩
            · rcases bind_eq_error_iff.mp failed with undeclared | ⟨_, _, ⟨⟩⟩
              rw [declare] at undeclared
              cases undeclared
          · rintro ⟨_, defect, rfl⟩
            cases defect with
            | command other => cases other
            | term other _ undeclared =>
                cases other
                exact bind_eq_error_iff.mpr (.inl
                  (resolveTerms_eq_error_iff.mpr ⟨_, undeclared, rfl⟩))
  | instruction command operand =>
      constructor
      · intro failed
        rcases bind_eq_error_iff.mp failed with failed | ⟨_, _, ⟨⟩⟩
        obtain ⟨complaint, bad, rfl⟩ := emitCommand_eq_error_iff.mp failed
        exact ⟨complaint, .command rfl bad, rfl⟩
      · rintro ⟨complaint, defect, rfl⟩
        cases defect with
        | command other bad =>
            cases other
            exact bind_eq_error_iff.mpr (.inl
              (emitCommand_eq_error_iff.mpr ⟨complaint, bad, rfl⟩))
        | term other => cases other

/-- Emit the code of one more line behind some code. -/
def emitNext (labels : Table Nat) (state : List Emitted × SymbolTable) (marked : Marked) :
    Except CompileError (List Emitted × SymbolTable) :=
  (fun more => (state.1 ++ more.1, more.2)) <$> emitLine labels state.2 marked

theorem walks_emit (labels : Table Nat) : Walks (emit labels .empty) (emitNext labels) where
  nil := ⟨_, rfl⟩
  concat front marked := by
    simp only [emit_append, emit, bind_assoc, pure_bind, emitNext]
    congr 1
    funext state
    cases emitLine labels state.2 marked <;>
      simp [bind, Except.bind, pure, Except.pure, Functor.map, Except.map]

/-- Behind the code of the lines above it a line is refused if and only if it is
defective. -/
theorem emitNext_eq_error_iff {state : List Emitted × SymbolTable}
    (decided : Decided optimize (above ++ marked :: below))
    (nodup : (declaredNames (above ++ marked :: below)).Nodup)
    (emitted : emit labels .empty above = .ok state) :
    emitNext labels state marked = .error error ↔ ∃ complaint,
      Defective labels.names above marked complaint ∧ error = marked.complain complaint := by
  have known : state.2.names = introducedNames above := names_of_emit emitted
  have here : (above ++ marked :: below)[above.length]? = some marked := by simp
  -- No declaration is repeated, so that the line is refused for what it refers to only.
  have fresh : ∀ name, marked.introduces? = some name → name ∉ state.2.names := by
    intro name introduces
    have undeclared := notMem_declaredNames_take nodup here (introduces?_subset introduces)
    rw [List.take_left] at undeclared
    rw [known]
    exact mt mem_declaredNames_of_introduced undeclared
  rw [emitNext, map_eq_error_iff, emitLine_eq_error_iff fresh, known]
  simp only [defect_introduced_iff decided, Defective]

/-- The code of lines is emitted if and only if none of them is defective. -/
theorem exists_emit_iff_faultless (decided : Decided optimize lines)
    (nodup : (declaredNames lines).Nodup) :
    (∃ state, emit labels .empty lines = .ok state) ↔ Faultless (Defective labels.names) lines :=
  (walks_emit labels).exists_ok_iff fun _ _ _ _ _ split emitted =>
    emitNext_eq_error_iff (split ▸ decided) (split ▸ nodup) emitted

/-- The code of lines is refused for the first of them that is defective. -/
theorem emit_eq_error_iff (decided : Decided optimize lines)
    (nodup : (declaredNames lines).Nodup) :
    emit labels .empty lines = .error error ↔ ∃ above marked complaint,
      FirstFault (Defective labels.names) lines above marked complaint ∧
        error = marked.complain complaint :=
  (walks_emit labels).eq_error_iff fun _ _ _ _ _ split emitted =>
    emitNext_eq_error_iff (split ▸ decided) (split ▸ nodup) emitted

end Lines

end DecimalMachine.Program
