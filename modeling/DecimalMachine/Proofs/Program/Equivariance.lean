import DecimalMachine.Proofs.Program.Renaming

/-!
# Renamed programs

A program depends on its names only as far as they are the same or different.
When the variables and the labels of its lines are renamed, the lines are
compiled to the same words, or they are refused for the same reason at the same
line.

Every phase does to renamed lines what it does to the lines, up to the names.
-/

namespace DecimalMachine

/-! ## First references under other names -/

theorem eraseDups_map {α β : Type} [DecidableEq α] [DecidableEq β] {f : α → β}
    (injective : Function.Injective f) (items : List α) :
    (items.map f).eraseDups = items.eraseDups.map f := by
  -- Induction on the last element, which is new or changes nothing.
  induction items using List.reverseRecOn with
  | nil => rfl
  | append_singleton items last ih =>
      have fresh : ([f last].removeAll (items.map f)) = ([last].removeAll items).map f := by
        by_cases known : last ∈ items <;>
          simp [List.removeAll, known, injective.eq_iff]
      have single : (([last].removeAll items).map f).eraseDups =
          ([last].removeAll items).eraseDups.map f := by
        by_cases known : last ∈ items <;>
          simp [List.removeAll, known, List.eraseDups_cons]
      rw [List.map_append, List.map_singleton, List.eraseDups_append, List.eraseDups_append, ih,
        fresh, single, List.map_append]

theorem beq_comp_of_injective {α β : Type} [DecidableEq α] [DecidableEq β] {f : α → β}
    (injective : Function.Injective f) (item : α) : (· == f item) ∘ f = (· == item) := by
  funext other
  exact injective.beq_eq

theorem idxOf_map {α β : Type} [DecidableEq α] [DecidableEq β] {f : α → β}
    (injective : Function.Injective f) (items : List α) (item : α) :
    (items.map f).idxOf (f item) = items.idxOf item := by
  rw [List.idxOf, List.findIdx_map, beq_comp_of_injective injective, List.idxOf]

theorem idxOf?_map {α β : Type} [DecidableEq α] [DecidableEq β] {f : α → β}
    (injective : Function.Injective f) (items : List α) (item : α) :
    (items.map f).idxOf? (f item) = items.idxOf? item := by
  rw [List.idxOf?, List.findIdx?_map, beq_comp_of_injective injective, List.idxOf?]

namespace Renaming

variable {names : Renaming} {At : Location → Location → Prop}

/-! ## Renamed layouts -/

/-- Layouts with the same labels and the same variables under other names. -/
structure Layouts (names : Renaming) (At : Location → Location → Prop)
    (layout other : Program.Layout) : Prop where
  declared : layout.declared.Renames (names.apply .variable) At other.declared
  labels : layout.labels.Renames (names.apply .label) At other.labels
  size : other.size = layout.size

theorem corresponds_place {layout otherLayout : Program.Layout} {marked other : Program.Marked}
    (layouts : names.Layouts At layout otherLayout)
    (renames : names.RenamesMarked At marked other) :
    Corresponds (names.Errors At) (names.Layouts At) (layout.place marked)
      (otherLayout.place other) := by
  rw [Program.Layout.place, Program.Layout.place, renames.line.form, renames.size_eq,
    layouts.size]
  have here := renames.line.location
  cases marked.line.form with
  | «variable» name _ | expression name _ _ =>
      refine (corresponds_declare layouts.declared name () here _ _).bind ?_
      exact fun _ _ declared => .ok ⟨declared, layouts.labels, rfl⟩
  | label name =>
      refine (corresponds_declare layouts.labels name layout.size here _ _).bind ?_
      exact fun _ _ labels => .ok ⟨layouts.declared, labels, rfl⟩
  | blank | comment | instruction => exact .ok ⟨layouts.declared, layouts.labels, rfl⟩

theorem corresponds_placeAll {lines others : List Program.Marked}
    (renames : List.Forall₂ (names.RenamesMarked At) lines others)
    {layout otherLayout : Program.Layout} (layouts : names.Layouts At layout otherLayout) :
    Corresponds (names.Errors At) (names.Layouts At) (layout.placeAll lines)
      (otherLayout.placeAll others) := by
  induction renames generalizing layout otherLayout with
  | nil => exact .ok layouts
  | cons renames _ ih =>
      rw [Program.Layout.placeAll, Program.Layout.placeAll, List.foldlM_cons, List.foldlM_cons]
      exact (corresponds_place layouts renames).bind fun _ _ layouts => ih layouts

/-! ## Renamed code -/

/-- An instruction whose variable is renamed. -/
def emitted (names : Renaming) (emitted : Program.Emitted) : Program.Emitted where
  opcode := emitted.opcode
  operand := match emitted.operand with
    | .variable name => .variable (names.apply .variable name)
    | operand => operand

theorem accessed?_emitted (names : Renaming) (emitted : Program.Emitted) :
    (names.emitted emitted).accessed? = emitted.accessed?.map (names.apply .variable) := by
  rcases emitted with ⟨opcode, operand⟩
  cases operand <;> rfl

theorem chain_renamed (names : Renaming) (target running : String)
    (rest : List (Sign × String)) :
    Program.chain (names.apply .variable target) (names.apply .variable running)
        (rest.map names.term) =
      (Program.chain target running rest).map names.emitted := by
  induction rest generalizing running with
  | nil => rfl
  | cons term rest ih =>
      rw [List.map_cons, Renaming.term, Program.chain, ih, Program.chain]
      rfl

theorem lower_renamed (names : Renaming) (target first : String) (rest : List (Sign × String)) :
    Program.lower (names.apply .variable target) (names.apply .variable first)
        (rest.map names.term) =
      (Program.lower target first rest).map names.emitted := by
  rw [Program.lower, Program.lower, List.isEmpty_map, chain_renamed]
  split <;> rfl

section Emission

variable {labels otherLabels : Table Nat} {symbols otherSymbols : SymbolTable}
  {line other : Line}

/-- A renamed branch goes to the same instruction. -/
theorem corresponds_branchOperand
    (tables : labels.Renames (names.apply .label) At otherLabels)
    (here : At line.location other.location) (command operand : String) :
    Corresponds (names.Errors At)
      (fun target otherTarget => otherTarget = target ∧ ∃ index, target = .target index)
      (Program.branchOperand labels line command operand)
      (Program.branchOperand otherLabels other command (names.operand operand)) := by
  cases marked : Form.isLabelOperand operand with
  | false =>
      simp only [Program.branchOperand, names.isLabelOperand_operand, marked, Bool.not_false,
        if_true]
      exact .error ⟨.malformed (.variableForLabel command operand), .some here⟩
  | true =>
      rcases Program.exists_eq_labelOperand marked with ⟨name, rfl⟩
      cases shape : Text.isNameShape name.toList with
      | true =>
          have renamed := (names.isRenaming .label).identifier shape
          have nonempty : ∀ {text : String}, Text.isNameShape text.toList = true →
              text.toList.isEmpty = false := by
            intro text shape
            cases characters : text.toList with
            | nil =>
                rw [characters] at shape
                cases shape
            | cons => rfl
          simp only [Program.branchOperand, operand_labelOperand,
            Program.isLabelOperand_labelOperand, Program.drop_labelOperand, String.ofList_toList,
            shape, renamed, nonempty shape, nonempty renamed, Bool.not_true, Bool.false_eq_true,
            if_false]
          refine (corresponds_resolve tables name here _ _).bind ?_
          rintro entry otherEntry same
          rw [same.value]
          exact .ok ⟨rfl, entry.value, rfl⟩
      | false =>
          have same : names.operand (Program.labelOperand name) = Program.labelOperand name := by
            rw [operand_labelOperand, (names.isRenaming .label).other shape]
          simp only [Program.branchOperand, same, marked, Program.drop_labelOperand, shape,
            Bool.not_true, Bool.false_eq_true, if_false, Bool.not_false, if_true]
          split
          · exact .error ⟨.malformed .emptyTarget, .some here⟩
          · exact .error ⟨.malformed (.targetName _), .some here⟩

theorem corresponds_emitCommand
    (tables : labels.Renames (names.apply .label) At otherLabels)
    (declared : symbols.Renames (names.apply .variable) At otherSymbols)
    (here : At line.location other.location) (command : String) (operand : Option String) :
    Corresponds (names.Errors At) (fun emitted otherEmitted => otherEmitted = names.emitted emitted)
      (Program.emitCommand labels symbols line command operand)
      (Program.emitCommand otherLabels otherSymbols other command
        (operand.map names.operand)) := by
  cases mnemonic : Opcode.ofMnemonic? command with
  | none =>
      unfold Program.emitCommand
      rw [mnemonic]
      exact .error ⟨.unknownCommand command _, .some here⟩
  | some opcode =>
      cases operand with
      | none =>
          unfold Program.emitCommand
          rw [mnemonic]
          cases opcode with
          | halt => exact .ok rfl
          | _ => exact .error ⟨.missingOperand command, .some here⟩
      | some operand =>
          rw [Option.map_some]
          by_cases halt : opcode = .halt
          · unfold Program.emitCommand
            rw [mnemonic, halt]
            exact .error ⟨.malformed .haltOperand, .some here⟩
          · cases branch : opcode.isBranch with
            | true =>
                rw [Program.emitCommand_of_isBranch mnemonic branch,
                  Program.emitCommand_of_isBranch mnemonic branch]
                refine (corresponds_branchOperand tables here command operand).map ?_
                rintro _ _ ⟨rfl, index, rfl⟩
                rfl
            | false =>
                rw [Program.emitCommand_of_not_isBranch mnemonic branch halt,
                  Program.emitCommand_of_not_isBranch mnemonic branch halt,
                  names.isLabelOperand_operand]
                split
                · exact .error ⟨.malformed (.labelForVariable command), .some here⟩
                · next unmarked =>
                    rw [names.operand_of_unmarked (by simpa using unmarked)]
                    refine (corresponds_resolve declared operand here _ _).bind ?_
                    intro entry otherEntry same
                    rw [same.name]
                    exact .ok rfl

/-- Code and variables that are emitted under other names. -/
structure Emits (names : Renaming) (At : Location → Location → Prop)
    (emitted other : List Program.Emitted × SymbolTable) : Prop where
  code : other.1 = emitted.1.map names.emitted
  symbols : emitted.2.Renames (names.apply .variable) At other.2

theorem corresponds_emitLine {marked other : Program.Marked}
    (tables : labels.Renames (names.apply .label) At otherLabels)
    (declared : symbols.Renames (names.apply .variable) At otherSymbols)
    (renames : names.RenamesMarked At marked other) :
    Corresponds (names.Errors At) (names.Emits At) (Program.emitLine labels symbols marked)
      (Program.emitLine otherLabels otherSymbols other) := by
  rw [Program.emitLine, Program.emitLine, renames.line.form, renames.kept]
  have here := renames.line.location
  cases marked.line.form with
  | blank | comment | label => exact .ok ⟨rfl, declared⟩
  | «variable» name value =>
      refine (corresponds_declare declared name _ here _ _).bind ?_
      exact fun _ _ declared => .ok ⟨rfl, declared⟩
  | expression name first rest =>
      cases marked.kept with
      | false => exact .ok ⟨rfl, declared⟩
      | true =>
          simp only [Renaming.form, if_true, terms_term, List.mapM_map]
          refine (Corresponds.mapM fun term _ =>
            corresponds_resolve declared term here _ _).bind fun _ _ _ => ?_
          refine (corresponds_declare declared name _ here _ _).bind fun _ _ declared => ?_
          exact .ok ⟨lower_renamed names name first rest, declared⟩
  | instruction command operand =>
      refine (corresponds_emitCommand tables declared here command operand).bind ?_
      rintro emitted _ rfl
      exact .ok ⟨rfl, declared⟩

theorem corresponds_emit {lines others : List Program.Marked}
    (tables : labels.Renames (names.apply .label) At otherLabels)
    (renames : List.Forall₂ (names.RenamesMarked At) lines others)
    (declared : symbols.Renames (names.apply .variable) At otherSymbols) :
    Corresponds (names.Errors At) (names.Emits At) (Program.emit labels symbols lines)
      (Program.emit otherLabels otherSymbols others) := by
  induction renames generalizing symbols otherSymbols with
  | nil => exact .ok ⟨rfl, declared⟩
  | cons renames _ ih =>
      rw [Program.emit, Program.emit]
      refine (corresponds_emitLine tables declared renames).bind fun head _ emits => ?_
      refine (ih emits.symbols).bind fun tail _ more => ?_
      refine .ok ⟨?_, more.symbols⟩
      rw [emits.code, more.code, List.map_append]

end Emission

/-! ## Renamed words -/

theorem slots_renamed (names : Renaming) (code : List Program.Emitted) :
    Program.slots (code.map names.emitted) =
      (Program.slots code).map (names.apply .variable) := by
  rw [Program.slots, Program.slots, List.filterMap_map,
    ← eraseDups_map (names.isRenaming .variable).injective_all, List.map_filterMap]
  congr 2
  funext emitted
  exact names.accessed?_emitted emitted

/-- The address of a variable does not depend on its name. -/
theorem relocate_renamed (names : Renaming) (size : Nat) (slots : List String)
    (emitted : Program.Emitted) :
    Program.relocate size (slots.map (names.apply .variable)) (names.emitted emitted) =
      Program.relocate size slots emitted := by
  rcases emitted with ⟨opcode, operand⟩
  cases operand with
  | «variable» name =>
      simp only [Program.relocate, Renaming.emitted,
        idxOf_map (names.isRenaming .variable).injective_all]
  | _ => rfl

section Symbols

variable {symbols otherSymbols : SymbolTable}

theorem renames_allocate (declared : symbols.Renames (names.apply .variable) At otherSymbols)
    (size : Nat) (slots : List String) :
    (Program.allocate size slots symbols).Renames (names.apply .variable) At
      (Program.allocate size (slots.map (names.apply .variable)) otherSymbols) := by
  refine List.rel_map ?_ declared
  intro entry other same
  refine ⟨same.name, same.location, ?_⟩
  simp only [same.name, same.value, Program.address?,
    idxOf?_map (names.isRenaming .variable).injective_all]

theorem addresses_renamed (declared : symbols.Renames (names.apply .variable) At otherSymbols) :
    otherSymbols.addresses =
      symbols.addresses.map fun (name, address) => (names.apply .variable name, address) := by
  have placed : otherSymbols.placed =
      symbols.placed.map fun (name, address) => (names.apply .variable name, address) := by
    calc
      otherSymbols.placed =
          (otherSymbols.entries.map fun entry => (entry.name, entry.value)).filterMap
            fun entry => entry.2.address.map (entry.1, ·) := by
        rw [List.filterMap_map]
        rfl
      _ = symbols.placed.map fun (name, address) => (names.apply .variable name, address) := by
        rw [declared.map_value_eq, List.filterMap_map, SymbolTable.placed, List.map_filterMap]
        congr 1
        funext entry
        rw [Option.map_map]
        rfl
  rw [SymbolTable.addresses_eq_mergeSort, SymbolTable.addresses_eq_mergeSort, placed]
  symm
  apply List.map_mergeSort
  intro first _ second _
  rfl

theorem initialValues_renamed
    (declared : symbols.Renames (names.apply .variable) At otherSymbols) (slots : List String) :
    Program.initialValues (slots.map (names.apply .variable)) otherSymbols =
      Program.initialValues slots symbols := by
  rw [Program.initialValues, Program.initialValues, List.filterMap_map]
  congr 1
  funext name
  have found := declared.find? (names.isRenaming .variable).injective_all name
  rw [Function.comp_apply]
  generalize symbols.find? name = first at found
  generalize otherSymbols.find? (names.apply .variable name) = second at found
  cases found with
  | none => rfl
  | some same => rw [Option.map_some, Option.map_some, same.value]

end Symbols

/-! ## Renamed programs -/

/-- The same program under other names. -/
structure Programs (names : Renaming) (program other : Program) : Prop where
  words : other.words = program.words
  instructions : other.instructions = program.instructions
  implicitHalt : other.implicitHalt = program.implicitHalt
  addresses : SymbolTable.addresses other.symbols =
    (SymbolTable.addresses program.symbols).map fun (name, address) =>
      (names.apply .variable name, address)
  labels : (other.labels.entries.map fun entry => (entry.name, entry.value)) =
    program.labels.entries.map fun entry => (names.apply .label entry.name, entry.value)
  eliminated : other.eliminated = program.eliminated.map (names.apply .variable)

theorem close_renamed (names : Renaming) (implicitHalt : Bool) (code : List Program.Emitted) :
    Program.close implicitHalt (code.map names.emitted) =
      (Program.close implicitHalt code).map names.emitted := by
  cases implicitHalt with
  | false => rfl
  | true =>
      rw [Program.close, Program.close, if_pos rfl, if_pos rfl, List.map_append]
      rfl

theorem corresponds_assemble {code : List Program.Emitted} {symbols otherSymbols : SymbolTable}
    {labels otherLabels : Table Nat}
    (declared : symbols.Renames (names.apply .variable) At otherSymbols)
    (tables : labels.Renames (names.apply .label) At otherLabels) (maxWords : Int)
    (eliminated : List String) (implicitHalt : Bool) :
    Corresponds (names.Errors At) names.Programs
      (Program.assemble maxWords code symbols labels eliminated implicitHalt)
      (Program.assemble maxWords (code.map names.emitted) otherSymbols otherLabels
        (eliminated.map (names.apply .variable)) implicitHalt) := by
  simp only [Program.assemble, slots_renamed, List.length_map]
  split
  · exact .error ⟨.tooLarge _ _ _, .none⟩
  · have instructions : (code.map names.emitted).map (fun emitted =>
          (Program.relocate code.length ((Program.slots code).map (names.apply .variable))
            emitted).render) =
        code.map fun emitted =>
          (Program.relocate code.length (Program.slots code) emitted).render := by
      rw [List.map_map]
      apply List.map_congr_left
      intro emitted _
      rw [Function.comp_apply, relocate_renamed]
    apply Corresponds.ok
    constructor
    case words =>
      simp only [Program.words]
      rw [instructions, initialValues_renamed declared]
    case instructions => exact instructions
    case implicitHalt => rfl
    case addresses => exact addresses_renamed (renames_allocate declared _ _)
    case labels => exact tables.map_value_eq
    case eliminated => rfl

/-- Renamed lines are compiled to the renamed program, or refused for the same
reason. -/
theorem corresponds_ofLines {lines others : List Line}
    (renames : List.Forall₂ (names.Renames At) lines others) (options : CompileOptions)
    (terminated : Option Bool) :
    Corresponds (names.Errors At) names.Programs (Program.ofLines options terminated lines)
      (Program.ofLines options terminated others) := by
  have marks : List.Forall₂ (names.RenamesMarked At) (Program.marks options.optimize lines)
      (Program.marks options.optimize others) :=
    renamesMarked_upToHalt (renamesMarked_mark renames options.optimize).1
  have nothing : names.Layouts At .empty .empty := ⟨List.Forall₂.nil, List.Forall₂.nil, rfl⟩
  refine (corresponds_placeAll marks nothing).bind fun layout otherLayout layouts => ?_
  refine (corresponds_emit layouts.labels marks List.Forall₂.nil).bind ?_
  rintro ⟨body, symbols⟩ ⟨otherBody, otherSymbols⟩ emits
  have code : otherBody = body.map names.emitted := emits.code
  simp only [droppedNames_renamed marks, needsHalt_renamed marks, code, close_renamed]
  exact corresponds_assemble emits.symbols layouts.labels _ _ _

/-- Renaming is invisible to the compiler.  Lines whose variables and labels are
renamed one to one are compiled to the same words as the lines themselves, with
the names of variables and labels renamed, or they are refused for the same
reason at the same line. -/
theorem ofLines_renamed (names : Renaming) {lines others : List Line}
    (renames : List.Forall₂ (names.Renames Eq) lines others) (options : CompileOptions)
    (terminated : Option Bool) :
    (∀ program, Program.ofLines options terminated lines = .ok program →
      ∃ other, Program.ofLines options terminated others = .ok other ∧
        names.Programs program other) ∧
    ∀ error, Program.ofLines options terminated lines = .error error →
      ∃ other, Program.ofLines options terminated others = .error other ∧
        names.Complaints Eq error.complaint other.complaint ∧
        other.location = error.location := by
  have both := corresponds_ofLines renames options terminated
  generalize Program.ofLines options terminated lines = outcome at both
  generalize Program.ofLines options terminated others = renamed at both
  cases both with
  | @ok program other programs =>
      refine ⟨?_, by rintro _ ⟨⟩⟩
      rintro _ ⟨⟩
      exact ⟨other, rfl, programs⟩
  | @error error other errors =>
      refine ⟨by rintro _ ⟨⟩, ?_⟩
      rintro _ ⟨⟩
      refine ⟨other, rfl, errors.complaint, ?_⟩
      have place := errors.location
      generalize error.location = here at place
      generalize other.location = there at place
      cases place with
      | none => rfl
      | some same => rw [same]

/-- Variables and labels whose names take each other's place. -/
def swap (first second : SymbolKind → String)
    (identifiers : ∀ kind, Text.isNameShape (first kind).toList = true ∧
      Text.isNameShape (second kind).toList = true) : Renaming where
  apply := fun kind => Equiv.swap (first kind) (second kind)
  isRenaming := fun kind => .swap (identifiers kind).1 (identifiers kind).2

/-- A variable becomes the name of a command, and a label that of a variable. -/
theorem ofLines_renamed_countdown :
    ∃ (names : Renaming) (lines : List Line) (program other : Program),
      names.apply .variable "a" = "HALT" ∧ names.apply .label "a" = "b" ∧
      Source.lines "countdown" "a=3\nb=1\n@a\nc=a-b\nLOAD c\nSTORE a\nBRANCHZERO @a\nWRITE a" =
        .ok lines ∧
      Program.ofLines {} none lines = .ok program ∧
      Program.ofLines {} none
        (lines.map fun line => { line with form := names.form line.form }) = .ok other ∧
      names.Programs program other := by
  let names := swap (fun _ => "a") (fun kind => if kind = .variable then "HALT" else "b")
    (by intro kind; cases kind <;> exact ⟨rfl, rfl⟩)
  have compiled : ((Source.lines "countdown"
      "a=3\nb=1\n@a\nc=a-b\nLOAD c\nSTORE a\nBRANCHZERO @a\nWRITE a").map fun lines =>
        ((Program.ofLines {} none lines).map fun _ => ()).toOption).toOption =
      some (some ()) := by
    decide +kernel
  rcases of_toOption_map_eq_some compiled with ⟨lines, read, made⟩
  rcases of_toOption_map_eq_some made with ⟨program, made, _⟩
  have renames : List.Forall₂ (names.Renames Eq) lines
      (lines.map fun line => { line with form := names.form line.form }) :=
    List.forall₂_map_right_iff.mpr (List.forall₂_same.mpr fun _ _ => ⟨rfl, rfl⟩)
  rcases (ofLines_renamed names renames {} none).1 program made with ⟨other, renamed, programs⟩
  exact ⟨names, lines, program, other, by decide, by decide, read, made, renamed, programs⟩

end Renaming

end DecimalMachine
