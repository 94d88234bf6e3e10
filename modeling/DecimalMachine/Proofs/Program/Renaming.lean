import DecimalMachine.Proofs.Program.Relocation
import Mathlib.Data.List.Forall2

/-!
# Changes of names

Variables and labels have name spaces of their own, and each of them can be
renamed one to one.  Renamed lines are kept where the lines are, and a name is
found in a renamed table, or missing from it, where it is in the table.

Where lines stand is compared by any relation of places, and what their texts
are does not count.
-/

namespace DecimalMachine

/-- A change of names takes identifiers to identifiers, different ones to
different ones, and leaves every other text as it is. -/
structure IsRenaming (f : String → String) : Prop where
  identifier : ∀ {name : String}, Text.isNameShape name.toList = true →
    Text.isNameShape (f name).toList = true
  other : ∀ {name : String}, Text.isNameShape name.toList = false → f name = name
  injective : ∀ {first second : String}, Text.isNameShape first.toList = true →
    Text.isNameShape second.toList = true → f first = f second → first = second

namespace IsRenaming

variable {f : String → String}

theorem isNameShape_eq (changes : IsRenaming f) (name : String) :
    Text.isNameShape (f name).toList = Text.isNameShape name.toList := by
  cases shape : Text.isNameShape name.toList with
  | true => exact changes.identifier shape
  | false => rw [changes.other shape, shape]

/-- A text that is no identifier is not the new name of one. -/
theorem injective_all (changes : IsRenaming f) : Function.Injective f := by
  intro first second same
  have shapes := changes.isNameShape_eq first
  rw [same, changes.isNameShape_eq second] at shapes
  cases shape : Text.isNameShape first.toList with
  | true => exact changes.injective shape (shapes.trans shape) same
  | false => rwa [changes.other shape, changes.other (shapes.trans shape)] at same

/-- Two identifiers take each other's place. -/
theorem swap {first second : String} (firstName : Text.isNameShape first.toList = true)
    (secondName : Text.isNameShape second.toList = true) :
    IsRenaming (Equiv.swap first second) where
  identifier := by
    intro name shape
    rw [Equiv.swap_apply_def]
    split
    · exact secondName
    · split
      · exact firstName
      · exact shape
  other := by
    intro name shape
    apply Equiv.swap_apply_of_ne_of_ne
    · rintro rfl
      rw [firstName] at shape
      cases shape
    · rintro rfl
      rw [secondName] at shape
      cases shape
  injective := fun _ _ same => (Equiv.swap first second).injective same

end IsRenaming

/-- A renaming of variables and one of labels, which have name spaces of their
own. -/
structure Renaming where
  apply : SymbolKind → String → String
  isRenaming : ∀ kind, IsRenaming (apply kind)

/-- No identifier refers to a label. -/
theorem isLabelOperand_of_isNameShape {name : String}
    (shape : Text.isNameShape name.toList = true) : Form.isLabelOperand name = false := by
  rw [Form.isLabelOperand, decide_eq_false_iff_not]
  intro first
  cases characters : name.toList with
  | nil =>
      rw [characters] at first
      cases first
  | cons c rest =>
      rw [characters] at first shape
      cases first
      rw [Text.isNameShape] at shape
      cases shape

theorem IsRenaming.isLabelOperand_eq {f : String → String} (changes : IsRenaming f)
    (name : String) : Form.isLabelOperand (f name) = Form.isLabelOperand name := by
  cases shape : Text.isNameShape name.toList with
  | true =>
      rw [isLabelOperand_of_isNameShape shape,
        isLabelOperand_of_isNameShape (changes.identifier shape)]
  | false => rw [changes.other shape]

/-! ## Renamed lines -/

namespace Renaming

/-- All names as they are. -/
def id : Renaming where
  apply := fun _ name => name
  isRenaming := fun _ => ⟨fun shape => shape, fun _ => rfl, fun _ _ same => same⟩

@[simp]
theorem apply_id (kind : SymbolKind) (name : String) : id.apply kind name = name :=
  rfl

variable (names : Renaming)

/-- The operand of a renamed command. -/
def operand (operand : String) : String :=
  if Form.isLabelOperand operand then
    Program.labelOperand (names.apply .label (.ofList (operand.toList.drop 1)))
  else names.apply .variable operand

/-- A renamed term of an expression. -/
def term (term : Sign × String) : Sign × String :=
  (term.1, names.apply .variable term.2)

/-- What a renamed line says. -/
def form : Form → Form
  | .variable name value => .variable (names.apply .variable name) value
  | .expression name first rest =>
      .expression (names.apply .variable name) (names.apply .variable first)
        (rest.map names.term)
  | .label name => .label (names.apply .label name)
  | .instruction command operand => .instruction command (operand.map names.operand)
  | form => form

theorem operand_labelOperand (name : String) :
    names.operand (Program.labelOperand name) =
      Program.labelOperand (names.apply .label name) := by
  rw [operand, if_pos (Program.isLabelOperand_labelOperand name), Program.drop_labelOperand,
    String.ofList_toList]

theorem operand_of_unmarked {operand : String} (unmarked : Form.isLabelOperand operand = false) :
    names.operand operand = names.apply .variable operand := by
  rw [Renaming.operand, unmarked, if_neg Bool.false_ne_true]

theorem isLabelOperand_operand (operand : String) :
    Form.isLabelOperand (names.operand operand) = Form.isLabelOperand operand := by
  rw [Renaming.operand]
  split
  · next marked => rw [Program.isLabelOperand_labelOperand, marked]
  · exact (names.isRenaming .variable).isLabelOperand_eq operand

theorem terms_term (first : String) (rest : List (Sign × String)) :
    Form.terms (names.apply .variable first) (rest.map names.term) =
      (Form.terms first rest).map (names.apply .variable) := by
  simp [Form.terms, Renaming.term]

theorem references_form (form : Form) :
    (names.form form).references = form.references.map (names.apply .variable) := by
  cases form with
  | expression name first rest => exact names.terms_term first rest
  | instruction command operand =>
      cases operand with
      | none => rfl
      | some operand =>
          simp only [Renaming.form, Option.map_some, Form.references, isLabelOperand_operand]
          cases marked : Form.isLabelOperand operand with
          | true => rfl
          | false => simp [names.operand_of_unmarked marked]
  | _ => rfl

theorem declares?_form (form : Form) :
    (names.form form).declares? = form.declares?.map (names.apply .variable) := by
  cases form <;> rfl

theorem isHalt_form (form : Form) : (names.form form).isHalt = form.isHalt := by
  cases form <;> rfl

theorem operand_id (operand : String) : id.operand operand = operand := by
  cases marked : Form.isLabelOperand operand with
  | true =>
      rcases Program.exists_eq_labelOperand marked with ⟨name, rfl⟩
      exact operand_labelOperand id name
  | false => exact operand_of_unmarked id marked

theorem form_id (form : Form) : id.form form = form := by
  have same_operand : id.operand = fun operand => operand := funext operand_id
  have term_id : id.term = fun term => term := rfl
  cases form <;> simp [Renaming.form, same_operand, term_id]

/-- A line says what another one says under other names, and stands at a related
place. -/
structure Renames (At : Location → Location → Prop) (line other : Line) : Prop where
  form : other.form = names.form line.form
  location : At line.location other.location

/-- Renamed lines with the same decision to keep them. -/
structure RenamesMarked (At : Location → Location → Prop) (marked other : Program.Marked) :
    Prop where
  line : names.Renames At marked.line other.line
  kept : other.kept = marked.kept

section Marks

variable {names} {At : Location → Location → Prop}

theorem Renames.isHalt_eq {line other : Line} (renames : names.Renames At line other) :
    other.isHalt = line.isHalt := by
  rw [Line.isHalt, renames.form, isHalt_form, Line.isHalt]

/-- The same lines are kept, and they refer to the same names. -/
theorem renamesMarked_mark {lines others : List Line}
    (renames : List.Forall₂ (names.Renames At) lines others) (optimize : Bool) :
    List.Forall₂ (names.RenamesMarked At) (Program.mark optimize lines).1
        (Program.mark optimize others).1 ∧
      (Program.mark optimize others).2 =
        (Program.mark optimize lines).2.map (names.apply .variable) := by
  induction renames with
  | nil => exact ⟨.nil, rfl⟩
  | @cons line other below otherBelow renames _ ih =>
      rcases ih with ⟨marks, needed⟩
      rcases Program.exists_mark_cons optimize line below with ⟨kept, same, decision, references⟩
      rcases Program.exists_mark_cons optimize other otherBelow with
        ⟨otherKept, otherSame, otherDecision, otherReferences⟩
      have agree : otherKept = false ↔ kept = false := by
        rw [decision, otherDecision, renames.form, needed]
        cases line.form with
        | expression name first rest =>
            have member := List.mem_map_of_injective (names.isRenaming .variable).injective_all
              (a := name) (l := (Program.mark optimize below).2)
            simp [Renaming.form, -List.mem_map, member]
        | _ => simp [Renaming.form]
      have keeps : otherKept = kept := by
        cases kept <;> cases otherKept <;> simp at agree ⊢
      rw [same, otherSame, references, otherReferences, needed, keeps, renames.form,
        references_form]
      refine ⟨.cons ⟨renames, rfl⟩ marks, ?_⟩
      cases kept <;> simp

variable {lines others : List Program.Marked}

theorem renamesMarked_upToHalt (renames : List.Forall₂ (names.RenamesMarked At) lines others) :
    List.Forall₂ (names.RenamesMarked At) (Program.upToHalt lines) (Program.upToHalt others) := by
  induction renames with
  | nil => exact .nil
  | @cons marked other below otherBelow renames _ ih =>
      rw [Program.upToHalt, Program.upToHalt, renames.line.isHalt_eq]
      split
      · exact .cons renames .nil
      · exact .cons renames ih

theorem droppedNames_renamed (renames : List.Forall₂ (names.RenamesMarked At) lines others) :
    Program.droppedNames others =
      (Program.droppedNames lines).map (names.apply .variable) := by
  rw [Program.droppedNames, Program.droppedNames, List.map_filterMap]
  induction renames with
  | nil => rfl
  | @cons marked other below otherBelow renames _ ih =>
      have here : (if other.kept then none else other.line.form.declares?) =
          (if marked.kept then none else marked.line.form.declares?).map
            (names.apply .variable) := by
        rw [renames.kept, renames.line.form, declares?_form]
        cases marked.kept <;> rfl
      rw [List.filterMap_cons, List.filterMap_cons, here, ih]

theorem needsHalt_renamed (renames : List.Forall₂ (names.RenamesMarked At) lines others)
    (terminated : Option Bool) :
    Program.needsHalt terminated others = Program.needsHalt terminated lines := by
  have halts : others.any (·.line.isHalt) = lines.any (·.line.isHalt) := by
    induction renames with
    | nil => rfl
    | cons renames _ ih => rw [List.any_cons, List.any_cons, renames.line.isHalt_eq, ih]
  rw [Program.needsHalt, Program.needsHalt, halts]

theorem RenamesMarked.size_eq {marked other : Program.Marked}
    (renames : names.RenamesMarked At marked other) : other.size = marked.size := by
  rw [Program.Marked.size, Program.Marked.size, renames.line.form, renames.kept]
  cases marked.line.form <;> simp [Renaming.form, Program.expressionSize]

end Marks

/-! ## Renamed errors -/

/-- A malformation that renamed lines have. -/
def malformation : Malformation → Malformation
  | .variableForLabel command operand => .variableForLabel command (names.operand operand)
  | malformation => malformation

/-- The same cause of an error, under other names. -/
inductive Complaints (At : Location → Location → Prop) : Complaint → Complaint → Prop where
  | malformed (malformation : Malformation) :
      Complaints At (.malformed malformation) (.malformed (names.malformation malformation))
  | duplicate (kind : SymbolKind) (name : String) {earlier otherEarlier : Location}
      (place : At earlier otherEarlier) :
      Complaints At (.duplicate kind name earlier)
        (.duplicate kind (names.apply kind name) otherEarlier)
  /-- The suggestions depend on the spelling of the names, so that both causes
  have their own. -/
  | undefined (kind : SymbolKind) (name : String) (declared : List String) :
      Complaints At (.undefined kind name (Text.closeMatches 3 name declared))
        (.undefined kind (names.apply kind name)
          (Text.closeMatches 3 (names.apply kind name) (declared.map (names.apply kind))))
  | unknownCommand (command : String) (similar : List String) :
      Complaints At (.unknownCommand command similar) (.unknownCommand command similar)
  | missingOperand (command : String) :
      Complaints At (.missingOperand command) (.missingOperand command)
  | tooLarge (instructions data : Nat) (limit : Int) :
      Complaints At (.tooLarge instructions data limit) (.tooLarge instructions data limit)

/-- The same error under other names, at a related line if it is at one. -/
structure Errors (At : Location → Location → Prop) (error other : CompileError) : Prop where
  complaint : names.Complaints At error.complaint other.complaint
  location : Option.Rel At error.location other.location

end Renaming

/-! ## Renamed tables -/

/-- An entry with another name, declared at a related place. -/
structure Entry.Renames {α : Type} (f : String → String) (At : Location → Location → Prop)
    (entry other : Entry α) : Prop where
  name : other.name = f entry.name
  location : At entry.location other.location
  value : other.value = entry.value

namespace Table

variable {α : Type}

/-- The same entries under other names. -/
def Renames (f : String → String) (At : Location → Location → Prop) (table other : Table α) :
    Prop :=
  List.Forall₂ (Entry.Renames f At) table.entries other.entries

namespace Renames

variable {f : String → String} {At : Location → Location → Prop} {table other : Table α}

theorem names_eq (renames : table.Renames f At other) : other.names = table.names.map f := by
  rcases table with ⟨entries⟩
  rcases other with ⟨others⟩
  simp only [Table.Renames, Table.names] at renames ⊢
  induction renames with
  | nil => rfl
  | cons same _ ih => rw [List.map_cons, List.map_cons, List.map_cons, same.name, ih]

theorem map_value_eq (renames : table.Renames f At other) :
    (other.entries.map fun entry => (entry.name, entry.value)) =
      table.entries.map fun entry => (f entry.name, entry.value) := by
  rcases table with ⟨entries⟩
  rcases other with ⟨others⟩
  simp only [Table.Renames] at renames ⊢
  induction renames with
  | nil => rfl
  | cons same _ ih => rw [List.map_cons, List.map_cons, same.name, same.value, ih]

theorem find? (renames : table.Renames f At other) (injective : Function.Injective f)
    (name : String) :
    Option.Rel (Entry.Renames f At) (table.find? name) (other.find? (f name)) := by
  rcases table with ⟨entries⟩
  rcases other with ⟨others⟩
  simp only [Table.Renames, Table.find?] at renames ⊢
  induction renames with
  | nil => exact .none
  | cons same _ ih =>
      rw [List.find?_cons, List.find?_cons, same.name, injective.beq_eq]
      split
      · exact .some same
      · exact ih

theorem add (renames : table.Renames f At other) (name : String) (value : α)
    {location otherLocation : Location} (here : At location otherLocation) :
    (table.add name location value).Renames f At (other.add (f name) otherLocation value) :=
  List.rel_append renames (.cons ⟨rfl, here, rfl⟩ .nil)

end Renames

end Table

namespace Renaming

variable {names : Renaming} {At : Location → Location → Prop} {α : Type}
  {table other : Table α} {kind : SymbolKind}

/-- A renamed name is declared again where the name is. -/
theorem corresponds_declare (renames : table.Renames (names.apply kind) At other) (name : String)
    (value : α) {location otherLocation : Location} (here : At location otherLocation)
    (text otherText : Option String) :
    Corresponds (names.Errors At) (Table.Renames (names.apply kind) At)
      (table.declare kind name value location text)
      (other.declare kind (names.apply kind name) value otherLocation otherText) := by
  have found := renames.find? (names.isRenaming kind).injective_all name
  unfold Table.declare
  generalize table.find? name = first at found
  generalize other.find? (names.apply kind name) = second at found
  cases found with
  | none => exact .ok (renames.add name value here)
  | some same => exact .error ⟨.duplicate kind name same.location, .some here⟩

/-- A renamed name is undefined where the name is. -/
theorem corresponds_resolve (renames : table.Renames (names.apply kind) At other) (name : String)
    {location otherLocation : Location} (here : At location otherLocation)
    (text otherText : Option String) :
    Corresponds (names.Errors At) (Entry.Renames (names.apply kind) At)
      (table.resolve kind name location text)
      (other.resolve kind (names.apply kind name) otherLocation otherText) := by
  have found := renames.find? (names.isRenaming kind).injective_all name
  unfold Table.resolve
  generalize table.find? name = first at found
  generalize other.find? (names.apply kind name) = second at found
  cases found with
  | none =>
      rw [renames.names_eq]
      exact .error ⟨.undefined kind name table.names, .some here⟩
  | some same => exact .ok same

end Renaming

end DecimalMachine
