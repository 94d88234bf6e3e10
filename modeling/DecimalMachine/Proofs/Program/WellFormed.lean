import DecimalMachine.Proofs.Program.Image
import DecimalMachine.Proofs.Program.Needs
import DecimalMachine.Proofs.Program.Requirements
import DecimalMachine.Proofs.Source.Extent
import Mathlib.Data.Finset.Card

/-!
# Well-formed sources

A source is compiled if and only if it is well formed: every line up to the
first halt command can be read, nothing is declared twice, every command has
the operand that fits it, operands and the terms of the expressions that are
kept are declared above, and the program is not too large.

The lines and the variables that emission knows are those of the kept lines
only.  That no declared name is missing there is due to liveness: what a kept
line refers to is needed above it.
-/

namespace DecimalMachine

namespace Program

/-! ## Mentioned variables -/

/-- The variables that the code of a line works on. -/
def Marked.mentions (marked : Marked) : List String :=
  match marked.line.form with
  | .expression name first rest => if marked.kept then name :: Form.terms first rest else []
  | form => form.references

/-- The variables that the code of lines works on. -/
def mentionedNames (lines : List Marked) : Finset String :=
  (lines.flatMap Marked.mentions).toFinset

theorem exists_access_chain {target running name : String} {rest : List (Sign × String)}
    (operators : rest ≠ []) (place : name = target ∨ name ∈ Form.terms running rest) :
    ∃ opcode, Emitted.access opcode name ∈ chain target running rest := by
  induction rest generalizing running with
  | nil => exact absurd rfl operators
  | cons term more ih =>
      obtain ⟨sign, second⟩ := term
      simp only [Form.terms, List.map_cons, List.mem_cons] at place
      rcases place with rfl | rfl | rfl | later
      · exact ⟨.store, by simp [chain]⟩
      · exact ⟨.load, by simp [chain]⟩
      · exact ⟨signOpcode sign, by simp [chain]⟩
      · have further : more ≠ [] := by
          rintro rfl
          cases later
        obtain ⟨opcode, member⟩ := ih further (.inr (List.mem_cons_of_mem target later))
        exact ⟨opcode, by simp [chain, member]⟩

/-- The code of an expression works on its terms and its target. -/
theorem accessed_lower_iff {target first name : String} {rest : List (Sign × String)} :
    (∃ emitted ∈ lower target first rest, emitted.accessed? = some name) ↔
      name ∈ target :: Form.terms first rest := by
  rw [List.mem_cons]
  constructor
  · rintro ⟨emitted, member, accessed⟩
    obtain ⟨opcode, other, rfl, _, _, place⟩ := mem_of_mem_lower member
    cases accessed
    exact place
  · intro place
    have found : ∃ opcode, Emitted.access opcode name ∈ lower target first rest := by
      cases rest with
      | nil =>
          rcases place with rfl | place
          · exact ⟨.store, by simp [lower]⟩
          · cases List.mem_singleton.mp place
            exact ⟨.load, by simp [lower]⟩
      | cons term more => exact exists_access_chain (List.cons_ne_nil term more) place
    obtain ⟨opcode, member⟩ := found
    exact ⟨_, member, rfl⟩

section Emission

variable {labels : Table Nat} {symbols next final : SymbolTable} {marked : Marked}
  {code : List Emitted} {lines : List Marked} {name : String}

/-- The code of a line works on the variables that the line mentions. -/
theorem Emits.accessed_iff (emits : Emits labels symbols marked code next)
    (emittable : Emittable labels.names symbols.names marked) :
    (∃ emitted ∈ code, emitted.accessed? = some name) ↔ name ∈ marked.mentions := by
  cases emits with
  | silent undeclared uncommanded =>
      cases form : marked.line.form with
      | «variable» | expression => simp [form, Form.declares?] at undeclared
      | instruction command operand => exact absurd form (uncommanded command operand)
      | _ => simp [Marked.mentions, form, Form.references]
  | literal form => simp [Marked.mentions, form, Form.references]
  | dropped form kept => simp [Marked.mentions, form, kept]
  | lowered form kept =>
      rw [accessed_lower_iff, Marked.mentions, form]
      simp [kept]
  | halt form => simp [Marked.mentions, form, Form.references, Emitted.halt, Emitted.accessed?]
  | branch form mnemonic branches =>
      have marks := (emittable.command _ _ form).isLabelOperand_eq mnemonic
      simp [Marked.mentions, form, Form.references, Emitted.accessed?, marks, branches]
  | access form mnemonic branches =>
      have marks := (emittable.command _ _ form).isLabelOperand_eq mnemonic
      simp [Marked.mentions, form, Form.references, Emitted.access, Emitted.accessed?, marks,
        branches, eq_comm]

/-- The code of lines works on the variables that one of them mentions. -/
theorem accessed_iff_of_emit (emitted : emit labels symbols lines = .ok (code, final)) :
    (∃ instruction ∈ code, instruction.accessed? = some name) ↔
      ∃ marked ∈ lines, name ∈ marked.mentions := by
  induction lines generalizing symbols code with
  | nil =>
      cases emitted
      simp
  | cons marked below ih =>
      obtain ⟨head, next, tail, line, rest, rfl⟩ := emit_cons_eq_ok_iff.mp emitted
      have here : (∃ instruction ∈ head, instruction.accessed? = some name) ↔
          name ∈ marked.mentions :=
        (emits_of_emitLine line).accessed_iff (exists_emitLine_iff.mp ⟨head, next, line⟩)
      simp only [List.mem_append, or_and_right, exists_or, here, ih rest, List.mem_cons,
        exists_eq_left]

theorem mem_mentionedNames {name : String} :
    name ∈ mentionedNames lines ↔ ∃ marked ∈ lines, name ∈ marked.mentions := by
  simp [mentionedNames, List.mem_flatMap]

theorem mem_slots_iff {code : List Emitted} :
    name ∈ slots code ↔ ∃ emitted ∈ code, emitted.accessed? = some name := by
  constructor
  · exact accessed_of_mem_slots
  · rintro ⟨emitted, member, accessed⟩
    exact mem_slots_of_accessed member accessed

/-- A halt at the end works on no variable. -/
theorem mem_slots_close {implicitHalt : Bool} {name : String} :
    name ∈ slots (close implicitHalt code) ↔ name ∈ slots code := by
  rw [mem_slots_iff, mem_slots_iff, close]
  cases implicitHalt <;> simp [Emitted.halt, Emitted.accessed?]

/-- A program has a cell for every variable that its lines mention. -/
theorem length_slots (emitted : emit labels .empty lines = .ok (code, final))
    (implicitHalt : Bool) :
    (slots (close implicitHalt code)).length = (mentionedNames lines).card := by
  rw [← List.toFinset_card_of_nodup (nodup_slots _)]
  congr 1
  ext name
  rw [List.mem_toFinset, mem_slots_close, mem_slots_iff, accessed_iff_of_emit emitted,
    mem_mentionedNames]

end Emission

/-! ## Well-formed lines -/

/-- The lines of a program that can be compiled, with the decision which of them
are kept. -/
structure WellFormed (options : CompileOptions) (terminated : Bool) (lines : List Marked) :
    Prop where
  decided : Decided options.optimize lines
  declaredOnce : (declaredNames lines).Nodup
  labelledOnce : (labelNames lines).Nodup
  /-- The variable of a command is declared above it, and its label anywhere. -/
  command : ∀ index marked command operand, lines[index]? = some marked →
    marked.line.form = .instruction command operand →
    Command (labelNames lines) (declaredNames (lines.take index)) command operand
  /-- The terms of an expression that is kept are declared above it. -/
  terms : ∀ index marked name first rest, lines[index]? = some marked →
    marked.line.form = .expression name first rest → marked.kept = true →
    ∀ term ∈ Form.terms first rest, term ∈ declaredNames (lines.take index)
  /-- There is room for the instructions, for the halt that the program gets
  where its source does not end with one, and for the variables. -/
  size : (wordCount lines + (if terminated then 0 else 1) + (mentionedNames lines).card : Nat) ≤
    options.maxWords

section Decision

variable {optimize : Bool} {lines : List Marked} {labels : List String}

theorem mem_declaredNames_of_introduced {name : String} (member : name ∈ introducedNames lines) :
    name ∈ declaredNames lines := by
  obtain ⟨marked, memLines, introduces⟩ := List.mem_filterMap.mp member
  exact List.mem_filterMap.mpr ⟨marked, memLines, introduces?_subset introduces⟩

/-- A name that is declared above and needed there is that of a kept line. -/
theorem mem_introducedNames_of_needed (decided : Decided optimize lines) {index : Nat}
    {name : String} (declared : name ∈ declaredNames (lines.take index))
    (needed : optimize = true → ∀ above ≤ index,
      Needed ((lines.map (·.line)).drop above) name) :
    name ∈ introducedNames (lines.take index) := by
  obtain ⟨marked, member, declares⟩ := List.mem_filterMap.mp declared
  refine List.mem_filterMap.mpr ⟨marked, member, ?_⟩
  obtain ⟨above, taken⟩ := List.mem_iff_getElem?.mp member
  obtain ⟨before, here⟩ : above < index ∧ lines[above]? = some marked := by
    rw [List.getElem?_take] at taken
    split at taken
    · next before => exact ⟨before, taken⟩
    · cases taken
  cases form : marked.line.form with
  | «variable» other =>
      rw [form] at declares
      simpa [Marked.introduces?, form, Form.declares?] using declares
  | expression other first rest =>
      rw [form] at declares
      cases declares
      cases kept : marked.kept with
      | true => simp [Marked.introduces?, form, kept]
      | false =>
          obtain ⟨optimized, _, _, _, same, unneeded⟩ := (decided above marked here).mp kept
          rw [form] at same
          cases same
          exact absurd (needed optimized (above + 1) before) unneeded
  | _ =>
      rw [form] at declares
      cases declares

/-- What a kept line refers to is declared above it by a kept line, if at all. -/
theorem mem_introducedNames_iff (decided : Decided optimize lines) {index : Nat}
    {marked : Marked} {name : String} (here : lines[index]? = some marked)
    (kept : marked.kept = true) (member : name ∈ marked.line.form.references) :
    name ∈ introducedNames (lines.take index) ↔ name ∈ declaredNames (lines.take index) := by
  refine ⟨mem_declaredNames_of_introduced, fun declared => ?_⟩
  have hereLine : (lines.map (·.line))[index]? = some marked.line := by
    rw [List.getElem?_map, here]
    rfl
  obtain ⟨inside, sameLine⟩ := List.getElem?_eq_some_iff.mp hereLine
  apply mem_introducedNames_of_needed decided declared
  intro optimized above before
  apply Needed.of_drop before
  rw [List.drop_eq_getElem_cons inside, sameLine]
  apply needed_of_reference member
  intro target first rest form
  by_contra unneeded
  have dropped := (decided index marked here).mpr ⟨optimized, target, first, rest, form, unneeded⟩
  rw [kept] at dropped
  cases dropped

/-- A line that declares a variable below it is kept. -/
theorem kept_of_introduces {marked : Marked} {name : String}
    (decided : Decided optimize lines) (member : marked ∈ lines)
    (introduces : marked.introduces? = some name) : marked.kept = true := by
  cases form : marked.line.form with
  | expression other first rest =>
      cases kept : marked.kept with
      | true => rfl
      | false => simp [Marked.introduces?, form, kept] at introduces
  | _ => exact decided.kept_of_ne member (by simp [form])

/-- A declared variable is not left out. -/
theorem Assembled.notMem_eliminated {maxWords : Int} {implicitHalt : Bool} {layout : Layout}
    {body : List Emitted} {symbols : SymbolTable} {program : Program}
    (assembled : Assembled maxWords implicitHalt lines layout body symbols program)
    (decided : Decided optimize lines) {name : String} {entry : Entry Variable}
    (found : symbols.find? name = some entry) : name ∉ program.eliminated := by
  rw [assembled.eliminated]
  have introduced := Table.exists_find?_iff.mp ⟨entry, found⟩
  rw [names_of_emit assembled.emitted] at introduced
  obtain ⟨marked, member, introduces⟩ := List.mem_filterMap.mp introduced
  rw [mem_droppedNames_iff_of_mem assembled.nodup member (introduces?_subset introduces),
    Bool.not_eq_false]
  exact kept_of_introduces decided member introduces

/-- A name is declared once only. -/
theorem notMem_declaredNames_take (nodup : (declaredNames lines).Nodup) {index : Nat}
    {marked : Marked} {name : String} (here : lines[index]? = some marked)
    (declares : marked.line.form.declares? = some name) :
    name ∉ declaredNames (lines.take index) := by
  obtain ⟨inside, rfl⟩ := List.getElem?_eq_some_iff.mp here
  rw [← List.take_append_drop index lines, List.drop_eq_getElem_cons inside, declaredNames,
    List.filterMap_append] at nodup
  intro above
  refine List.disjoint_of_nodup_append nodup above ?_
  rw [List.filterMap_cons, declares]
  exact List.mem_cons_self

/-- Lines can be emitted if and only if their operands and terms are declared
above them. -/
theorem emittable_iff (decided : Decided optimize lines) (nodup : (declaredNames lines).Nodup) :
    (∀ index marked, lines[index]? = some marked →
      Emittable labels (introducedNames (lines.take index)) marked) ↔
    (∀ index marked command operand, lines[index]? = some marked →
      marked.line.form = .instruction command operand →
      Command labels (declaredNames (lines.take index)) command operand) ∧
    ∀ index marked name first rest, lines[index]? = some marked →
      marked.line.form = .expression name first rest → marked.kept = true →
      ∀ term ∈ Form.terms first rest, term ∈ declaredNames (lines.take index) := by
  constructor
  · intro emittable
    constructor
    · intro index marked command operand here form
      exact ((emittable index marked here).command command operand form).imp fun _ _ _ =>
        mem_declaredNames_of_introduced
    · intro index marked name first rest here form kept term member
      exact mem_declaredNames_of_introduced
        ((emittable index marked here).terms name first rest form kept term member)
  · rintro ⟨commands, terms⟩ index marked here
    have known : marked.kept = true → ∀ name ∈ marked.line.form.references,
        name ∈ declaredNames (lines.take index) → name ∈ introducedNames (lines.take index) :=
      fun kept _ member => (mem_introducedNames_iff decided here kept member).mpr
    refine ⟨?_, ?_, ?_⟩
    · intro name introduces introduced
      exact notMem_declaredNames_take nodup here (introduces?_subset introduces)
        (mem_declaredNames_of_introduced introduced)
    · intro name first rest form kept term member
      exact known kept term (by rwa [form])
        (terms index marked name first rest here form kept term member)
    · intro command operand form
      apply (commands index marked command operand here form).imp
      rintro name rfl unmarked declared
      have kept := decided.kept_of_ne (List.mem_of_getElem? here) (by simp [form])
      exact known kept name (by simp [form, Form.references, unmarked]) declared

end Decision

/-! ## Acceptance -/

theorem length_close (terminated : Bool) (code : List Emitted) :
    (close (!terminated) code).length = code.length + if terminated then 0 else 1 := by
  cases terminated <;> simp [close]

/-- A program is as large as its words and the variables that they mention. -/
theorem size_eq {lines : List Marked} {labels : Table Nat} {code : List Emitted}
    {final : SymbolTable} (emitted : emit labels .empty lines = .ok (code, final))
    (terminated : Bool) :
    (close (!terminated) code).length + (slots (close (!terminated) code)).length =
      wordCount lines + (if terminated then 0 else 1) + (mentionedNames lines).card := by
  rw [length_close, length_of_emit emitted, length_slots emitted]

theorem exists_assemble_iff {maxWords : Int} {code : List Emitted} {symbols : SymbolTable}
    {labels : Table Nat} {eliminated : List String} {implicitHalt : Bool} :
    (∃ program, assemble maxWords code symbols labels eliminated implicitHalt = .ok program) ↔
      (code.length + (slots code).length : Nat) ≤ maxWords := by
  simp only [assemble]
  split
  · next large => exact ⟨by rintro ⟨_, ⟨⟩⟩, fun fits => absurd large (Int.not_lt.mpr fits)⟩
  · next fits => exact ⟨fun _ => Int.not_lt.mp fits, fun _ => ⟨_, rfl⟩⟩

/-- Lines with a decision are compiled if and only if they are well formed. -/
theorem exists_ofLines_iff {options : CompileOptions} {terminated : Bool} {lines : List Line}
    (decided : Decided options.optimize (marks options.optimize lines)) :
    (∃ program, ofLines options (some terminated) lines = .ok program) ↔
      WellFormed options terminated (marks options.optimize lines) := by
  constructor
  · rintro ⟨program, compiled⟩
    obtain ⟨layout, body, symbols, assembled⟩ := assembled_of_ofLines compiled
    obtain ⟨declaredOnce, labelledOnce⟩ :=
      Layout.exists_placeAll_empty_iff.mp ⟨layout, assembled.placed⟩
    have emittable := exists_emit_iff.mp ⟨body, symbols, assembled.emitted⟩
    rw [Layout.labelNames_of_placeAll assembled.placed] at emittable
    obtain ⟨commands, terms⟩ := (emittable_iff decided declaredOnce).mp emittable
    refine ⟨decided, declaredOnce, labelledOnce, commands, terms, ?_⟩
    have closed : program.code = close (!terminated) body := assembled.code
    rw [← size_eq assembled.emitted, ← closed]
    exact assembled.size
  · intro wellFormed
    obtain ⟨layout, placed⟩ := Layout.exists_placeAll_empty_iff.mpr
      ⟨wellFormed.declaredOnce, wellFormed.labelledOnce⟩
    have labels : layout.labels.names = labelNames (marks options.optimize lines) :=
      Layout.labelNames_of_placeAll placed
    have emittable := (emittable_iff decided wellFormed.declaredOnce).mpr
      ⟨wellFormed.command, wellFormed.terms⟩
    rw [← labels] at emittable
    obtain ⟨code, symbols, emitted⟩ : ∃ code symbols,
        emit layout.labels .empty (marks options.optimize lines) = .ok (code, symbols) :=
      exists_emit_iff.mpr emittable
    have fits := wellFormed.size
    rw [← size_eq emitted] at fits
    obtain ⟨program, made⟩ := exists_assemble_iff.mpr fits
    exact ⟨program, bind_eq_ok_iff.mpr ⟨layout, placed,
      bind_eq_ok_iff.mpr ⟨(code, symbols), emitted, made⟩⟩⟩

end Program

/-- A source is compiled if and only if it is well formed up to its first halt
command. -/
theorem Compilation.exists_ofSource_iff_wellFormed (options : CompileOptions)
    (file source : String) :
    (∃ compilation, Compilation.ofSource options file source = .ok compilation) ↔
      ∃ lines : List Program.Marked,
        Source.UpToHalt (Source.numbered file source) (lines.map (·.line)) ∧
        Program.WellFormed options (Source.endsWithHalt source) lines := by
  constructor
  · rintro ⟨compilation, compiled⟩
    simp only [Compilation.ofSource, bind_eq_ok_iff] at compiled
    obtain ⟨lines, read, compiled⟩ := compiled
    split at compiled
    · next program made =>
        refine ⟨Program.marks options.optimize lines, ?_, ?_⟩
        · rw [Program.map_line_marks read]
          exact Source.readToHalt_eq_ok_iff.mp read
        · exact (Program.exists_ofLines_iff (Program.decided_marks read _)).mp ⟨program, made⟩
    · cases compiled
  · rintro ⟨lines, extent, wellFormed⟩
    have read : Source.lines file source = .ok (lines.map (·.line)) :=
      Source.readToHalt_eq_ok_iff.mpr extent
    have decided := Program.decided_marks read options.optimize
    have same : lines = Program.marks options.optimize (lines.map (·.line)) :=
      wellFormed.decided.unique decided (Program.map_line_marks read _).symm
    obtain ⟨program, made⟩ := (Program.exists_ofLines_iff decided).mpr (same ▸ wellFormed)
    refine ⟨⟨file, program, (lines.map (·.line)).length⟩, bind_eq_ok_iff.mpr ⟨_, read, ?_⟩⟩
    simp only [made]
    rfl

/-- The terms of an expression that is left out may be undeclared. -/
example :
    (Compilation.ofSource {} "unneeded" "b=a\nHALT").toOption.isSome = true ∧
      (Compilation.ofSource { optimize := false } "unneeded" "b=a\nHALT").toOption.isSome =
        false := by
  decide +kernel

end DecimalMachine
