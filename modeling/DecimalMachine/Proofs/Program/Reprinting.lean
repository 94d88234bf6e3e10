import DecimalMachine.Proofs.Program.Equivariance
import DecimalMachine.Proofs.Source.Printing

/-!
# Programs that are printed

What the texts of lines are does not matter to the compiler, except that an error
quotes one of them.  A source can therefore be printed and read again: its lines
are the same, and so is the program, or the error but for the line it quotes.
-/

namespace DecimalMachine

/-- Errors with the same cause at the same place. -/
structure CompileError.Alike (error other : CompileError) : Prop where
  complaint : other.complaint = error.complaint
  location : other.location = error.location

namespace Renaming

/-! ## No change of names -/

theorem complaint_id {complaint other : Complaint} (same : id.Complaints Eq complaint other) :
    other = complaint := by
  cases same with
  | malformed malformation =>
      cases malformation with
      | variableForLabel command operand =>
          rw [Renaming.malformation, operand_id]
      | _ => rfl
  | duplicate kind name place => rw [place, apply_id]
  | undefined kind name declared =>
      have names : declared.map (id.apply kind) = declared := List.map_id _
      rw [names, apply_id]
  | unknownCommand | missingOperand | tooLarge => rfl

theorem alike_of_errors {error other : CompileError} (errors : id.Errors Eq error other) :
    error.Alike other := by
  refine ⟨complaint_id errors.complaint, ?_⟩
  have place := errors.location
  generalize error.location = here at place
  generalize other.location = there at place
  cases place with
  | none => rfl
  | some same => rw [same]

theorem table_id {α : Type} {kind : SymbolKind} {table other : Table α}
    (renames : table.Renames (id.apply kind) Eq other) : other = table := by
  obtain ⟨entries⟩ := table
  obtain ⟨others⟩ := other
  have same : List.Forall₂ Eq entries others := by
    refine List.Forall₂.imp ?_ renames
    rintro ⟨name, location, value⟩ ⟨_, _, _⟩ ⟨⟨⟩, ⟨⟩, ⟨⟩⟩
    rfl
  rw [List.forall₂_eq_eq_eq] at same
  rw [same]

theorem emitted_id (emitted : Program.Emitted) : id.emitted emitted = emitted := by
  obtain ⟨opcode, operand⟩ := emitted
  cases operand <;> rfl

theorem emits_id {emitted other : List Program.Emitted × SymbolTable}
    (emits : id.Emits Eq emitted other) : other = emitted := by
  have code : other.1 = emitted.1 := by
    rw [emits.code, List.map_congr_left fun item _ => emitted_id item, List.map_id']
  exact Prod.ext code (table_id emits.symbols)

end Renaming

/-- Lines that say the same at the same places, and whose texts may be
different. -/
structure Line.Matches (line other : Line) : Prop where
  form : other.form = line.form
  location : other.location = line.location

/-- The texts of lines do not matter to the program. -/
theorem Program.ofLines_of_matches {lines others : List Line}
    (same : List.Forall₂ Line.Matches lines others) (options : CompileOptions)
    (terminated : Option Bool) :
    Corresponds CompileError.Alike Eq (Program.ofLines options terminated lines)
      (Program.ofLines options terminated others) := by
  have renames : List.Forall₂ (Renaming.id.Renames Eq) lines others :=
    same.imp fun line other matched =>
      ⟨matched.form.trans (Renaming.form_id line.form).symm, matched.location.symm⟩
  have marks : List.Forall₂ (Renaming.id.RenamesMarked Eq) (Program.marks options.optimize lines)
      (Program.marks options.optimize others) :=
    Renaming.renamesMarked_upToHalt (Renaming.renamesMarked_mark renames options.optimize).1
  have nothing : Renaming.id.Layouts Eq .empty .empty := ⟨.nil, .nil, rfl⟩
  have laidOut := (Renaming.corresponds_placeAll marks nothing).mono
    (fun _ _ => Renaming.alike_of_errors) fun _ _ layouts => layouts
  refine laidOut.bind fun layout otherLayout layouts => ?_
  have emitted := (Renaming.corresponds_emit layouts.labels marks .nil).mono
    (fun _ _ => Renaming.alike_of_errors) fun _ _ emits => Renaming.emits_id emits
  refine emitted.bind ?_
  rintro ⟨code, symbols⟩ _ rfl
  have dropped : Program.droppedNames (Program.marks options.optimize others) =
      Program.droppedNames (Program.marks options.optimize lines) :=
    (Renaming.droppedNames_renamed marks).trans (List.map_id _)
  simp only [dropped, Renaming.needsHalt_renamed marks, Renaming.table_id layouts.labels]
  exact .refl (fun _ => ⟨rfl, rfl⟩) _

/-- A source is printed and read again.  Its lines are what they were, but for
their texts; they are compiled to the same program or refused for the same reason
at the same line; and they are printed as before. -/
theorem Source.printed_read_again {file source : String} {lines : List Line}
    (read : Source.lines file source = .ok lines) :
    Source.lines file (Source.print lines) = .ok (lines.map Line.reprinted) ∧
      Source.print (lines.map Line.reprinted) = Source.print lines ∧
      ∀ (options : CompileOptions) (terminated : Option Bool),
        Corresponds CompileError.Alike Eq (Program.ofLines options terminated lines)
          (Program.ofLines options terminated (lines.map Line.reprinted)) := by
  refine ⟨read_print read, print_reprinted lines, fun options terminated => ?_⟩
  apply Program.ofLines_of_matches
  exact List.forall₂_map_right_iff.mpr (List.forall₂_same.mpr fun _ _ => ⟨rfl, rfl⟩)

/-- The source has blanks of several kinds, three kinds of terminators and a
literal with a sign and a leading zero. -/
theorem Source.printed_read_again_untidy :
    let source := " >  note \r\n\tn = + 0 7\u2028\n m=n - n+ n \u000B@a\nREAD \t n\n" ++
      " BRANCH\u00A0@a\nHALT\n?"
    ∃ lines, Source.lines "untidy" source = .ok lines ∧
      Source.print lines = ">  note\nn=7\n\nm=n-n+n\n@a\nREAD n\nBRANCH @a\nHALT\n" ∧
      Source.lines "untidy" (Source.print lines) = .ok (lines.map Line.reprinted) ∧
      Source.print (lines.map Line.reprinted) = Source.print lines ∧
      ∀ (options : CompileOptions) (terminated : Option Bool),
        Corresponds CompileError.Alike Eq (Program.ofLines options terminated lines)
          (Program.ofLines options terminated (lines.map Line.reprinted)) := by
  intro source
  have printed : ((Source.lines "untidy" source).map Source.print).toOption =
      some ">  note\nn=7\n\nm=n-n+n\n@a\nREAD n\nBRANCH @a\nHALT\n" := by
    decide +kernel
  obtain ⟨lines, read, printed⟩ := of_toOption_map_eq_some printed
  exact ⟨lines, read, printed, printed_read_again read⟩

end DecimalMachine
