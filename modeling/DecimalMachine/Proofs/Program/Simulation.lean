import DecimalMachine.Proofs.Program.Acceptance
import DecimalMachine.Proofs.Semantics.Code

/-!
# Simulation of lines by their code

A line and the code it emits do the same.  A line that emits nothing does
nothing, an instruction line does what its instruction does, and the code of an
expression leaves the value of the expression in its variable and in the
accumulator.  A label stands for the first instruction that is emitted below
it, so branches lead to corresponding places.
-/

namespace DecimalMachine.Program

open Semantics

/-- The end of a program by its lines and by its code: the values are the same,
except that an expression may be left halfway when a number is too long. -/
structure SameEnd (source target : Stop × Values) : Prop where
  stop : target.1 = source.1
  inputs : target.2.inputs = source.2.inputs
  outputs : target.2.outputs = source.2.outputs
  values : (∀ error, source.1 ≠ .tooLong error) → target.2 = source.2

theorem SameEnd.refl (ending : Stop × Values) : SameEnd ending ending :=
  ⟨rfl, rfl, rfl, fun _ => rfl⟩

/-! ## Expressions -/

/-- Two outcomes of an operation are the same values or the same end. -/
inductive Agrees : Except (Stop × Values) Values → Except (Stop × Values) Values → Prop where
  | ok (values : Values) : Agrees (.ok values) (.ok values)
  | error {source target : Stop × Values} (same : SameEnd source target) :
      Agrees (.error source) (.error target)

theorem perform_signOpcode (values : Values) (sign : Sign) (term : String) :
    values.perform term (signOpcode sign) = values.combine sign term := by
  cases sign <;> rfl

/-- One operator is a load, an operation and a store. -/
theorem performAll_operator (values : Values) (target running term : String) (sign : Sign)
    (rest : List Emitted) :
    performAll values (.access .load running :: .access (signOpcode sign) term ::
        .access .store target :: rest) =
      let result := sign.apply (values.contents running) (values.contents term)
      if Decimal.Writable result then performAll (values.assign target result) rest
      else .error (.tooLong .result,
        { values with accumulator := values.contents running }) := by
  simp only [performAll_access_cons, perform_signOpcode]
  simp only [Values.perform, Values.combine]
  by_cases writable :
      Decimal.Writable (sign.apply (values.contents running) (values.contents term))
  · rw [if_pos writable, if_pos writable]
    rfl
  · rw [if_neg writable, if_neg writable]

variable {target first : String} {rest : List (Sign × String)}

/-- The operators after the first one find the running value in the target. -/
theorem agrees_chain (fresh : target ∉ rest.map (·.2)) (values : Values) (running : Int) :
    Agrees (values.conclude target (Values.fold values.contents running rest))
      (performAll (values.assign target running) (chain target target rest)) := by
  induction rest generalizing running with
  | nil => exact .ok _
  | cons operator rest ih =>
      obtain ⟨sign, term⟩ := operator
      rw [List.map_cons, List.mem_cons, not_or] at fresh
      have other : (values.assign target running).contents term = values.contents term :=
        Values.contents_assign_of_ne running (Ne.symm fresh.1)
      simp only [chain, performAll_operator, Values.contents_assign_self, other,
        Values.assign_assign, Values.fold]
      split
      · exact ih fresh.2 _
      · exact .error ⟨rfl, rfl, rfl, fun short => absurd rfl (short _)⟩

/-- The code of an expression gives its value to the target. -/
theorem agrees_lower (fresh : target ∉ rest.map (·.2)) (values : Values) :
    Agrees (values.evaluate target first rest) (performAll values (lower target first rest)) := by
  cases rest with
  | nil => exact .ok _
  | cons operator rest =>
      obtain ⟨sign, term⟩ := operator
      rw [List.map_cons, List.mem_cons, not_or] at fresh
      simp only [lower, List.isEmpty_cons, Bool.false_eq_true, if_false, chain,
        performAll_operator, Values.evaluate, Values.fold]
      split
      · exact agrees_chain fresh.2 values _
      · exact .error ⟨rfl, rfl, rfl, fun short => absurd rfl (short _)⟩

/-! ## Lines -/

/-- A point in the lines of a program and the point in its code. -/
structure Matches (lines : List Marked) (code : List Emitted) (source target : Point) : Prop where
  position : target.position = wordCount (lines.take source.position)
  values : target.values = source.values
  within : source.position ≤ lines.length
  inside : target.position < code.length

/-- The code does in some steps what the lines do in one. It takes none only
where the lines come closer to their end. -/
inductive Answers (lines : List Marked) (code : List Emitted) (source target : Point) :
    Except (Stop × Values) Point → Prop where
  | ok {next matched : Point} {n : Nat} (steps : after (codeStep code) n target = .ok matched)
      (related : Matches lines code next matched)
      (progress : 0 < n ∨ lines.length - next.position < lines.length - source.position) :
      Answers lines code source target (.ok next)
  | error {ending matched : Stop × Values} {n : Nat}
      (steps : after (codeStep code) n target = .error matched) (same : SameEnd ending matched) :
      Answers lines code source target (.error ending)

theorem wordCount_take_succ {lines : List Marked} {index : Nat} {marked : Marked}
    (here : lines[index]? = some marked) :
    wordCount (lines.take (index + 1)) = wordCount (lines.take index) + marked.size := by
  rw [List.take_add_one, here, Option.toList_some, wordCount_append, wordCount_cons, wordCount_nil,
    Nat.add_zero]

/-- The code of a line stands behind the words of the lines above it. -/
structure Stands (labels : Table Nat) (lines : List Marked) (code : List Emitted) (index : Nat)
    (marked : Marked) (above emitted below : List Emitted) (symbols next : SymbolTable) :
    Prop where
  here : lines[index]? = some marked
  code : code = above ++ emitted ++ below
  place : above.length = wordCount (lines.take index)
  emits : Emits labels symbols marked emitted next

/-- The only instruction of a line is the next one of the code. -/
theorem Stands.codeStep_eq {labels : Table Nat} {lines : List Marked} {code : List Emitted}
    {source target : Point} {marked : Marked} {above below : List Emitted} {instruction : Emitted}
    {symbols next : SymbolTable}
    (stands : Stands labels lines code source.position marked above [instruction] below
      symbols next) (related : Matches lines code source target) :
    codeStep code target = emittedStep instruction target := by
  apply codeStep_of_getElem?
  rw [stands.code, related.position, ← stands.place]
  simp

namespace Assembled

variable {maxWords : Int} {implicitHalt : Bool} {lines : List Marked} {layout : Layout}
  {body : List Emitted} {symbols : SymbolTable} {program : Program}

theorem exists_stands
    (assembled : Assembled maxWords implicitHalt lines layout body symbols program)
    {index : Nat} {marked : Marked} (here : lines[index]? = some marked) :
    ∃ above emitted below symbolsAbove next,
      Stands layout.labels lines program.code index marked above emitted below symbolsAbove
        next := by
  obtain ⟨inside, rfl⟩ := List.getElem?_eq_some_iff.mp here
  have emitted := assembled.emitted
  rw [← List.take_append_drop index lines, List.drop_eq_getElem_cons inside] at emitted
  obtain ⟨above, rest, symbolsAbove, aboveOk, restOk, bodyEq⟩ := emit_append_eq_ok emitted
  obtain ⟨line, below, next, emits, _, rfl⟩ := emit_cons_eq_ok restOk
  by_cases implicit : implicitHalt = true
  · refine ⟨above, line, below ++ [.halt], symbolsAbove, next, here, ?_, length_of_emit aboveOk,
      emits⟩
    rw [assembled.code, close, if_pos implicit, bodyEq]
    simp
  · refine ⟨above, line, below, symbolsAbove, next, here, ?_, length_of_emit aboveOk, emits⟩
    rw [assembled.code, close, if_neg implicit, bodyEq]
    simp

/-- Below a line that is no halt there is more code. -/
theorem wordCount_take_succ_lt
    (assembled : Assembled maxWords implicitHalt lines layout body symbols program)
    (ends : Ends implicitHalt lines) {index : Nat} {marked : Marked}
    (here : lines[index]? = some marked) (going : marked.line.isHalt = false) :
    wordCount (lines.take (index + 1)) < program.code.length := by
  obtain ⟨inside, _⟩ := List.getElem?_eq_some_iff.mp here
  by_cases more : index + 1 < lines.length
  · exact assembled.wordCount_take_lt ends more
  · have final : index = lines.length - 1 := by omega
    rcases ends with implicit | ⟨last, lastLine, halt⟩
    · rw [assembled.code, close, if_pos implicit, List.length_append, assembled.length_body]
      exact Nat.lt_succ_of_le (wordCount_take_le lines (index + 1))
    · rw [List.getLast?_eq_getElem?, ← final, here] at lastLine
      cases lastLine
      rw [going] at halt
      cases halt

/-- The lines end where the code has the halt that they do not have. -/
theorem answers_end
    (assembled : Assembled maxWords implicitHalt lines layout body symbols program)
    {source target : Point} (related : Matches lines program.code source target)
    (passed : lines[source.position]? = none) :
    Answers lines program.code source target (.error (.halted, source.values)) := by
  have position : target.position = body.length := by
    have last : source.position = lines.length :=
      Nat.le_antisymm related.within (List.getElem?_eq_none_iff.mp passed)
    rw [related.position, last, List.take_length, assembled.length_body]
  have halt : program.code[target.position]? = some .halt := by
    have inside := related.inside
    rw [position, assembled.code, close] at inside ⊢
    by_cases implicit : implicitHalt = true
    · rw [if_pos implicit]
      simp
    · rw [if_neg implicit] at inside
      exact absurd inside (Nat.lt_irrefl _)
  have ended : codeStep program.code target = .error (.halted, source.values) := by
    rw [codeStep_of_getElem? halt, ← related.values]
    rfl
  exact .error ((after_one _ _).trans ended) (.refl _)

section Line

variable {source target : Point} {above emitted below : List Emitted}
  {symbolsAbove next : SymbolTable} {marked : Marked}

/-- Behind the code of a line stands the code of the line below. -/
theorem matches_next
    (assembled : Assembled maxWords implicitHalt lines layout body symbols program)
    (ends : Ends implicitHalt lines)
    (stands : Stands layout.labels lines program.code source.position marked above emitted below
      symbolsAbove next) (going : emitted ≠ [.halt]) (values : Values) :
    Matches lines program.code (source.next values) ⟨above.length + emitted.length, values⟩ := by
  obtain ⟨inside, _⟩ := List.getElem?_eq_some_iff.mp stands.here
  have noHalt : marked.line.isHalt = false := by
    rw [← Bool.not_eq_true]
    intro halt
    exact going (stands.emits.eq_halt_of_isHalt halt)
  have position : above.length + emitted.length = wordCount (lines.take (source.position + 1)) := by
    rw [wordCount_take_succ stands.here, stands.place, stands.emits.length_eq]
  refine ⟨position, rfl, inside, ?_⟩
  rw [position]
  exact assembled.wordCount_take_succ_lt ends stands.here noHalt

/-- A line that emits nothing but operations on variables is answered by
them. -/
theorem answers_of_agrees
    (assembled : Assembled maxWords implicitHalt lines layout body symbols program)
    (ends : Ends implicitHalt lines) (related : Matches lines program.code source target)
    (stands : Stands layout.labels lines program.code source.position marked above emitted below
      symbolsAbove next)
    (accesses : ∀ instruction ∈ emitted, ∃ opcode name, instruction = .access opcode name)
    {outcome : Except (Stop × Values) Values}
    (agrees : Agrees outcome (performAll source.values emitted)) :
    Answers lines program.code source target (source.proceed outcome) := by
  have start : target = ⟨above.length, source.values⟩ := by
    rw [stands.place, ← related.position, ← related.values]
  have run := after_length accesses above below source.values
  rw [← stands.code, ← start] at run
  have going : emitted ≠ [.halt] := by
    rintro rfl
    obtain ⟨opcode, name, shape⟩ := accesses _ List.mem_cons_self
    cases shape
  generalize performAll source.values emitted = performed at agrees run
  cases agrees with
  | ok values =>
      refine .ok run (assembled.matches_next ends stands going values) (.inr ?_)
      obtain ⟨inside, _⟩ := List.getElem?_eq_some_iff.mp stands.here
      change lines.length - (source.position + 1) < lines.length - source.position
      omega
  | error same => exact .error run same

/-- A line without code is answered by no step. -/
theorem answers_of_nil
    (assembled : Assembled maxWords implicitHalt lines layout body symbols program)
    (ends : Ends implicitHalt lines) (related : Matches lines program.code source target)
    (stands : Stands layout.labels lines program.code source.position marked above [] below
      symbolsAbove next) :
    Answers lines program.code source target (.ok (source.next source.values)) :=
  assembled.answers_of_agrees ends related stands (by simp) (.ok source.values)

/-- A label leads to the code below it. -/
theorem matches_label
    (assembled : Assembled maxWords implicitHalt lines layout body symbols program)
    (ends : Ends implicitHalt lines) {operand : String} {entry : Entry Nat}
    (found : layout.labels.find? (.ofList (operand.toList.drop 1)) = some entry)
    (values : Values) :
    ∃ line, target? (lines.map (·.line)) operand = some line ∧
      Matches lines program.code ⟨line, values⟩ ⟨entry.value, values⟩ := by
  obtain ⟨line, place, value⟩ := assembled.label found
  obtain ⟨inside, _⟩ := List.findIdx?_eq_some_iff_getElem.mp place
  rw [List.length_map] at inside
  exact ⟨line, place, value, rfl, Nat.le_of_lt inside, assembled.label_lt ends found⟩

theorem answers_branch
    (assembled : Assembled maxWords implicitHalt lines layout body symbols program)
    (ends : Ends implicitHalt lines) (related : Matches lines program.code source target)
    {command operand : String} {opcode : Opcode} {entry : Entry Nat}
    (stands : Stands layout.labels lines program.code source.position marked above
      [⟨opcode, .target entry.value⟩] below symbolsAbove next)
    (mnemonic : Opcode.ofMnemonic? command = some opcode) (branch : opcode.isBranch = true)
    (label : layout.labels.find? (.ofList (operand.toList.drop 1)) = some entry) :
    Answers lines program.code source target
      (commandStep (lines.map (·.line)) command (some operand) source) := by
  have step := stands.codeStep_eq related
  simp only [emittedStep, related.values] at step
  obtain ⟨line, found, matched⟩ := assembled.matches_label ends label source.values
  simp only [commandStep, mnemonic, branch, if_true, found]
  by_cases taken : source.values.branches opcode = true
  · rw [if_pos taken] at step ⊢
    exact .ok ((after_one _ _).trans step) matched (.inl Nat.one_pos)
  · have passed := assembled.matches_next ends stands (by simp [Emitted.halt]) source.values
    rw [stands.place, ← related.position] at passed
    rw [if_neg taken] at step ⊢
    exact .ok ((after_one _ _).trans step) passed (.inl Nat.one_pos)

theorem answers_access
    (assembled : Assembled maxWords implicitHalt lines layout body symbols program)
    (ends : Ends implicitHalt lines) (related : Matches lines program.code source target)
    {command operand : String} {opcode : Opcode}
    (stands : Stands layout.labels lines program.code source.position marked above
      [.access opcode operand] below symbolsAbove next)
    (mnemonic : Opcode.ofMnemonic? command = some opcode) (branch : opcode.isBranch = false) :
    Answers lines program.code source target
      (commandStep (lines.map (·.line)) command (some operand) source) := by
  simp only [commandStep, mnemonic, branch, Bool.false_eq_true, if_false]
  apply assembled.answers_of_agrees ends related stands
  · intro instruction member
    exact ⟨opcode, operand, List.mem_singleton.mp member⟩
  · rw [performAll_access_cons]
    cases source.values.perform operand opcode with
    | ok values => exact .ok values
    | error ending => exact .error (.refl ending)

theorem answers_expression
    (assembled : Assembled maxWords implicitHalt lines layout body symbols program)
    (ends : Ends implicitHalt lines) (related : Matches lines program.code source target)
    {name first : String} {rest : List (Sign × String)}
    (stands : Stands layout.labels lines program.code source.position marked above
      (lower name first rest) below symbolsAbove next)
    (known : ∀ term ∈ Form.terms first rest, ∃ entry, symbolsAbove.find? term = some entry)
    (fresh : symbolsAbove.find? name = none) :
    Answers lines program.code source target
      (source.proceed (source.values.evaluate name first rest)) := by
  have unused : name ∉ rest.map (·.2) := by
    intro used
    obtain ⟨entry, found⟩ := known name (List.mem_cons_of_mem _ used)
    rw [fresh] at found
    cases found
  apply assembled.answers_of_agrees ends related stands
  · intro instruction member
    obtain ⟨opcode, other, shape, _⟩ := mem_of_mem_lower member
    exact ⟨opcode, other, shape⟩
  · exact agrees_lower unused source.values

end Line

/-- The code of a program answers each of its lines. -/
theorem answers (assembled : Assembled maxWords implicitHalt lines layout body symbols program)
    (ends : Ends implicitHalt lines) {source target : Point}
    (related : Matches lines program.code source target) :
    Answers lines program.code source target
      (lineStep program.eliminated (lines.map (·.line)) source) := by
  cases here : lines[source.position]? with
  | none =>
      simp only [lineStep, List.getElem?_map, here, Option.map_none]
      exact assembled.answers_end related here
  | some marked =>
      obtain ⟨above, emitted, below, symbolsAbove, next, stands⟩ := assembled.exists_stands here
      have line : (lines.map (·.line))[source.position]? = some marked.line := by
        rw [List.getElem?_map, here]
        rfl
      have dropped : ∀ name, marked.line.form.declares? = some name →
          (name ∈ droppedNames lines ↔ marked.kept = false) := fun _ =>
        mem_droppedNames_iff_of_mem assembled.nodup (List.mem_of_getElem? here)
      cases emits : stands.emits with
      | silent undeclared uncommanded =>
          cases form : marked.line.form with
          | «variable» name value | expression name first rest =>
              simp [form, Form.declares?] at undeclared
          | instruction command operand => exact absurd form (uncommanded command operand)
          | blank | comment | label =>
              simp only [lineStep, line, form]
              exact assembled.answers_of_nil ends related stands
      | literal form fresh =>
          simp only [lineStep, line, form]
          exact assembled.answers_of_nil ends related stands
      | @dropped name first rest form kept =>
          have eliminated : name ∈ program.eliminated := by
            rw [assembled.eliminated]
            exact (dropped name (by rw [form]; rfl)).mpr kept
          simp only [lineStep, line, form, if_pos eliminated]
          exact assembled.answers_of_nil ends related stands
      | @lowered name first rest form kept known fresh =>
          have eliminated : name ∉ program.eliminated := by
            rw [assembled.eliminated, dropped name (by rw [form]; rfl), kept]
            simp
          simp only [lineStep, line, form, if_neg eliminated]
          exact assembled.answers_expression ends related stands known fresh
      | halt form opcode =>
          have ended := stands.codeStep_eq related
          rw [emittedStep_halt, related.values] at ended
          simp only [lineStep, line, form, commandStep, opcode]
          exact .error ((after_one _ _).trans ended) (.refl _)
      | branch form mnemonic branch label =>
          simp only [lineStep, line, form]
          exact assembled.answers_branch ends related stands mnemonic branch label
      | access form mnemonic branch halt known =>
          simp only [lineStep, line, form]
          exact assembled.answers_access ends related stands mnemonic branch

theorem simulation (assembled : Assembled maxWords implicitHalt lines layout body symbols program)
    (ends : Ends implicitHalt lines) :
    Simulation (lineStep program.eliminated (lines.map (·.line))) (codeStep program.code)
      (Matches lines program.code) SameEnd (fun point => lines.length - point.position) where
  step := by
    intro source target next related taken
    have answered := assembled.answers ends related
    rw [taken] at answered
    cases answered with
    | ok steps matched progress => exact ⟨_, _, steps, matched, progress⟩
  ending := by
    intro source target ending related taken
    have answered := assembled.answers ends related
    rw [taken] at answered
    cases answered with
    | error steps same => exact ⟨_, _, steps, same⟩

end Assembled

end DecimalMachine.Program
