import DecimalMachine.Proofs.Program.Rearrangement
import DecimalMachine.Proofs.Program.WellFormed

/-!
# Chains of references

An optimized program keeps an expression if and only if a chain of references
leads from it to an instruction.  Every line of a chain stands below the one
before it and refers to the variable that this one declares, and all but the last
of them are expressions.

The decision is made by one walk over the lines from below, which never forgets
a name that it has met.  Names are declared once, so that the variable of an
expression that is left out is not declared by any other line either, and nothing
of it remains in the program.
-/

namespace DecimalMachine

/-- The variable that an expression computes. -/
def Form.computes? : Form → Option String
  | .expression name _ _ => some name
  | _ => none

theorem Form.computes?_eq_some_iff {form : Form} {name : String} :
    form.computes? = some name ↔ ∃ first rest, form = .expression name first rest := by
  cases form <;> simp [computes?]

namespace Program

/-! ## Chains -/

/-- The line at a position is the expression of a variable. -/
def ComputesAt (lines : List Line) (position : Nat) (name : String) : Prop :=
  ∃ line, lines[position]? = some line ∧ line.form.computes? = some name

/-- The line at a position is an instruction. -/
def CommandsAt (lines : List Line) (position : Nat) : Prop :=
  ∃ line command operand, lines[position]? = some line ∧
    line.form = .instruction command operand

/-- The line at a position refers to a variable: an expression by one of its
terms, and an instruction by an operand that is no label. -/
inductive RefersAt (lines : List Line) (position : Nat) (name : String) : Prop where
  | term {line : Line} {target first : String} {rest : List (Sign × String)}
      (here : lines[position]? = some line) (form : line.form = .expression target first rest)
      (member : name ∈ Form.terms first rest) : RefersAt lines position name
  | operand {line : Line} {command : String} (here : lines[position]? = some line)
      (form : line.form = .instruction command (some name))
      (unmarked : Form.isLabelOperand name = false) : RefersAt lines position name

/-- A line refers to the variable of an expression above it. -/
def Links (lines : List Line) (above below : Nat) : Prop :=
  above < below ∧ ∃ name, ComputesAt lines above name ∧ RefersAt lines below name

/-- Positions that lead from an expression to an instruction, the last of them. -/
structure Chain (lines : List Line) (start : Nat) (positions : List Nat) : Prop where
  links : (start :: positions).IsChain (Links lines)
  ends : ∃ last, positions.getLast? = some last ∧ CommandsAt lines last

/-- A chain begins at a position. -/
def IsLive (lines : List Line) (start : Nat) : Prop :=
  ∃ positions, Chain lines start positions

section Chains

variable {lines : List Line} {start below : Nat} {name : String}

theorem ComputesAt.unique {other : String} (first : ComputesAt lines start name)
    (second : ComputesAt lines start other) : name = other := by
  rcases first with ⟨line, here, computes⟩
  rcases second with ⟨_, same, otherComputes⟩
  rw [here] at same
  cases same
  rw [computes] at otherComputes
  exact Option.some.inj otherComputes

/-- An expression is no instruction. -/
theorem ComputesAt.not_commandsAt (computes : ComputesAt lines start name) :
    ¬ CommandsAt lines start := by
  rintro ⟨_, command, operand, same, form⟩
  rcases computes with ⟨line, here, computes⟩
  rw [here] at same
  cases same
  rw [form] at computes
  cases computes

/-- A chain begins where one line links to an instruction or to another chain. -/
theorem IsLive.of_links (links : Links lines start below)
    (leads : CommandsAt lines below ∨ IsLive lines below) : IsLive lines start := by
  rcases leads with commands | ⟨positions, chain⟩
  · exact ⟨[below], .cons_cons links (.singleton below), below, rfl, commands⟩
  · rcases chain.ends with ⟨last, ends, commands⟩
    refine ⟨below :: positions, .cons_cons links chain.links, last, ?_, commands⟩
    rw [List.getLast?_cons, ends]
    rfl

/-- The variable at the start of a chain is needed below it. -/
theorem Chain.needed {positions : List Nat} (chain : Chain lines start positions)
    (computes : ComputesAt lines start name) : Needed (lines.drop (start + 1)) name := by
  -- Induction along the chain: the rest of it makes its second line needed.
  induction positions generalizing start name with
  | nil =>
      obtain ⟨_, ends, _⟩ := chain.ends
      cases ends
  | cons next rest ih =>
      rcases chain.links with _ | _ | ⟨⟨before, other, otherComputes, refers⟩, links⟩
      rw [computes.unique otherComputes]
      cases refers with
      | operand here form unmarked => exact needed_of_operand here before form unmarked
      | @term line target first more here form member =>
          have nextComputes : ComputesAt lines next target :=
            ⟨line, here, Form.computes?_eq_some_iff.mpr ⟨first, more, form⟩⟩
          refine needed_of_term here before form (ih ⟨links, ?_⟩ nextComputes) member
          rcases chain.ends with ⟨last, ends, commands⟩
          cases rest with
          | nil =>
              cases ends
              exact absurd commands nextComputes.not_commandsAt
          | cons second tail => exact ⟨last, by rwa [List.getLast?_cons_cons] at ends, commands⟩

/-- A name that lines need is referred to by an instruction among them, or at the
start of a chain. -/
theorem Needed.exists_refersAt {lines : List Line} (needed : Needed lines name)
    (above : List Line) :
    ∃ position, above.length ≤ position ∧ RefersAt (above ++ lines) position name ∧
      (CommandsAt (above ++ lines) position ∨ IsLive (above ++ lines) position) := by
  -- The lines above grow as the induction goes down, the whole stays the same.
  have whole : ∀ (line : Line) (below : List Line),
      above ++ line :: below = (above ++ [line]) ++ below := by simp
  have here : ∀ (line : Line) (below : List Line),
      (above ++ line :: below)[above.length]? = some line := by simp
  induction needed generalizing above with
  | @operand line below command name form unmarked =>
      exact ⟨above.length, Nat.le_refl _, .operand (here line below) form unmarked,
        .inl ⟨line, command, some name, here line below, form⟩⟩
  | @term line below target first name rest form needed member ih =>
      rcases ih (above ++ [line]) (by simp) (by simp) with ⟨position, after, refers, leads⟩
      rw [← whole] at refers leads
      rw [List.length_append, List.length_singleton] at after
      have computes : ComputesAt (above ++ line :: below) above.length target :=
        ⟨line, here line below, Form.computes?_eq_some_iff.mpr ⟨first, rest, form⟩⟩
      exact ⟨above.length, Nat.le_refl _, .term (here line below) form member,
        .inr (.of_links ⟨after, target, computes, refers⟩ leads)⟩
  | @later line below name needed ih =>
      rcases ih (above ++ [line]) (by simp) (by simp) with ⟨position, after, refers, leads⟩
      rw [← whole] at refers leads
      rw [List.length_append] at after
      exact ⟨position, Nat.le_trans (Nat.le_add_right _ _) after, refers, leads⟩

/-- A chain begins at an expression if and only if its variable is needed. -/
theorem ComputesAt.isLive_iff (computes : ComputesAt lines start name) :
    IsLive lines start ↔ Needed (lines.drop (start + 1)) name := by
  constructor
  · rintro ⟨positions, chain⟩
    exact chain.needed computes
  · intro needed
    rcases computes with ⟨line, here, form⟩
    rcases List.getElem?_eq_some_iff.mp here with ⟨inside, _⟩
    rcases needed.exists_refersAt (lines.take (start + 1)) with ⟨position, after, refers, leads⟩
    rw [List.take_append_drop] at refers leads
    rw [List.length_take_of_le inside] at after
    exact .of_links ⟨after, name, ⟨line, here, form⟩, refers⟩ leads

theorem isLive_iff : IsLive lines start ↔
    ∃ name ∈ lines[start]?.bind (·.form.computes?), Needed (lines.drop (start + 1)) name := by
  have computesAt : ∀ name, name ∈ lines[start]?.bind (·.form.computes?) ↔
      ComputesAt lines start name := fun name => Option.bind_eq_some_iff
  constructor
  · rintro ⟨positions, chain⟩
    rcases chain with ⟨links, last, ends, commands⟩
    rcases links with _ | _ | ⟨⟨before, name, computes, refers⟩, links⟩
    · cases ends
    · exact ⟨name, (computesAt name).mpr computes,
        computes.isLive_iff.mp ⟨_, .cons_cons ⟨before, name, computes, refers⟩ links, last, ends,
          commands⟩⟩
  · rintro ⟨name, computes, needed⟩
    exact ((computesAt name).mp computes).isLive_iff.mpr needed

instance (lines : List Line) (name : String) : Decidable (Needed lines name) :=
  decidable_of_iff _ mem_mark_iff

instance (lines : List Line) (start : Nat) : Decidable (IsLive lines start) :=
  decidable_of_iff _ isLive_iff.symm

end Chains

/-! ## What is kept -/

/-- What an optimized program has of its expressions, given the pieces of code of
its lines. -/
structure KeepsLive (lines : List Line) (program : Program) (pieces : List (List Emitted)) :
    Prop where
  /-- The decision keeps the expressions at which a chain begins. -/
  kept : ∀ position marked name, (marks true lines)[position]? = some marked →
    marked.line.form.computes? = some name → (marked.kept = true ↔ IsLive lines position)
  /-- The variables of the others are listed in the order of the lines. -/
  eliminated : program.eliminated = lines.zipIdx.filterMap fun (line, position) =>
    if IsLive lines position then none else line.form.computes?
  declared : ∀ position name, ComputesAt lines position name → IsLive lines position →
    name ∈ program.symbols.names
  undeclared : ∀ name ∈ program.eliminated, name ∉ program.symbols.names
  /-- The instructions are those of the lines and the halt that the program gets. -/
  code : program.code = close program.implicitHalt pieces.flatten
  size : pieces.length = lines.length
  piece : ∀ position line name first rest, lines[position]? = some line →
    line.form = .expression name first rest →
    pieces[position]? = some (if IsLive lines position then lower name first rest else [])
  /-- Every other word is that of a variable that instructions work on. -/
  words : program.words.length = program.code.length + (slots program.code).length
  unreferenced : ∀ name ∈ program.eliminated, name ∉ slots program.code

section Marks

variable {file source : String} {lines : List Line}

/-- A line is marked at its own position. -/
theorem getElem?_marks (read : Source.lines file source = .ok lines) {optimize : Bool}
    {position : Nat} {line : Line} (here : lines[position]? = some line) :
    ∃ kept, (marks optimize lines)[position]? = some ⟨line, kept⟩ := by
  rw [← map_line_marks read optimize, List.getElem?_map, Option.map_eq_some_iff] at here
  rcases here with ⟨⟨_, kept⟩, here, rfl⟩
  exact ⟨kept, here⟩

/-- The lines of a source are kept where a chain begins. -/
theorem kept_iff_isLive (read : Source.lines file source = .ok lines) {position : Nat}
    {marked : Marked} {name : String} (here : (marks true lines)[position]? = some marked)
    (computes : marked.line.form.computes? = some name) :
    marked.kept = true ↔ IsLive lines position := by
  have hereLine : lines[position]? = some marked.line := by
    rw [← map_line_marks read true, List.getElem?_map, here]
    rfl
  have computesAt : ComputesAt lines position name := ⟨marked.line, hereLine, computes⟩
  have decision := decided_marks read true position marked here
  rw [map_line_marks read] at decision
  rw [computesAt.isLive_iff, ← not_iff_not, Bool.not_eq_true, decision]
  rcases Form.computes?_eq_some_iff.mp computes with ⟨first, rest, form⟩
  simp [form]

/-- The variables that are left out are those of expressions at which no chain
begins. -/
theorem droppedNames_marks (read : Source.lines file source = .ok lines) :
    droppedNames (marks true lines) = lines.zipIdx.filterMap fun (line, position) =>
      if IsLive lines position then none else line.form.computes? := by
  calc
    droppedNames (marks true lines) =
        ((marks true lines).zipIdx.map Prod.fst).filterMap
          fun marked => if marked.kept then none else marked.line.form.declares? := by
      rw [List.zipIdx_map_fst]
      rfl
    _ = (marks true lines).zipIdx.filterMap fun (marked, position) =>
          if IsLive lines position then none else marked.line.form.computes? := by
      rw [List.filterMap_map]
      apply List.filterMap_congr
      rintro ⟨marked, position⟩ member
      have here := List.mem_zipIdx_iff_getElem?.mp member
      cases computes : marked.line.form.computes? with
      | none =>
          have kept : marked.kept = true := by
            apply (decided_marks read true).kept_of_ne (List.mem_of_getElem? here)
            intro name first rest form
            rw [form] at computes
            cases computes
          simp [kept, computes]
      | some name =>
          have declares : marked.line.form.declares? = some name := by
            rcases Form.computes?_eq_some_iff.mp computes with ⟨first, rest, form⟩
            rw [form]
            rfl
          have decision := kept_iff_isLive read here computes
          simp only [Function.comp_apply, declares, computes]
          exact if_congr decision rfl rfl
    _ = _ := by
      conv_rhs => rw [← map_line_marks read true, List.zipIdx_map, List.filterMap_map]
      simp only [map_line_marks read]
      rfl

end Marks

/-- An optimized program keeps exactly the expressions at which a chain begins.
Of the others it has neither an instruction nor a variable. -/
theorem keepsLive_of_ofLines {file source : String} {lines : List Line} {options : CompileOptions}
    {terminated : Option Bool} {program : Program} (optimized : options.optimize = true)
    (read : Source.lines file source = .ok lines)
    (compiled : ofLines options terminated lines = .ok program) :
    KeepsLive lines program ((marks true lines).map (Marked.code (target program.labels))) := by
  rcases assembled_of_ofLines compiled with ⟨layout, body, symbols, assembled⟩
  have implicitHalt := implicitHalt_of_ofLines compiled
  have labels := labels_of_ofLines compiled assembled.placed
  rw [optimized] at assembled implicitHalt
  have decided := decided_marks read true
  have names : program.symbols.names = symbols.names := by
    rw [assembled.symbols, allocate, Table.names_mapValues]
  constructor
  case kept => exact fun position marked name here => kept_iff_isLive read here
  case eliminated => rw [assembled.eliminated, droppedNames_marks read]
  case declared =>
    rintro position name ⟨line, here, computes⟩ live
    rcases getElem?_marks read here with ⟨kept, here⟩
    have stays : kept = true := (kept_iff_isLive read here computes).mpr live
    rcases Form.computes?_eq_some_iff.mp computes with ⟨first, rest, form⟩
    rw [names, names_of_emit assembled.emitted]
    refine List.mem_append_right _ (List.mem_filterMap.mpr ⟨_, List.mem_of_getElem? here, ?_⟩)
    simp [Marked.introduces?, form, stays]
  case undeclared =>
    intro name omitted declared
    rw [names] at declared
    rcases Table.exists_find?_iff.mpr declared with ⟨entry, found⟩
    exact assembled.notMem_eliminated decided found omitted
  case code =>
    rw [assembled.code, implicitHalt, labels, eq_flatMap_of_emit assembled.emitted,
      List.flatMap_def]
  case size =>
    rw [List.length_map, ← List.length_map (·.line), map_line_marks read]
  case piece =>
    intro position line name first rest here form
    rcases getElem?_marks read here with ⟨kept, here⟩
    have decision : kept = true ↔ IsLive lines position :=
      kept_iff_isLive read here (Form.computes?_eq_some_iff.mpr ⟨first, rest, form⟩)
    rw [List.getElem?_map, here, Option.map_some, Marked.code, form]
    simp only [decision]
  case words => exact assembled.length_words
  case unreferenced =>
    intro name omitted slot
    rcases assembled.declared slot with ⟨entry, found, _⟩
    exact assembled.notMem_eliminated decided found omitted

/-- Chains begin at the expression that is written and at the one that it copies,
and none begins at the third one. -/
theorem keepsLive_of_ofLines_detour :
    ∃ lines program,
      CompileOptions.optimize {} = true ∧
        Source.lines "detour" "a=1\nb=a+a\nc=b\nd=b-c\nWRITE c\nHALT" = .ok lines ∧
        ofLines {} none lines = .ok program ∧
        (List.range lines.length).filter (IsLive lines ·) = [1, 2] ∧
        program.eliminated = ["d"] ∧
        KeepsLive lines program ((marks true lines).map (Marked.code (target program.labels))) := by
  have compiled : ((Source.lines "detour" "a=1\nb=a+a\nc=b\nd=b-c\nWRITE c\nHALT").map
      fun lines => (((ofLines {} none lines).map Program.eliminated).toOption,
        (List.range lines.length).filter (IsLive lines ·))).toOption =
      some (some ["d"], [1, 2]) := by
    decide +kernel
  rcases of_toOption_map_eq_some compiled with ⟨lines, read, made⟩
  rcases Prod.mk.inj made with ⟨made, live⟩
  rcases of_toOption_map_eq_some made with ⟨program, made, eliminated⟩
  exact ⟨lines, program, rfl, read, made, live, eliminated, keepsLive_of_ofLines rfl read made⟩

end Program

end DecimalMachine
