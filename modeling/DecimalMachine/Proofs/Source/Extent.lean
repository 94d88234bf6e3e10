import DecimalMachine.Proofs.Source.Reading

/-!
# The extent of a source

The lines that are read are those of the physical lines up to the first halt
command, each of them read by itself.  A source is refused here only where one
of these lines cannot be read.
-/

namespace DecimalMachine.Source

/-- Lines that are those of physical lines up to the first halt command, or of
all of them if there is none. -/
structure UpToHalt (physical : List (String × Location)) (lines : List Line) : Prop where
  read : ∀ (index : Nat) (line : Line), lines[index]? = some line →
    ∃ text location, physical[index]? = some (text, location) ∧
      Line.read text location = .ok line
  going : ∀ line ∈ lines.dropLast, line.isHalt = false
  ends : lines.length = physical.length ∨
    ∃ last, lines.getLast? = some last ∧ last.isHalt = true

section

variable {text : String} {location : Location} {rest : List (String × Location)} {head : Line}
  {tail : List Line}

theorem upToHalt_singleton (read : Line.read text location = .ok head)
    (halt : head.isHalt = true) : UpToHalt ((text, location) :: rest) [head] where
  read := by
    intro index line here
    cases index with
    | zero =>
        cases here
        exact ⟨text, location, rfl, read⟩
    | succ index => cases here
  going := by rintro _ ⟨⟩
  ends := .inr ⟨head, rfl, halt⟩

theorem upToHalt_cons_iff (going : head.isHalt = false) :
    UpToHalt ((text, location) :: rest) (head :: tail) ↔
      Line.read text location = .ok head ∧ UpToHalt rest tail := by
  constructor
  · intro extent
    obtain ⟨_, _, here, read⟩ := extent.read 0 head rfl
    cases here
    refine ⟨read, fun index line there => extent.read (index + 1) line there, ?_, ?_⟩
    · intro line member
      cases tail with
      | nil => cases member
      | cons second more => exact extent.going line (List.mem_cons_of_mem _ member)
    · rcases extent.ends with all | ⟨last, ends, halt⟩
      · exact .inl (Nat.succ.inj all)
      · cases tail with
        | nil =>
            have same : head = last := Option.some.inj ends
            rw [← same, going] at halt
            cases halt
        | cons second more => exact .inr ⟨last, by rwa [List.getLast?_cons_cons] at ends, halt⟩
  · rintro ⟨read, extent⟩
    refine ⟨?_, ?_, ?_⟩
    · intro index line here
      cases index with
      | zero =>
          cases here
          exact ⟨text, location, rfl, read⟩
      | succ index => exact extent.read index line here
    · intro line member
      cases tail with
      | nil => cases member
      | cons second more =>
          rcases List.mem_cons.mp member with rfl | member
          · exact going
          · exact extent.going line member
    · rcases extent.ends with all | ⟨last, ends, halt⟩
      · exact .inl (congrArg Nat.succ all)
      · refine .inr ⟨last, ?_, halt⟩
        cases tail with
        | nil => cases ends
        | cons second more => rwa [List.getLast?_cons_cons]

end

/-- The lines that are read are those up to the first halt command. -/
theorem readToHalt_eq_ok_iff {physical : List (String × Location)} {lines : List Line} :
    readToHalt physical = .ok lines ↔ UpToHalt physical lines := by
  induction physical generalizing lines with
  | nil =>
      constructor
      · rintro ⟨⟩
        exact ⟨by rintro _ _ ⟨⟩, by rintro _ ⟨⟩, .inl rfl⟩
      · intro extent
        cases lines with
        | nil => rfl
        | cons head tail =>
            obtain ⟨_, _, here, _⟩ := extent.read 0 head rfl
            cases here
  | cons first rest ih =>
      obtain ⟨text, location⟩ := first
      constructor
      · intro read
        obtain ⟨head, readHead, ⟨halt, rfl⟩ | ⟨going, tail, readTail, rfl⟩⟩ :=
          readToHalt_cons_eq_ok read
        · exact upToHalt_singleton readHead halt
        · exact (upToHalt_cons_iff going).mpr ⟨readHead, ih.mp readTail⟩
      · intro extent
        cases lines with
        | nil => rcases extent.ends with all | ⟨_, ends, _⟩ <;> contradiction
        | cons head tail =>
            cases halt : head.isHalt with
            | false =>
                obtain ⟨readHead, extent⟩ := (upToHalt_cons_iff halt).mp extent
                simp [readToHalt, readHead, halt, ih.mpr extent, bind, Except.bind, pure,
                  Except.pure]
            | true =>
                obtain ⟨_, _, here, readHead⟩ := extent.read 0 head rfl
                cases here
                cases tail with
                | nil => simp [readToHalt, readHead, halt, bind, Except.bind, pure, Except.pure]
                | cons second more =>
                    have going := extent.going head List.mem_cons_self
                    rw [halt] at going
                    cases going

/-- Every line of a source is read from the physical line at its index. -/
theorem exists_text_of_lines {file source : String} {lines : List Line} {index : Nat} {line : Line}
    (read : Source.lines file source = .ok lines) (here : lines[index]? = some line) :
    ∃ text, (Text.lines source)[index]? = some text ∧
      Line.read text ⟨file, index + 1⟩ = .ok line := by
  obtain ⟨text, location, physical, readLine⟩ := (readToHalt_eq_ok_iff.mp read).read index line here
  rw [getElem?_numbered] at physical
  obtain ⟨_, found, same⟩ := Option.map_eq_some_iff.mp physical
  cases same
  exact ⟨text, found, readLine⟩

/-- The reading of lines stops at the first line that cannot be read, if there is
no halt command above it. -/
theorem readToHalt_eq_error_iff {physical : List (String × Location)} {rejection : Rejection} :
    readToHalt physical = .error rejection ↔
      ∃ front text location rest, physical = front ++ (text, location) :: rest ∧
        (∀ above ∈ front, ∃ line, Line.read above.1 above.2 = .ok line ∧ line.isHalt = false) ∧
        Line.read text location = .error rejection := by
  induction physical with
  | nil =>
      constructor
      · rintro ⟨⟩
      · rintro ⟨front, text, location, rest, empty, _⟩
        exact absurd empty (by simp)
  | cons first physical ih =>
      obtain ⟨text, location⟩ := first
      constructor
      · intro failed
        rw [readToHalt] at failed
        rcases bind_eq_error_iff.mp failed with here | ⟨line, read, failed⟩
        · exact ⟨[], text, location, physical, rfl, by simp, here⟩
        · by_cases halt : line.isHalt = true
          · rw [if_pos halt] at failed
            cases failed
          · rw [if_neg halt] at failed
            rcases bind_eq_error_iff.mp failed with later | ⟨_, _, ⟨⟩⟩
            rcases ih.mp later with ⟨front, text, location, rest, rfl, above, failed⟩
            refine ⟨_ :: front, text, location, rest, rfl, ?_, failed⟩
            intro other member
            rcases List.mem_cons.mp member with rfl | member
            · exact ⟨line, read, Bool.eq_false_iff.mpr halt⟩
            · exact above other member
      · rintro ⟨front, other, place, rest, split, above, failed⟩
        cases front with
        | nil =>
            cases split
            rw [readToHalt, failed]
            rfl
        | cons head front =>
            cases split
            rcases above _ List.mem_cons_self with ⟨line, read, going⟩
            have later := ih.mpr ⟨front, other, place, rest, rfl,
              fun other member => above other (List.mem_cons_of_mem _ member), failed⟩
            rw [readToHalt, read, later]
            simp [going, bind, Except.bind]

theorem map_fst_numbered (file source : String) :
    (numbered file source).map (·.1) = Text.lines source := by
  apply List.ext_getElem
  · simp [numbered]
  · intro index _ _
    simp [numbered]

/-- The reading of a source stops at the first physical line that cannot be read,
if there is no halt command above it. -/
theorem lines_eq_error_iff {file source : String} {rejection : Rejection} :
    Source.lines file source = .error rejection ↔
      ∃ above text below, Text.lines source = above ++ text :: below ∧
        (∀ other ∈ above, ∃ form,
          Form.readTrimmed (Text.trim other).toList = .ok form ∧ form.isHalt = false) ∧
        Line.read text ⟨file, above.length + 1⟩ = .error rejection := by
  rw [lines, readToHalt_eq_error_iff]
  constructor
  · rintro ⟨front, text, location, rest, split, above, failed⟩
    have place : (numbered file source)[front.length]? = some (text, location) := by
      simp [split]
    rw [getElem?_numbered] at place
    obtain ⟨_, _, same⟩ := Option.map_eq_some_iff.mp place
    cases same
    refine ⟨front.map (·.1), text, rest.map (·.1), ?_, ?_, by rwa [List.length_map]⟩
    · rw [← map_fst_numbered file source, split, List.map_append, List.map_cons]
    · intro other member
      obtain ⟨head, memFront, rfl⟩ := List.mem_map.mp member
      rcases above head memFront with ⟨line, read, going⟩
      exact ⟨line.form, Line.readTrimmed_of_read read, going⟩
  · rintro ⟨front, text, rest, split, above, failed⟩
    rw [numbered, split, List.mapIdx_append, List.mapIdx_cons]
    refine ⟨_, text, _, _, rfl, ?_, by simpa using failed⟩
    intro head member
    obtain ⟨index, inside, rfl⟩ := List.mem_mapIdx.mp member
    rcases above _ (List.getElem_mem inside) with ⟨form, shape, going⟩
    exact ⟨⟨form, Text.trim front[index], ⟨file, index + 1⟩⟩, by simp [Line.read, shape], going⟩

end DecimalMachine.Source
