import DecimalMachine.Proofs.Program.WellFormed
import DecimalMachine.Proofs.Source.Literals
import DecimalMachine.Proofs.Text.Lines
import Mathlib.Data.List.TakeWhile

/-!
# Blank sources

A source of nothing but blanks is well formed: its lines are blank, and its
program is the halt that is added.
-/

namespace DecimalMachine

namespace Text

variable {text : String}

theorem isBlank_of_trim (empty : (trim text).isEmpty = true) {c : Char} (member : c ∈ text.toList) :
    isBlank c = true := by
  have nothing : dropAround isBlank text.toList = [] := by
    simpa [trim, String.isEmpty_iff] using empty
  rw [dropAround, List.reverse_eq_nil_iff, List.dropWhile_eq_nil_iff] at nothing
  have front : ∀ other ∈ text.toList.dropWhile isBlank, isBlank other = true :=
    fun other inside => nothing other (List.mem_reverse.mpr inside)
  -- What is left after the blanks in front would begin with another character.
  cases kept : text.toList.dropWhile isBlank with
  | nil => exact List.dropWhile_eq_nil_iff.mp kept c member
  | cons first rest =>
      have head := List.head?_dropWhile_not isBlank text.toList
      rw [kept] at head front
      have blank := front first List.mem_cons_self
      simp [blank] at head

theorem trim_of_isBlank (blank : ∀ c ∈ text.toList, isBlank c = true) : trim text = "" := by
  have nothing : text.toList.dropWhile isBlank = [] := List.dropWhile_eq_nil_iff.mpr blank
  rw [trim, dropAround, nothing]
  rfl

/-- Lines are made of the characters of the text. -/
theorem mem_of_mem_lineChars {text line : List Char} (member : line ∈ lineChars text) {c : Char}
    (inside : c ∈ line) : c ∈ text := by
  induction text using lineChars.induct generalizing line with
  | case1 => cases member
  | case2 rest ih =>
      rw [lineChars] at member
      rcases List.mem_cons.mp member with rfl | later
      · cases inside
      · exact List.mem_cons_of_mem _ (List.mem_cons_of_mem _ (ih later inside))
  | case3 first rest other ending ih =>
      rw [lineChars, if_pos ending] at member
      · rcases List.mem_cons.mp member with rfl | later
        · cases inside
        · exact List.mem_cons_of_mem _ (ih later inside)
      · exact other
  | case4 first rest other going ih =>
      rw [lineChars, if_neg going] at member
      · cases below : lineChars rest with
        | nil =>
            rw [below] at member
            rcases List.mem_singleton.mp member with rfl
            rcases List.mem_singleton.mp inside with rfl
            exact List.mem_cons_self
        | cons line lines =>
            rw [below] at member ih
            rcases List.mem_cons.mp member with rfl | later
            · rcases List.mem_cons.mp inside with rfl | inside
              · exact List.mem_cons_self
              · exact List.mem_cons_of_mem _ (ih List.mem_cons_self inside)
            · exact List.mem_cons_of_mem _ (ih (List.mem_cons_of_mem _ later) inside)
      · exact other

end Text

namespace Source

theorem exists_readToHalt_of_blank {physical : List (String × Location)}
    (blank : ∀ entry ∈ physical, Text.trim entry.1 = "") :
    ∃ lines, readToHalt physical = .ok lines ∧ ∀ line ∈ lines, line.form = .blank := by
  induction physical with
  | nil => exact ⟨[], rfl, by simp⟩
  | cons first rest ih =>
      rcases ih fun entry member => blank entry (List.mem_cons_of_mem first member) with
        ⟨lines, read, blanks⟩
      have here : Line.read first.1 first.2 = .ok ⟨.blank, "", first.2⟩ := by
        rw [Line.read, blank first List.mem_cons_self]
        rfl
      refine ⟨⟨.blank, "", first.2⟩ :: lines, ?_, ?_⟩
      · rw [readToHalt, here, read]
        rfl
      · intro line member
        rcases List.mem_cons.mp member with rfl | member
        · rfl
        · exact blanks line member

/-- The lines of a blank source are blank. -/
theorem exists_lines_of_blank {file source : String}
    (blank : ∀ c ∈ source.toList, Text.isBlank c = true) :
    ∃ lines, Source.lines file source = .ok lines ∧ ∀ line ∈ lines, line.form = .blank := by
  apply exists_readToHalt_of_blank
  intro entry member
  have known : entry.1 ∈ Text.lines source := by
    rw [← map_fst_numbered file source]
    exact List.mem_map_of_mem member
  rcases List.mem_map.mp known with ⟨line, inside, same⟩
  apply Text.trim_of_isBlank
  rw [← same, String.toList_ofList]
  exact fun c here => blank c (Text.mem_of_mem_lineChars inside here)

end Source

namespace Program

/-- Blank lines are well formed, with room for a halt. -/
theorem wellFormed_of_blank {options : CompileOptions} {terminated : Bool} {lines : List Marked}
    (decided : Decided options.optimize lines) (room : 1 ≤ options.maxWords)
    (blank : ∀ marked ∈ lines, marked.line.form = .blank) :
    WellFormed options terminated lines := by
  have formAt : ∀ (index : Nat) marked, lines[index]? = some marked → marked.line.form = .blank :=
    fun index marked here => blank marked (List.mem_of_getElem? here)
  have words : wordCount lines = 0 := by
    clear decided formAt
    induction lines with
    | nil => rfl
    | cons marked rest ih =>
        have form := blank marked List.mem_cons_self
        rw [wordCount_cons, ih fun other member => blank other (List.mem_cons_of_mem _ member)]
        simp [Marked.size, form]
  have names : mentionedNames lines = ∅ := by
    ext name
    rw [mem_mentionedNames]
    constructor
    · rintro ⟨marked, member, mentions⟩
      simp [Marked.mentions, blank marked member, Form.references] at mentions
    · simp
  constructor
  case decided => exact decided
  case declaredOnce =>
    rw [declaredNames, List.filterMap_eq_nil_iff.mpr]
    · exact List.nodup_nil
    · exact fun marked member => by simp [blank marked member, Form.declares?]
  case labelledOnce =>
    rw [labelNames, List.filterMap_eq_nil_iff.mpr]
    · exact List.nodup_nil
    · exact fun marked member => by simp [blank marked member, formLabel?]
  case command =>
    intro index marked command operand here form
    rw [formAt index marked here] at form
    cases form
  case terms =>
    intro index marked name first rest here form
    rw [formAt index marked here] at form
    cases form
  case size =>
    rw [words, names, Finset.card_empty]
    split <;> omega

end Program

/-- A blank source is compiled. -/
theorem Compilation.exists_ofSource_of_blank {options : CompileOptions}
    (room : 1 ≤ options.maxWords) {file source : String}
    (blank : ∀ c ∈ source.toList, Text.isBlank c = true) :
    ∃ compilation, ofSource options file source = .ok compilation := by
  rcases Source.exists_lines_of_blank blank with ⟨lines, read, blanks⟩
  have decided := Program.decided_marks read options.optimize
  have marked : ∀ entry ∈ Program.marks options.optimize lines, entry.line.form = .blank := by
    intro entry member
    apply blanks
    rw [← Program.map_line_marks read options.optimize]
    exact List.mem_map_of_mem member
  rcases (Program.exists_ofLines_iff decided).mpr
    (Program.wellFormed_of_blank decided room marked) with ⟨program, made⟩
  exact ⟨_, ofSource_eq_ok_iff.mpr ⟨lines, program, read, made, rfl⟩⟩

end DecimalMachine
