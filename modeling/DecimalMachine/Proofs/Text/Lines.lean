import DecimalMachine.Proofs.Decimal.Canonical
import DecimalMachine.Proofs.Text.Tokens
import DecimalMachine.Text.Lines

/-!
# Lines that are written

Lines that are written one after the other are cut into the same lines again, as
long as none of them holds a terminator.  Unifying newlines keeps the text that
is written, as long as it has no carriage return.
-/

namespace DecimalMachine.Text

/-- A text of visible ASCII characters, with at least one. -/
structure IsVisible (text : String) : Prop where
  given : text ≠ ""
  ascii : ∀ c ∈ text.toList, c.toNat < 0x80
  visible : ∀ c ∈ text.toList, isBlank c = false

theorem isBlank_of_isLineEnd {c : Char} (ending : isLineEnd c = true) : isBlank c = true := by
  simp only [isLineEnd, isBlank, Bool.or_eq_true, Bool.and_eq_true, decide_eq_true_eq,
    beq_iff_eq] at ending ⊢
  omega

/-- A text that is one word on a line: it has no terminator in it, and something
besides blanks. -/
structure IsWord (text : String) : Prop where
  inside : ∀ c ∈ text.toList, isLineEnd c = false
  given : trim text ≠ ""

theorem IsVisible.isWord {text : String} (visible : IsVisible text) : IsWord text where
  inside := by
    intro c here
    rw [Bool.eq_false_iff]
    intro ending
    have blank := isBlank_of_isLineEnd ending
    rw [visible.visible c here] at blank
    cases blank
  given := by
    rw [trim_eq_self visible.visible]
    exact visible.given

/-- A character that is no terminator goes to the front of the first line. -/
theorem lineChars_cons {c : Char} (inside : isLineEnd c = false) (rest : List Char) :
    lineChars (c :: rest) = consLine c (lineChars rest) := by
  have returns : ∀ more, c = '\r' → rest = '\n' :: more → False := by
    rintro more rfl _
    cases inside
  rw [lineChars]
  · rw [if_neg (by simp [inside])]
  · exact returns

/-- No line has a terminator in it. -/
theorem isLineEnd_of_mem_lineChars {text line : List Char} (member : line ∈ lineChars text)
    {c : Char} (inside : c ∈ line) : isLineEnd c = false := by
  induction text using lineChars.induct generalizing line with
  | case1 => cases member
  | case2 rest ih =>
      rw [lineChars] at member
      rcases List.mem_cons.mp member with rfl | later
      · cases inside
      · exact ih later inside
  | case3 first rest other ending ih =>
      rw [lineChars, if_pos ending] at member
      · rcases List.mem_cons.mp member with rfl | later
        · cases inside
        · exact ih later inside
      · exact other
  | case4 first rest other going ih =>
      have plain : isLineEnd first = false := Bool.eq_false_iff.mpr going
      rw [lineChars_cons plain] at member
      cases below : lineChars rest with
      | nil =>
          rw [below] at member
          cases List.mem_singleton.mp member
          cases List.mem_singleton.mp inside
          exact plain
      | cons head tail =>
          rw [below] at member ih
          rcases List.mem_cons.mp member with rfl | later
          · rcases List.mem_cons.mp inside with rfl | inside
            · exact plain
            · exact ih List.mem_cons_self inside
          · exact ih (List.mem_cons_of_mem head later) inside

theorem isLineEnd_of_mem_lines {text line : String} (member : line ∈ lines text) {c : Char}
    (inside : c ∈ line.toList) : isLineEnd c = false := by
  obtain ⟨characters, here, rfl⟩ := List.mem_map.mp member
  rw [String.toList_ofList] at inside
  exact isLineEnd_of_mem_lineChars here inside

/-- The first line ends at the first terminator. -/
theorem lineChars_append_newline {front : List Char}
    (inside : ∀ c ∈ front, isLineEnd c = false) (rest : List Char) :
    lineChars (front ++ '\n' :: rest) = front :: lineChars rest := by
  induction front with
  | nil => simp [lineChars, show isLineEnd '\n' = true from rfl]
  | cons c front ih =>
      rw [List.cons_append, lineChars_cons (inside c List.mem_cons_self),
        ih fun other member => inside other (List.mem_cons_of_mem c member)]
      rfl

theorem unlines_cons_cons (first second : String) (rest : List String) :
    (unlines (first :: second :: rest)).toList =
      first.toList ++ '\n' :: (unlines (second :: rest)).toList := by
  simp [unlines]

theorem unlines_singleton (line : String) : (unlines [line]).toList = line.toList ++ ['\n'] := by
  simp [unlines]

/-- Lines without terminators are read as they were written. -/
theorem lines_unlines {texts : List String} (given : texts ≠ [])
    (inside : ∀ text ∈ texts, ∀ c ∈ text.toList, isLineEnd c = false) :
    lines (unlines texts) = texts := by
  rw [lines]
  induction texts with
  | nil => exact absurd rfl given
  | cons first texts ih =>
      have here := inside first List.mem_cons_self
      cases texts with
      | nil =>
          rw [unlines_singleton, lineChars_append_newline here, lineChars, List.map_cons,
            List.map_nil, String.ofList_toList]
      | cons second rest =>
          rw [unlines_cons_cons, lineChars_append_newline here, List.map_cons,
            String.ofList_toList, ih (List.cons_ne_nil second rest)
              fun text member => inside text (List.mem_cons_of_mem first member)]

/-- The characters of lines that are written are those of the lines and line
feeds. -/
theorem mem_unlines {texts : List String} {c : Char} (member : c ∈ (unlines texts).toList) :
    c = '\n' ∨ ∃ text ∈ texts, c ∈ text.toList := by
  induction texts with
  | nil => exact .inl (by simpa [unlines] using member)
  | cons first texts ih =>
      cases texts with
      | nil =>
          rw [unlines_singleton, List.mem_append, List.mem_singleton] at member
          rcases member with here | newline
          · exact .inr ⟨first, List.mem_cons_self, here⟩
          · exact .inl newline
      | cons second rest =>
          rw [unlines_cons_cons, List.mem_append, List.mem_cons] at member
          rcases member with here | newline | later
          · exact .inr ⟨first, List.mem_cons_self, here⟩
          · exact .inl newline
          · rcases ih later with newline | ⟨text, below, inside⟩
            · exact .inl newline
            · exact .inr ⟨text, List.mem_cons_of_mem first below, inside⟩

theorem unifyNewlineChars_eq_self {text : List Char} (free : ∀ c ∈ text, c ≠ '\r') :
    unifyNewlineChars text = text := by
  induction text with
  | nil => rfl
  | cons c rest ih =>
      have here := free c List.mem_cons_self
      rw [unifyNewlineChars]
      · rw [ih fun other member => free other (List.mem_cons_of_mem c member)]
      · exact fun _ equal _ => here equal
      · exact here

theorem unifyNewlines_eq_self {text : String} (free : ∀ c ∈ text.toList, c ≠ '\r') :
    unifyNewlines text = text := by
  rw [unifyNewlines, unifyNewlineChars_eq_self free, String.ofList_toList]

end DecimalMachine.Text
