import DecimalMachine.Text.Blank
import Mathlib.Data.List.TakeWhile

/-!
# Tokens

A text that neither begins nor ends with a blank is made of tokens, with gaps of
blanks between them.  These are the tokens into which it is cut.
-/

namespace DecimalMachine.Text

/-! ## Trimmed texts -/

/-- A text that neither begins nor ends with a blank. -/
structure Trimmed (text : List Char) : Prop where
  starts : ∀ c, text.head? = some c → isBlank c = false
  ends : ∀ c, text.getLast? = some c → isBlank c = false

/-- A text that was trimmed neither begins nor ends with a blank. -/
theorem trimmed_trim (text : String) : Trimmed (trim text).toList := by
  rw [trim, String.toList_ofList, dropAround]
  generalize front : text.toList.dropWhile isBlank = kept
  constructor
  · intro c head
    have whole : (kept.reverse.dropWhile isBlank).reverse ++
        (kept.reverse.takeWhile isBlank).reverse = kept := by
      rw [← List.reverse_append, List.takeWhile_append_dropWhile, List.reverse_reverse]
    have keptHead : kept.head? = some c := by
      rw [← whole, List.head?_append, head]
      rfl
    have first := List.head?_dropWhile_not isBlank text.toList
    rw [front, keptHead] at first
    exact first
  · intro c last
    rw [List.getLast?_reverse] at last
    have first := List.head?_dropWhile_not isBlank kept.reverse
    rw [last] at first
    exact first

theorem dropWhile_of_head? {drops : Char → Bool} {text : List Char}
    (starts : ∀ c, text.head? = some c → drops c = false) : text.dropWhile drops = text := by
  cases text with
  | nil => rfl
  | cons c rest => rw [List.dropWhile_cons_of_neg (by simp [starts c rfl])]

theorem Trimmed.trim_eq {text : String} (trimmed : Trimmed text.toList) : trim text = text := by
  have ends : ∀ c, text.toList.reverse.head? = some c → isBlank c = false := by
    intro c last
    rw [List.head?_reverse] at last
    exact trimmed.ends c last
  rw [trim, dropAround, dropWhile_of_head? trimmed.starts, dropWhile_of_head? ends,
    List.reverse_reverse, String.ofList_toList]

/-- Trimming adds no characters. -/
theorem mem_of_mem_trim {text : String} {c : Char} (member : c ∈ (trim text).toList) :
    c ∈ text.toList := by
  rw [trim, String.toList_ofList, dropAround, List.mem_reverse] at member
  have inside := (List.dropWhile_sublist isBlank).subset member
  exact (List.dropWhile_sublist isBlank).subset (List.mem_reverse.mp inside)

theorem trim_trim (text : String) : trim (trim text) = trim text :=
  (trimmed_trim text).trim_eq

/-! ## Texts made of tokens -/

/-- Characters in a row of which none is blank. -/
structure Token (text : List Char) : Prop where
  nonempty : text ≠ []
  solid : ∀ c ∈ text, isBlank c = false

/-- Characters in a row of which all are blank. -/
structure Gap (text : List Char) : Prop where
  nonempty : text ≠ []
  blank : ∀ c ∈ text, isBlank c = true

/-- A text is made of tokens with gaps between them. -/
inductive Tokens : List Char → List (List Char) → Prop where
  | last {token : List Char} (solid : Token token) : Tokens token [token]
  | more {token gap text : List Char} {tokens : List (List Char)} (solid : Token token)
      (blank : Gap gap) (rest : Tokens text tokens) :
      Tokens (token ++ gap ++ text) (token :: tokens)

theorem tokenChars_blank {c : Char} (blank : isBlank c = true) (text : List Char) :
    tokenChars (c :: text) = tokenChars text := by
  simp [tokenChars, pieces, blank]

theorem tokenChars_gap {gap : List Char} (blank : ∀ c ∈ gap, isBlank c = true)
    (text : List Char) : tokenChars (gap ++ text) = tokenChars text := by
  induction gap with
  | nil => rfl
  | cons c gap ih =>
      rw [List.cons_append, tokenChars_blank (blank c List.mem_cons_self)]
      exact ih fun other member => blank other (List.mem_cons_of_mem c member)

theorem pieces_solid {front : List Char} (solid : ∀ c ∈ front, isBlank c = false)
    (text : List Char) : pieces isBlank (front ++ text) =
      (front ++ (pieces isBlank text).1, (pieces isBlank text).2) := by
  induction front with
  | nil => rfl
  | cons c front ih =>
      have rest := ih fun other member => solid other (List.mem_cons_of_mem c member)
      simp [pieces, solid c List.mem_cons_self, rest]

theorem tokenChars_token {token : List Char} (solid : Token token) :
    tokenChars token = [token] := by
  have cut := pieces_solid solid.solid []
  rw [List.append_nil] at cut
  simp [tokenChars, cut, pieces, solid.nonempty]

theorem tokenChars_append {token gap : List Char} (solid : Token token) (blank : Gap gap)
    (text : List Char) :
    tokenChars (token ++ gap ++ text) = token :: tokenChars text := by
  have here := blank.blank
  cases gap with
  | nil => exact absurd rfl blank.nonempty
  | cons c gap =>
      have rest := tokenChars_gap (fun other member => here other (List.mem_cons_of_mem c member))
        text
      rw [List.append_assoc, ← rest]
      simp [tokenChars, pieces_solid solid.solid, pieces, here c List.mem_cons_self,
        solid.nonempty]

theorem Tokens.ne_nil {text : List Char} {tokens : List (List Char)}
    (made : Tokens text tokens) : text ≠ [] := by
  cases made with
  | last solid => exact solid.nonempty
  | more solid => simp [solid.nonempty]

theorem Tokens.tokens_ne_nil {text : List Char} {tokens : List (List Char)}
    (made : Tokens text tokens) : tokens ≠ [] := by
  cases made <;> simp

theorem Tokens.token {text : List Char} {tokens : List (List Char)} (made : Tokens text tokens)
    {token : List Char} (member : token ∈ tokens) : Token token := by
  induction made with
  | last solid =>
      cases List.mem_singleton.mp member
      exact solid
  | more solid _ _ ih =>
      rcases List.mem_cons.mp member with rfl | later
      · exact solid
      · exact ih later

theorem Tokens.eq_of_singleton {text token : List Char} (made : Tokens text [token]) :
    text = token := by
  cases made with
  | last => rfl
  | more _ _ rest => exact absurd rfl rest.tokens_ne_nil

/-- A text of two tokens is the one and the other with a gap between them. -/
theorem Tokens.exists_gap {text first second : List Char} (made : Tokens text [first, second]) :
    ∃ gap, Gap gap ∧ text = first ++ gap ++ second := by
  cases made with
  | more _ blank rest =>
      obtain rfl := rest.eq_of_singleton
      exact ⟨_, blank, rfl⟩

/-- The tokens of a text are what it is made of. -/
theorem Tokens.tokenChars_eq {text : List Char} {tokens : List (List Char)}
    (made : Tokens text tokens) : tokenChars text = tokens := by
  induction made with
  | last solid => exact tokenChars_token solid
  | more solid blank _ ih => rw [tokenChars_append solid blank, ih]

/-- A list whose head satisfies a test begins with a run of elements that do, up
to one that does not. -/
theorem exists_run (test : Char → Bool) {c : Char} (here : test c = true) (rest : List Char) :
    ∃ front back, c :: rest = front ++ back ∧ front ≠ [] ∧ (∀ d ∈ front, test d = true) ∧
      ∀ d, back.head? = some d → test d = false := by
  refine ⟨(c :: rest).takeWhile test, (c :: rest).dropWhile test,
    List.takeWhile_append_dropWhile.symm, by simp [here],
    fun d member => List.mem_takeWhile_imp member, ?_⟩
  intro d next
  have head := List.head?_dropWhile_not test (c :: rest)
  rw [next] at head
  exact head

theorem getLast?_append_of_ne_nil {front back : List Char} (nonempty : back ≠ []) :
    (front ++ back).getLast? = back.getLast? := by
  rw [List.getLast?_append, List.getLast?_eq_some_getLast nonempty]
  rfl

/-- A text that neither begins nor ends with a blank is made of tokens. -/
theorem Trimmed.exists_tokens {text : List Char} (trimmed : Trimmed text) (nonempty : text ≠ []) :
    ∃ tokens, Tokens text tokens := by
  -- Induction on the length: the first token and the gap behind it are cut off.
  induction size : text.length using Nat.strongRecOn generalizing text with
  | _ bound ih =>
      obtain ⟨c, rest, rfl⟩ := List.exists_cons_of_ne_nil nonempty
      have solidHead : (! isBlank c) = true := by simp [trimmed.starts c rfl]
      obtain ⟨token, back, whole, tokenNonempty, tokenSolid, backHead⟩ :=
        exists_run (! isBlank ·) solidHead rest
      have solid : Token token :=
        ⟨tokenNonempty, fun d member => by simpa using tokenSolid d member⟩
      rw [whole] at trimmed size ⊢
      cases back with
      | nil => exact ⟨[token], by simpa using Tokens.last solid⟩
      | cons g more =>
          have blankHead : isBlank g = true := by simpa using backHead g rfl
          obtain ⟨gap, text, parts, gapNonempty, gapBlank, textHead⟩ :=
            exists_run isBlank blankHead more
          have blank : Gap gap := ⟨gapNonempty, gapBlank⟩
          have last : ∀ d, (gap ++ text).getLast? = some d → isBlank d = false := by
            intro d here
            rw [← parts] at here
            exact trimmed.ends d (by rw [getLast?_append_of_ne_nil (by simp), here])
          have textNonempty : text ≠ [] := by
            rintro rfl
            rw [List.append_nil] at last
            have ends := last _ (List.getLast?_eq_some_getLast gapNonempty)
            rw [gapBlank _ (List.getLast_mem gapNonempty)] at ends
            cases ends
          have shorter : text.length < bound := by
            have positive := List.length_pos_iff.mpr tokenNonempty
            rw [← size, parts, List.length_append, List.length_append]
            omega
          have ends : ∀ d, text.getLast? = some d → isBlank d = false := by
            intro d here
            exact last d (by rw [getLast?_append_of_ne_nil textNonempty, here])
          obtain ⟨tokens, made⟩ := ih text.length shorter ⟨textHead, ends⟩ textNonempty rfl
          rw [parts, ← List.append_assoc]
          exact ⟨token :: tokens, .more solid blank made⟩

end DecimalMachine.Text
