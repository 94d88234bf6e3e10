import DecimalMachine.Files.Path
import Mathlib.Data.List.Basic

/-!
# Paths in normal form

The path of a text is in normal form, and a path in normal form is the path of
the text that it renders as.  A name that gets a suffix has this suffix.
-/

namespace DecimalMachine

namespace Text

variable {cut : Char → Bool} {front rest text : List Char} {c : Char}

theorem pieces_cons : pieces cut (c :: rest) =
    if cut c then ([], (pieces cut rest).1 :: (pieces cut rest).2)
    else (c :: (pieces cut rest).1, (pieces cut rest).2) :=
  rfl

theorem pieces_of_free (free : ∀ c ∈ text, cut c = false) : pieces cut text = (text, []) := by
  induction text with
  | nil => rfl
  | cons c rest ih =>
      simp [pieces_cons, free c List.mem_cons_self,
        ih fun other member => free other (List.mem_cons_of_mem c member)]

/-- The first piece ends at the first cut. -/
theorem pieces_append_cut (free : ∀ c ∈ front, cut c = false) (cuts : cut c = true) :
    pieces cut (front ++ c :: rest) =
      (front, (pieces cut rest).1 :: (pieces cut rest).2) := by
  induction front with
  | nil => simp [pieces_cons, cuts]
  | cons first front ih =>
      simp [pieces_cons, free first List.mem_cons_self,
        ih fun other member => free other (List.mem_cons_of_mem first member)]

/-- No piece has a cut. -/
theorem free_of_mem_pieces {piece : List Char}
    (member : piece ∈ (pieces cut text).1 :: (pieces cut text).2) : ∀ c ∈ piece, cut c = false := by
  induction text generalizing piece with
  | nil =>
      rcases List.mem_singleton.mp member with rfl
      intro c inside
      cases inside
  | cons first rest ih =>
      rw [pieces_cons] at member
      by_cases cuts : cut first = true
      · rw [if_pos cuts] at member
        rcases List.mem_cons.mp member with rfl | member
        · simp
        · exact ih member
      · rw [if_neg cuts] at member
        rcases List.mem_cons.mp member with rfl | member
        · intro c inside
          rcases List.mem_cons.mp inside with rfl | inside
          · simpa using cuts
          · exact ih List.mem_cons_self c inside
        · exact ih (List.mem_cons_of_mem _ member)

/-- Texts without cuts that are joined by one are the pieces again. -/
theorem pieces_intercalate {first : List Char} {more : List (List Char)} (cuts : cut c = true)
    (free : ∀ text ∈ first :: more, ∀ c ∈ text, cut c = false) :
    pieces cut ([c].intercalate (first :: more)) = (first, more) := by
  induction more generalizing first with
  | nil =>
      rw [List.intercalate_singleton]
      exact pieces_of_free (free first List.mem_cons_self)
  | cons second more ih =>
      rw [List.intercalate_cons_cons, List.append_assoc, List.singleton_append,
        pieces_append_cut (free first List.mem_cons_self) cuts,
        ih fun text member => free text (List.mem_cons_of_mem first member)]

end Text

namespace Path

/-- A part of a path in normal form: neither empty nor a single dot, and without
slashes. -/
def IsPart (part : String) : Prop :=
  part ≠ "" ∧ part ≠ "." ∧ ∀ c ∈ part.toList, c ≠ '/'

/-- A path in normal form: at most two leading slashes before its parts. -/
structure IsNormal (path : Path) : Prop where
  root : ∃ slashes ≤ 2, path.root = .ofList (List.replicate slashes '/')
  parts : ∀ part ∈ path.parts, IsPart part

/-- The parts of the text of a path. -/
def partsOf (text : List Char) : List String :=
  (((Text.pieces (· = '/') text).1 :: (Text.pieces (· = '/') text).2).map String.ofList).filter
    fun part => !(part.isEmpty || part == ".")

theorem ofText_eq (text : String) : ofText text = ⟨rootOf text.toList, partsOf text.toList⟩ :=
  rfl

theorem isNormal_ofText (text : String) : (ofText text).IsNormal := by
  rw [ofText_eq]
  constructor
  · simp only [rootOf]
    split
    · exact ⟨0, by decide, rfl⟩
    · split
      · exact ⟨2, by decide, rfl⟩
      · exact ⟨1, by decide, rfl⟩
  · intro part member
    rcases List.mem_filter.mp member with ⟨taken, kept⟩
    rcases List.mem_map.mp taken with ⟨piece, cut, rfl⟩
    have named : String.ofList piece ≠ "" ∧ String.ofList piece ≠ "." := by
      simpa [String.isEmpty_iff] using kept
    refine ⟨named.1, named.2, ?_⟩
    intro c inside
    rw [String.toList_ofList] at inside
    simpa using Text.free_of_mem_pieces cut c inside

theorem partsOf_slash (text : List Char) : partsOf ('/' :: text) = partsOf text := by
  simp [partsOf, Text.pieces_cons]

theorem partsOf_replicate (slashes : Nat) (text : List Char) :
    partsOf (List.replicate slashes '/' ++ text) = partsOf text := by
  induction slashes with
  | zero => rfl
  | succ slashes ih => rw [List.replicate_succ, List.cons_append, partsOf_slash, ih]

/-- Parts of a normal form are read again after they were joined. -/
theorem partsOf_intercalate {parts : List String} (normal : ∀ part ∈ parts, IsPart part) :
    partsOf (['/'].intercalate (parts.map String.toList)) = parts := by
  cases parts with
  | nil => rfl
  | cons first more =>
      have free : ∀ text ∈ first.toList :: more.map String.toList, ∀ c ∈ text,
          decide (c = '/') = false := by
        rw [← List.map_cons]
        intro text member c inside
        rcases List.mem_map.mp member with ⟨part, given, rfl⟩
        simpa using (normal part given).2.2 c inside
      have texts : ((first.toList :: more.map String.toList).map String.ofList) =
          first :: more := by
        simp [Function.comp_def]
      rw [partsOf, List.map_cons (f := String.toList),
        Text.pieces_intercalate (decide_eq_true rfl) free, texts,
        List.filter_eq_self]
      intro part member
      have named := normal part member
      simp [named.1, named.2.1]

theorem rootOf_replicate {slashes : Nat} (few : slashes ≤ 2) {rest : List Char}
    (ends : rest.takeWhile (· = '/') = []) :
    rootOf (List.replicate slashes '/' ++ rest) = .ofList (List.replicate slashes '/') := by
  have front : (List.replicate slashes '/' ++ rest).takeWhile (· = '/') =
      List.replicate slashes '/' := by
    rw [List.takeWhile_append_of_pos (by simp), ends, List.append_nil]
  rw [rootOf, front, List.length_replicate]
  rcases Nat.le_succ_iff.mp few with one | rfl
  · rcases Nat.le_one_iff_eq_zero_or_eq_one.mp one with rfl | rfl <;> rfl
  · rfl

theorem takeWhile_slash_intercalate {parts : List String} (normal : ∀ part ∈ parts, IsPart part) :
    (['/'].intercalate (parts.map String.toList)).takeWhile (· = '/') = [] := by
  cases parts with
  | nil => rfl
  | cons first more =>
      have named := normal first List.mem_cons_self
      cases spelled : first.toList with
      | nil => exact absurd (String.toList_eq_nil_iff.mp spelled) named.1
      | cons c rest =>
          have other : c ≠ '/' := named.2.2 c (spelled ▸ List.mem_cons_self)
          cases more with
          | nil => simp [spelled, other]
          | cons second more => simp [spelled, other, List.intercalate_cons_cons]

/-- A path in normal form is the path of its text. -/
theorem ofText_render {path : Path} (normal : path.IsNormal) : ofText path.render = path := by
  rcases path with ⟨root, parts⟩
  rcases normal.root with ⟨slashes, few, rfl⟩
  by_cases bare : slashes = 0 ∧ parts = []
  · rcases bare with ⟨rfl, rfl⟩
    rfl
  · have text : (Path.mk (.ofList (List.replicate slashes '/')) parts).render.toList =
        List.replicate slashes '/' ++ ['/'].intercalate (parts.map String.toList) := by
      rw [render, if_neg (by simpa [String.isEmpty_iff] using bare)]
      simp
    rw [ofText_eq, text, partsOf_replicate, partsOf_intercalate normal.parts,
      rootOf_replicate few (takeWhile_slash_intercalate normal.parts)]

/-! ## Suffixes -/

/-- A name keeps something before its suffix. -/
theorem stem_ne_empty {name : String} (suffixed : (splitSuffix name).2 ≠ "") :
    (splitSuffix name).1 ≠ "" := by
  simp only [splitSuffix] at suffixed ⊢
  split at suffixed
  · exact absurd rfl suffixed
  next given =>
  rw [if_neg given]
  simp only [Bool.or_eq_true, not_or, List.isEmpty_iff] at given
  intro empty
  exact given.1.2 (by simpa [String.ofList_eq_empty_iff] using empty)

/-- A suffix of a dot and characters that are none. -/
def IsSuffix (suffix : String) : Prop :=
  ∃ ending, suffix.toList = '.' :: ending ∧ ending ≠ [] ∧ ∀ c ∈ ending, c ≠ '.'

/-- The suffix that a name got is its suffix. -/
theorem splitSuffix_append {stem suffix : String} (given : stem ≠ "")
    (wellFormed : IsSuffix suffix) :
    splitSuffix (stem ++ suffix) = (stem, suffix) := by
  rcases wellFormed with ⟨ending, spelled, long, plain⟩
  have text : (stem ++ suffix).toList = stem.toList ++ '.' :: ending := by
    rw [String.toList_append, spelled]
  have back : ((stem ++ suffix).toList.reverse.takeWhile (· ≠ '.')).reverse = ending := by
    rw [text, List.reverse_append, List.reverse_cons, List.append_assoc,
      List.takeWhile_append_of_pos (by simpa using plain)]
    simp
  have length : (stem ++ suffix).length = stem.toList.length + (ending.length + 1) := by
    rw [← String.length_toList, text, List.length_append, List.length_cons]
  have front : (stem ++ suffix).toList.take ((stem ++ suffix).length - ending.length - 1) =
      stem.toList := by
    rw [text, length, show stem.toList.length + (ending.length + 1) - ending.length - 1 =
      stem.toList.length by omega, List.take_left]
  have stemmed : stem.toList ≠ [] := fun empty => given (String.toList_eq_nil_iff.mp empty)
  have shorter : ending.length ≠ (stem ++ suffix).length := by omega
  simp only [splitSuffix, back, front, List.isEmpty_eq_false_iff.mpr long,
    List.isEmpty_eq_false_iff.mpr stemmed, decide_eq_false shorter]
  rw [if_neg (by simp), String.ofList_toList, ← spelled, String.ofList_toList]

theorem suffix_of_withSuffix {path other : Path} {suffix : String} (given : path.suffix ≠ "")
    (wellFormed : IsSuffix suffix) (changed : path.withSuffix suffix = .ok other) :
    other.suffix = suffix := by
  rw [withSuffix] at changed
  cases named : path.name? with
  | none =>
      rw [named] at changed
      cases changed
  | some name =>
      rw [named] at changed
      cases changed
      have stem : (splitSuffix name).1 ≠ "" := by
        apply stem_ne_empty
        simpa [Path.suffix, named] using given
      simp [Path.suffix, name?, splitSuffix_append stem wellFormed]

end Path

end DecimalMachine
