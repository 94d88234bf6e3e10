/-!
# Similar names

The similarity of two texts counts the characters in their matching blocks:
the longest common block first, then, recursively, the blocks to its left and
to its right.  Twice that count over the sum of the lengths is their ratio, and
a name is close to another one when the ratio is at least three fifths.

In a long text a character that crowds it opens no block; a block found
without such characters still grows over equal ones on both sides.
-/

namespace DecimalMachine.Text

/-- The length of the common initial part of two lists that none of the
characters to avoid interrupts. -/
def commonLength (avoid : List Char) : List Char → List Char → Nat
  | a :: as, b :: bs =>
      if a = b && !avoid.contains a then commonLength avoid as bs + 1 else 0
  | _, _ => 0

/-- A common block of two texts: where it starts in each, and its length. -/
structure Block where
  left : Nat
  right : Nat
  size : Nat
  deriving DecidableEq, Repr

namespace Block

/-- The longer of two blocks, and the first of two equally long ones. -/
def longer (first second : Block) : Block :=
  if first.size < second.size then second else first

/-- Improve on a block by the blocks that open where the left text now stands,
the earliest in the right text among equals. -/
def improveAt (avoid : List Char) (left : Nat) (text : List Char) :
    Nat → List Char → Block → Block
  | right, b :: bs, best =>
      improveAt avoid left text (right + 1) bs
        (best.longer ⟨left, right, commonLength avoid text (b :: bs)⟩)
  | _, [], best => best

/-- Improve on a block by the blocks that open anywhere in the left text, the
earliest one among equals. -/
def improve (avoid right : List Char) : Nat → List Char → Block → Block
  | left, a :: as, best =>
      improve avoid right (left + 1) as (improveAt avoid left (a :: as) 0 right best)
  | _, [], best => best

/-- Extend a block over equal characters at both of its ends. -/
def grow (a b : List Char) (block : Block) : Block :=
  let back := commonLength [] (a.take block.left).reverse (b.take block.right).reverse
  let ahead := commonLength [] (a.drop (block.left + block.size))
    (b.drop (block.right + block.size))
  ⟨block.left - back, block.right - back, back + block.size + ahead⟩

/-- The longest block of two texts, grown at both ends. -/
def longest (avoid a b : List Char) : Block :=
  (improve avoid b 0 a ⟨0, 0, 0⟩).grow a b

end Block

/-- The number of characters in the matching blocks of two texts. -/
def matchedCount (avoid a b : List Char) : Nat :=
  match Block.longest avoid a b with
  | ⟨left, right, size⟩ =>
      if _inside : 0 < size ∧ left + size ≤ a.length then
        matchedCount avoid (a.take left) (b.take right) + size +
          matchedCount avoid (a.drop (left + size)) (b.drop (right + size))
      else 0
  termination_by a.length
  decreasing_by
    · rw [List.length_take]; omega
    · rw [List.length_drop]; omega

/-- The characters that crowd a text: in a text of two hundred characters or
more, those that make up more than one in a hundred of it. -/
def crowding (text : List Char) : List Char :=
  if text.length < 200 then []
  else text.eraseDups.filter fun c => text.length / 100 + 1 < text.count c

/-- A candidate for a name, with the matched count and the total length whose
quotient orders candidates. -/
structure Candidate where
  text : String
  matched : Nat
  total : Nat
  deriving Repr

namespace Candidate

/-- Whether a candidate is close: twice the matched count is at least three
fifths of the total length. -/
def isClose (candidate : Candidate) : Bool :=
  3 * candidate.total ≤ 10 * candidate.matched

/-- The order of suggestions: the greater quotient first, and among equals the
greater text. -/
def precedes (first second : Candidate) : Bool :=
  let one := first.matched * second.total
  let two := second.matched * first.total
  if one = two then decide (second.text ≤ first.text) else decide (two < one)

end Candidate

/-- The candidates close to a name, the best ones first and at most so many. -/
def closeMatches (count : Nat) (name : String) (candidates : List String) : List String :=
  let avoid := crowding name.toList
  let weighed := candidates.map fun text =>
    Candidate.mk text (matchedCount avoid text.toList name.toList) (text.length + name.length)
  (((weighed.filter Candidate.isClose).mergeSort Candidate.precedes).take count).map (·.text)

end DecimalMachine.Text
