/-!
# Cutting lists of characters

Texts are trimmed at both ends and cut into pieces by a test on single
characters.
-/

namespace DecimalMachine.Text

/-- Remove what satisfies a test at both ends of a list. -/
def dropAround (drops : Char → Bool) (text : List Char) : List Char :=
  ((text.dropWhile drops).reverse.dropWhile drops).reverse

/-- Cut a list at every element that satisfies a test. The cut elements are
dropped; the pieces are one more than the cuts, and the first comes apart. -/
def pieces (cut : Char → Bool) : List Char → List Char × List (List Char)
  | [] => ([], [])
  | c :: rest =>
      let (piece, more) := pieces cut rest
      if cut c then ([], piece :: more) else (c :: piece, more)

end DecimalMachine.Text
