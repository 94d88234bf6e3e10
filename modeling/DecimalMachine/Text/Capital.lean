/-!
# Capitals

Commands are compared with the mnemonics in capitals, so that a command in
small letters still finds the one that was meant.  Only the capitals of the
basic Latin alphabet can agree with a mnemonic.  Of every other capital nothing
counts but its length, and some characters have capitals of two or three
letters.
-/

namespace DecimalMachine.Text

/-- Characters beyond ASCII whose capitals hold letters of the basic Latin
alphabet. -/
def latinCapitals : List (Char × List Char) :=
  [('\u00DF', ['S', 'S']), ('\u0131', ['I']), ('\u0149', ['\u02BC', 'N']), ('\u017F', ['S']),
   ('\u01F0', ['J', '\u030C']), ('\u1E96', ['H', '\u0331']), ('\u1E97', ['T', '\u0308']),
   ('\u1E98', ['W', '\u030A']), ('\u1E99', ['Y', '\u030A']), ('\u1E9A', ['A', '\u02BE']),
   ('\uFB00', ['F', 'F']), ('\uFB01', ['F', 'I']), ('\uFB02', ['F', 'L']),
   ('\uFB03', ['F', 'F', 'I']), ('\uFB04', ['F', 'F', 'L']), ('\uFB05', ['S', 'T']),
   ('\uFB06', ['S', 'T'])]

/-- The other characters with capitals of two letters, as ranges of code
points. -/
def doubleCapitals : List (Nat × Nat) :=
  [(0x587, 0x587), (0x1F50, 0x1F50), (0x1F80, 0x1FAF), (0x1FB2, 0x1FB4), (0x1FB6, 0x1FB6),
   (0x1FBC, 0x1FBC), (0x1FC2, 0x1FC4), (0x1FC6, 0x1FC6), (0x1FCC, 0x1FCC), (0x1FD6, 0x1FD6),
   (0x1FE4, 0x1FE4), (0x1FE6, 0x1FE6), (0x1FF2, 0x1FF4), (0x1FF6, 0x1FF6), (0x1FFC, 0x1FFC),
   (0xFB13, 0xFB17)]

/-- The other characters with capitals of three letters, as ranges of code
points. -/
def tripleCapitals : List (Nat × Nat) :=
  [(0x390, 0x390), (0x3B0, 0x3B0), (0x1F52, 0x1F52), (0x1F54, 0x1F54), (0x1F56, 0x1F56),
   (0x1FB7, 0x1FB7), (0x1FC7, 0x1FC7), (0x1FD2, 0x1FD3), (0x1FD7, 0x1FD7), (0x1FE2, 0x1FE3),
   (0x1FE7, 0x1FE7), (0x1FF7, 0x1FF7)]

/-- Whether a character lies in one of the ranges. -/
def inRanges (ranges : List (Nat × Nat)) (c : Char) : Bool :=
  ranges.any fun range => range.1 ≤ c.toNat && c.toNat ≤ range.2

/-- The capitals of one character. A letter without a capital in the basic
Latin alphabet stands for itself, as often as its capitals are long. -/
def capitals (c : Char) : List Char :=
  match latinCapitals.lookup c with
  | some letters => letters
  | none =>
      if inRanges doubleCapitals c then [c, c]
      else if inRanges tripleCapitals c then [c, c, c]
      else [c.toUpper]

/-- A text in capitals. -/
def capitalize (text : String) : String :=
  .ofList (text.toList.flatMap capitals)

end DecimalMachine.Text
