import DecimalMachine.Decimal.Basic

/-!
# Fixed places

A duration is kept as a binary fraction of 53 significant bits and shown with
two decimal places.  Both steps round to the nearest value and, at a tie, to
the even one.
-/

namespace DecimalMachine.Decimal

/-- The quotient of two natural numbers, rounded to the nearest one and at a
tie to the even one. -/
def roundDiv (num den : Nat) : Nat :=
  let quotient := num / den
  let twice := 2 * (num % den)
  if twice < den then quotient
  else if den < twice then quotient + 1
  else quotient + quotient % 2

/-- The number of bits by which a quotient is scaled up so that it has 53
significant bits before rounding. -/
def binaryScale (num den : Nat) : Nat :=
  let excess := 53 + den.log2 - num.log2
  if (num <<< (excess - 1)) / den < 1 <<< 52 then excess else excess - 1

/-- The number of bits by which the whole part of a quotient is longer than 53
bits. -/
def surplusBits (num den : Nat) : Nat :=
  (num / den).log2 + 1 - 53

/-- The 53 significant bits of a positive quotient, rounded. The quotient is
this number scaled down as `binaryScale` says and up as `surplusBits` says, of
which one is nothing. -/
def significand (num den : Nat) : Nat :=
  roundDiv (num <<< binaryScale num den) (den <<< surplusBits num den)

/-- A number of thousandths in two decimal places, the sign kept even when the
digits are all zero. -/
def twoPlaces (thousandths : Int) : String :=
  let num := thousandths.natAbs
  let hundredths :=
    if num = 0 then 0
    else roundDiv ((100 * significand num 1000) <<< surplusBits num 1000)
      (1 <<< binaryScale num 1000)
  let sign := if thousandths < 0 then ['-'] else []
  .ofList (sign ++ digits (hundredths / 100) ++ ['.'] ++
    padLeft '0' 2 (digits (hundredths % 100)))

end DecimalMachine.Decimal
