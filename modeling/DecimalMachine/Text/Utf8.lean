import DecimalMachine.Decimal.Basic
import DecimalMachine.Text.Quoted

/-!
# UTF-8

A file holds bytes, and a text is written to it in UTF-8.  Reading is strict:
the first byte that cannot stand where it does is reported with its position
and the reason.  A byte order mark is an ordinary character.
-/

namespace DecimalMachine.Text.Utf8

/-- The bytes of a text. -/
def encode (text : String) : List UInt8 :=
  text.toList.flatMap String.utf8EncodeChar

/-- Why bytes are not the encoding of a text. -/
inductive Flaw where
  /-- A byte that opens no character stands at the start of one. -/
  | start
  /-- A character goes on with a byte that does not continue it. -/
  | continuation
  /-- The bytes end inside a character. -/
  | ending
  deriving DecidableEq, Repr

/-- The wording of a flaw. -/
def Flaw.message : Flaw → String
  | .start => "invalid start byte"
  | .continuation => "invalid continuation byte"
  | .ending => "unexpected end of data"

/-- A failure to read bytes as a text: the position of the character that
fails, the first of its bytes, and how many of its bytes could be used. -/
structure DecodeError where
  position : Nat
  first : UInt8
  span : Nat
  flaw : Flaw
  deriving DecidableEq, Repr

/-- The wording of a failure. It names the byte when there is one, and the
positions of the first and the last byte when there are more. -/
def DecodeError.message (error : DecodeError) : String :=
  if error.span ≤ 1 then
    "'utf-8' codec can't decode byte 0x" ++ .ofList (hexChars 2 error.first.toNat) ++
      " in position " ++ Decimal.text error.position ++ ": " ++ error.flaw.message
  else
    "'utf-8' codec can't decode bytes in position " ++ Decimal.text error.position ++ "-" ++
      Decimal.text (error.position + error.span - 1 : Nat) ++ ": " ++ error.flaw.message

/-- A character of several bytes that has been read in part: where it started
and with which byte, how many bytes were used and how many are still owed, the
least and the greatest byte that may come next, and the bits read so far. -/
structure Pending where
  position : Nat
  first : UInt8
  used : Nat
  owed : Nat
  low : Nat
  high : Nat
  bits : Nat

namespace Pending

/-- Open a character of several bytes. The range of its second byte excludes
overlong forms, surrogates and code points beyond the last. -/
def open? (position : Nat) (first : UInt8) : Option Pending :=
  let byte := first.toNat
  let start := Pending.mk position first 1
  if 0xC2 ≤ byte ∧ byte ≤ 0xDF then some (start 1 0x80 0xBF (byte - 0xC0))
  else if byte = 0xE0 then some (start 2 0xA0 0xBF (byte - 0xE0))
  else if byte = 0xED then some (start 2 0x80 0x9F (byte - 0xE0))
  else if 0xE1 ≤ byte ∧ byte ≤ 0xEF then some (start 2 0x80 0xBF (byte - 0xE0))
  else if byte = 0xF0 then some (start 3 0x90 0xBF (byte - 0xF0))
  else if byte = 0xF4 then some (start 3 0x80 0x8F (byte - 0xF0))
  else if 0xF1 ≤ byte ∧ byte ≤ 0xF3 then some (start 3 0x80 0xBF (byte - 0xF0))
  else none

/-- The bits of a character together with those of its next byte. -/
def bitsWith (pending : Pending) (byte : UInt8) : Nat :=
  pending.bits * 0x40 + (byte.toNat - 0x80)

/-- Use one byte more of a character that owes at least another one. -/
def advance (pending : Pending) (byte : UInt8) : Pending :=
  { pending with
    used := pending.used + 1
    owed := pending.owed - 1
    low := 0x80
    high := 0xBF
    bits := pending.bitsWith byte }

/-- Report a character that cannot be completed. -/
def fail (pending : Pending) (flaw : Flaw) : DecodeError :=
  ⟨pending.position, pending.first, pending.used, flaw⟩

end Pending

/-- Read the characters of a list of bytes from a position on, with the
character that is still incomplete there, if any. -/
def decodeFrom : Nat → Option Pending → List UInt8 → Except DecodeError (List Char)
  | _, none, [] => .ok []
  | _, some pending, [] => .error (pending.fail .ending)
  | position, none, byte :: rest =>
      if byte.toNat < 0x80 then
        (Char.ofNat byte.toNat :: ·) <$> decodeFrom (position + 1) none rest
      else
        match Pending.open? position byte with
        | none => .error ⟨position, byte, 1, .start⟩
        | some pending => decodeFrom (position + 1) (some pending) rest
  | position, some pending, byte :: rest =>
      if pending.low ≤ byte.toNat ∧ byte.toNat ≤ pending.high then
        if pending.owed ≤ 1 then
          (Char.ofNat (pending.bitsWith byte) :: ·) <$> decodeFrom (position + 1) none rest
        else
          decodeFrom (position + 1) (some (pending.advance byte)) rest
      else .error (pending.fail .continuation)

/-- The text that bytes encode. -/
def decode (bytes : List UInt8) : Except DecodeError String :=
  .ofList <$> decodeFrom 0 none bytes

end DecimalMachine.Text.Utf8
