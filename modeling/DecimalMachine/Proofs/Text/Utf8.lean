import DecimalMachine.Text.Utf8
import Mathlib.Algebra.Group.Nat.Defs
import Mathlib.Tactic.SplitIfs

/-!
# Texts as bytes

A text that is encoded is decoded as itself.  A character of several bytes is
opened by the first of them, which tells how many continue it.  Each of these
adds six bits to those that were read before, until the character is complete.
-/

namespace DecimalMachine.Text.Utf8

/-- The bytes that continue a character, so many of them. -/
def continuation (code : Nat) : Nat → List UInt8
  | 0 => []
  | count + 1 => UInt8.ofNat (code / 64 ^ count % 64 + 0x80) :: continuation code count

/-- What was read of a character are the first bits of a code point. Some bytes
are owed behind the next one, which is allowed. -/
structure Pending.Awaits (pending : Pending) (code count : Nat) : Prop where
  owed : pending.owed = count + 1
  bits : pending.bits = code / 64 ^ (count + 1)
  low : pending.low ≤ code / 64 ^ count % 64 + 0x80
  high : code / 64 ^ count % 64 + 0x80 ≤ pending.high

variable {pending : Pending} {code count : Nat}

theorem toNat_continuation (bits : Nat) :
    (UInt8.ofNat (bits % 64 + 0x80)).toNat = bits % 64 + 0x80 := by
  rw [UInt8.toNat_ofNat']
  omega

/-- A byte that continues a character adds its bits. -/
theorem Pending.Awaits.bitsWith (awaits : pending.Awaits code count) :
    pending.bitsWith (UInt8.ofNat (code / 64 ^ count % 64 + 0x80)) = code / 64 ^ count := by
  have whole : code / 64 ^ (count + 1) * 64 + code / 64 ^ count % 64 = code / 64 ^ count := by
    rw [Nat.pow_succ, ← Nat.div_div_eq_div_mul]
    exact Nat.div_add_mod' _ 64
  unfold Pending.bitsWith
  rw [toNat_continuation, awaits.bits, Nat.add_sub_cancel, whole]

theorem Pending.Awaits.advance (awaits : pending.Awaits code (count + 1)) :
    (pending.advance (UInt8.ofNat (code / 64 ^ (count + 1) % 64 + 0x80))).Awaits code count where
  owed := by simp [Pending.advance, awaits.owed]
  bits := awaits.bitsWith
  low := Nat.le_add_left _ _
  high := by
    simp only [Pending.advance]
    omega

/-- The bytes that a character owes complete it. -/
theorem decodeFrom_continuation (awaits : pending.Awaits code count) (position : Nat)
    (rest : List UInt8) :
    ∃ later, decodeFrom position (some pending) (continuation code (count + 1) ++ rest) =
      (Char.ofNat code :: ·) <$> decodeFrom later none rest := by
  have allowed := And.intro awaits.low awaits.high
  induction count generalizing pending position with
  | zero =>
      refine ⟨position + 1, ?_⟩
      rw [continuation, List.cons_append, decodeFrom, toNat_continuation, if_pos allowed,
        awaits.bitsWith, if_pos (Nat.le_of_eq awaits.owed), continuation, List.nil_append,
        Nat.pow_zero, Nat.div_one]
  | succ count ih =>
      have next := awaits.advance
      obtain ⟨later, decoded⟩ := ih next (position + 1) ⟨next.low, next.high⟩
      refine ⟨later, ?_⟩
      rw [continuation, List.cons_append, decodeFrom, toNat_continuation, if_pos allowed,
        if_neg (by rw [awaits.owed]; omega), decoded]

/-! ## First bytes -/

section Opening

variable {first : UInt8} (position : Nat)

theorem open?_of_two (least : 0xC2 ≤ first.toNat) (most : first.toNat ≤ 0xDF) :
    Pending.open? position first =
      some ⟨position, first, 1, 1, 0x80, 0xBF, first.toNat - 0xC0⟩ := by
  rw [Pending.open?, if_pos ⟨least, most⟩]

theorem open?_of_three (least : 0xE0 ≤ first.toNat) (most : first.toNat ≤ 0xEF) :
    Pending.open? position first =
      some ⟨position, first, 1, 2, if first.toNat = 0xE0 then 0xA0 else 0x80,
        if first.toNat = 0xED then 0x9F else 0xBF, first.toNat - 0xE0⟩ := by
  rw [Pending.open?, if_neg (by omega)]
  split_ifs <;> first | rfl | omega

theorem open?_of_four (least : 0xF0 ≤ first.toNat) (most : first.toNat ≤ 0xF4) :
    Pending.open? position first =
      some ⟨position, first, 1, 3, if first.toNat = 0xF0 then 0x90 else 0x80,
        if first.toNat = 0xF4 then 0x8F else 0xBF, first.toNat - 0xF0⟩ := by
  rw [Pending.open?, if_neg (by omega), if_neg (by omega), if_neg (by omega), if_neg (by omega)]
  split_ifs <;> first | rfl | omega

end Opening

/-- A byte that opens a character, which goes on with the last bytes of a code
point. -/
def Opens (first : UInt8) (code count : Nat) : Prop :=
  0x80 ≤ first.toNat ∧ ∀ position, ∃ pending, Pending.open? position first = some pending ∧
    pending.Awaits code count

theorem opens_two (least : 0x80 ≤ code) (most : code ≤ 0x7FF) :
    Opens (UInt8.ofNat (code / 64 % 32 + 192)) code 0 := by
  have byte : (UInt8.ofNat (code / 64 % 32 + 192)).toNat = code / 64 + 192 := by
    rw [UInt8.toNat_ofNat']
    omega
  refine ⟨by omega, fun position =>
    ⟨_, open?_of_two position (by omega) (by omega), rfl, ?_, ?_, ?_⟩⟩
  · simp only [byte]
    omega
  · exact Nat.le_add_left _ _
  · simp only
    omega

/-- The second byte of three excludes overlong forms and surrogates. -/
theorem opens_three (least : 0x800 ≤ code) (most : code ≤ 0xFFFF)
    (valid : code < 0xD800 ∨ 0xDFFF < code) :
    Opens (UInt8.ofNat (code / 4096 % 16 + 224)) code 1 := by
  have byte : (UInt8.ofNat (code / 4096 % 16 + 224)).toNat = code / 4096 + 224 := by
    rw [UInt8.toNat_ofNat']
    omega
  refine ⟨by omega, fun position =>
    ⟨_, open?_of_three position (by omega) (by omega), rfl, ?_, ?_, ?_⟩⟩
  · simp only [byte]
    omega
  · simp only [byte]
    split <;> omega
  · simp only [byte]
    split <;> omega

/-- The second byte of four excludes overlong forms and code points beyond the
last. -/
theorem opens_four (least : 0x10000 ≤ code) (most : code ≤ 0x10FFFF) :
    Opens (UInt8.ofNat (code / 262144 % 8 + 240)) code 2 := by
  have byte : (UInt8.ofNat (code / 262144 % 8 + 240)).toNat = code / 262144 + 240 := by
    rw [UInt8.toNat_ofNat']
    omega
  refine ⟨by omega, fun position =>
    ⟨_, open?_of_four position (by omega) (by omega), rfl, ?_, ?_, ?_⟩⟩
  · simp only [byte]
    omega
  · simp only [byte]
    split <;> omega
  · simp only [byte]
    split <;> omega

/-! ## Texts -/

/-- A character that is opened is read with the bytes that continue it. -/
theorem decodeFrom_of_opens {first : UInt8} (opens : Opens first code count) (position : Nat)
    (rest : List UInt8) :
    ∃ later, decodeFrom position none (first :: continuation code (count + 1) ++ rest) =
      (Char.ofNat code :: ·) <$> decodeFrom later none rest := by
  obtain ⟨large, opened⟩ := opens
  obtain ⟨pending, opened, awaits⟩ := opened position
  obtain ⟨later, decoded⟩ := decodeFrom_continuation awaits (position + 1) rest
  refine ⟨later, ?_⟩
  rw [List.cons_append, decodeFrom, if_neg (Nat.not_lt_of_le large), opened]
  exact decoded

/-- A character is one byte of ASCII, or a byte that opens it with those that
continue it. -/
theorem utf8EncodeChar_eq (c : Char) :
    (c.toNat < 0x80 ∧ String.utf8EncodeChar c = [UInt8.ofNat c.toNat]) ∨
      ∃ first count, Opens first c.toNat count ∧
        String.utf8EncodeChar c = first :: continuation c.toNat (count + 1) := by
  have valid : c.toNat < 0xD800 ∨ 0xDFFF < c.toNat ∧ c.toNat < 0x110000 := c.valid
  have bytes : String.utf8EncodeChar c = _ := String.utf8EncodeChar.eq_1 c
  rw [show c.val.toNat = c.toNat from rfl] at bytes
  by_cases one : c.toNat ≤ 0x7F
  · rw [if_pos one] at bytes
    exact .inl ⟨by omega, bytes⟩
  right
  rw [if_neg one] at bytes
  by_cases two : c.toNat ≤ 0x7FF
  · rw [if_pos two] at bytes
    refine ⟨_, 0, opens_two (by omega) two, ?_⟩
    simpa [continuation] using bytes
  rw [if_neg two] at bytes
  by_cases three : c.toNat ≤ 0xFFFF
  · rw [if_pos three] at bytes
    refine ⟨_, 1, opens_three (by omega) three (by omega), ?_⟩
    simpa [continuation] using bytes
  · rw [if_neg three] at bytes
    refine ⟨_, 2, opens_four (by omega) (by omega), ?_⟩
    simpa [continuation] using bytes

/-- A character is read from its bytes, whatever follows them. -/
theorem decodeFrom_utf8EncodeChar (c : Char) (position : Nat) (rest : List UInt8) :
    ∃ later, decodeFrom position none (String.utf8EncodeChar c ++ rest) =
      (c :: ·) <$> decodeFrom later none rest := by
  rcases utf8EncodeChar_eq c with ⟨ascii, bytes⟩ | ⟨first, count, opens, bytes⟩
  · refine ⟨position + 1, ?_⟩
    have byte : (UInt8.ofNat c.toNat).toNat = c.toNat := by
      rw [UInt8.toNat_ofNat']
      omega
    rw [bytes, List.singleton_append, decodeFrom, byte, if_pos ascii, Char.ofNat_toNat]
  · obtain ⟨later, decoded⟩ := decodeFrom_of_opens opens position rest
    rw [Char.ofNat_toNat] at decoded
    exact ⟨later, by rw [bytes, decoded]⟩

theorem decodeFrom_flatMap (text : List Char) (position : Nat) :
    decodeFrom position none (text.flatMap String.utf8EncodeChar) = .ok text := by
  induction text generalizing position with
  | nil => rfl
  | cons c text ih =>
      obtain ⟨later, decoded⟩ :=
        decodeFrom_utf8EncodeChar c position (text.flatMap String.utf8EncodeChar)
      rw [List.flatMap_cons, decoded, ih later]
      rfl

/-- A text is decoded as it was encoded. -/
theorem decode_encode (text : String) : decode (encode text) = .ok text := by
  rw [decode, encode, decodeFrom_flatMap]
  exact congrArg Except.ok String.ofList_toList

end DecimalMachine.Text.Utf8
