import SipxClstr.Affinity.Image
import SipxClstr.Sip.Utf8

/-!
# Base64url, unpadded

The encoding of the token parameter's value, and its strict decoder: padding and bytes
outside the alphabet are refused.  Decoding what was encoded gives it back.
-/

namespace SipxClstr.Affinity

open SipxClstr.Sip

def alphabet : Text :=
  text "ABCDEFGHIJKLMNOPQRSTUVWXYZabcdefghijklmnopqrstuvwxyz0123456789-_"

/-- How many characters unpadded base64url needs for `len` bytes. -/
def encodedLen (len : Nat) : Nat :=
  match len % 3 with
  | 0 => len / 3 * 4
  | 1 => len / 3 * 4 + 2
  | _ => len / 3 * 4 + 3

/-- Why a parameter value is not a token at all. -/
inductive DecodeError where
  | notInAlphabet (byte : UInt8) (offset : Nat)
  /-- One character of a group of four encodes a fractional byte. -/
  | badLength (len : Nat)
  deriving DecidableEq, Repr

/-- The six-bit value a character stands for. -/
def digitOf (byte : UInt8) : Option UInt8 :=
  if 0x41 ≤ byte && byte ≤ 0x5A then some (byte - 0x41)
  else if 0x61 ≤ byte && byte ≤ 0x7A then some (byte - 0x61 + 26)
  else if 0x30 ≤ byte && byte ≤ 0x39 then some (byte - 0x30 + 52)
  else if byte = 0x2D then some 62
  else if byte = 0x5F then some 63
  else none

/-- The character of a six-bit value. -/
def charOf (digit : UInt8) : Char :=
  (alphabet[digit.toNat]?).getD 'A'

/-- The six-bit values of up to three bytes: one more than there are bytes. -/
def digitsOfChunk (chunk : Bytes) : List UInt8 :=
  let b0 := chunk[0]?.getD 0
  let b1 := chunk[1]?.getD 0
  let b2 := chunk[2]?.getD 0
  [b0 >>> 2, ((b0 &&& 0x03) <<< 4) ||| (b1 >>> 4), ((b1 &&& 0x0F) <<< 2) ||| (b2 >>> 6),
    b2 &&& 0x3F].take (chunk.length + 1)

/-- Encode bytes, three at a time. -/
def encodeParamValue : Bytes → Text
  | b0 :: b1 :: b2 :: rest => (digitsOfChunk [b0, b1, b2]).map charOf ++ encodeParamValue rest
  | [] => []
  | chunk => (digitsOfChunk chunk).map charOf

/-- The six-bit values of characters that start at `offset`. -/
def digitsOf : Nat → Bytes → Except DecodeError (List UInt8)
  | _, [] => .ok []
  | offset, byte :: rest =>
      match digitOf byte with
      | none => .error (.notInAlphabet byte offset)
      | some digit => (digitsOf (offset + 1) rest).map (digit :: ·)

/-- Decode up to four characters: one byte fewer than there are characters. -/
def decodeChunk (len offset : Nat) (chunk : Bytes) : Except DecodeError Bytes :=
  match digitsOf offset chunk with
  | .error refused => .error refused
  | .ok digits =>
      let d0 := digits[0]?.getD 0
      let d1 := digits[1]?.getD 0
      let d2 := digits[2]?.getD 0
      let d3 := digits[3]?.getD 0
      if chunk.length = 1 then
        .error (.badLength len)
      else
        .ok ([(d0 <<< 2) ||| (d1 >>> 4), (d1 <<< 4) ||| (d2 >>> 2), (d2 <<< 6) ||| d3].take
          (chunk.length - 1))

/-- Decode characters that start at `offset`, four at a time. -/
def decodeChunks (len : Nat) : Nat → Bytes → Except DecodeError Bytes
  | offset, c0 :: c1 :: c2 :: c3 :: rest =>
      match decodeChunk len offset [c0, c1, c2, c3] with
      | .error refused => .error refused
      | .ok bytes => (decodeChunks len (offset + 4) rest).map (bytes ++ ·)
  | _, [] => .ok []
  | offset, chunk => decodeChunk len offset chunk

/-- Decode a parameter value. -/
def decodeParamValue (value : Text) : Except DecodeError Bytes :=
  decodeChunks (utf8 value).length 0 (utf8 value)

/-- The `aft` parameter value of a token. -/
def Token.toParamValue (token : Token) : Text :=
  encodeParamValue token.asBytes

/-! ## Digits and characters -/

/-- What holds of the 256 bytes holds of every byte. -/
theorem forall_byte {property : UInt8 → Prop}
    (all : ∀ value : Fin 256, property (UInt8.ofNat value.val)) (byte : UInt8) : property byte := by
  have holds := all ⟨byte.toNat, byte.toNat_lt⟩
  rw [UInt8.ofNat_toNat] at holds
  exact holds

/-- What holds of the 64 six-bit values holds of every digit. -/
theorem forall_digit {property : UInt8 → Prop}
    (all : ∀ digit : Fin 64, property (UInt8.ofNat digit.val)) (digit : UInt8)
    (below : digit < 64) : property digit := by
  rw [UInt8.lt_iff_toNat_lt] at below
  have holds := all ⟨digit.toNat, below⟩
  rw [UInt8.ofNat_toNat] at holds
  exact holds

/-- The character of a six-bit value is one byte, which stands for it. -/
theorem exists_utf8EncodeChar_charOf : ∀ digit : UInt8, digit < 64 →
    ∃ byte, String.utf8EncodeChar (charOf digit) = [byte] ∧ digitOf byte = some digit := by
  have found : ∀ digit : UInt8, digit < 64 →
      ((String.utf8EncodeChar (charOf digit)).head?.bind digitOf) = some digit ∧
        (String.utf8EncodeChar (charOf digit)).length = 1 := by
    apply forall_digit
    decide +kernel
  intro digit below
  obtain ⟨stands, one⟩ := found digit below
  obtain ⟨byte, isByte⟩ := List.length_eq_one_iff.mp one
  rw [isByte] at stands
  exact ⟨byte, isByte, stands⟩

theorem utf8_append (first second : Text) : utf8 (first ++ second) = utf8 first ++ utf8 second :=
  List.flatMap_append

/-- Six-bit values are read back from their characters. -/
theorem digitsOf_utf8 {digits : List UInt8} (below : ∀ digit ∈ digits, digit < 64) (offset : Nat) :
    digitsOf offset (utf8 (digits.map charOf)) = .ok digits ∧
      (utf8 (digits.map charOf)).length = digits.length := by
  induction digits generalizing offset with
  | nil => exact ⟨rfl, rfl⟩
  | cons digit rest ih =>
      obtain ⟨byte, isByte, stands⟩ :=
        exists_utf8EncodeChar_charOf digit (below digit List.mem_cons_self)
      obtain ⟨restRead, restLength⟩ :=
        ih (fun other member => below other (List.mem_cons_of_mem _ member)) (offset + 1)
      have split : utf8 ((digit :: rest).map charOf) = byte :: utf8 (rest.map charOf) := by
        rw [List.map_cons, utf8, List.flatMap_cons, isByte]
        rfl
      rw [split]
      constructor
      · simp only [digitsOf, stands, restRead]
        rfl
      · rw [List.length_cons, restLength, List.length_cons]

/-! ## Three bytes and four digits -/

section Bits

/-- What a byte leaves in six bits keeps to them. -/
theorem bits_lt : ∀ byte : UInt8,
    (byte >>> 2 < 64 ∧ byte &&& 0x3F < 64) ∧ ((byte &&& 0x03) <<< 4 < 64 ∧ byte >>> 4 < 64) ∧
      (byte &&& 0x0F) <<< 2 < 64 ∧ byte >>> 6 < 64 := by
  apply forall_byte
  decide +kernel

/-- Bits that are moved and moved back, and those that are moved out. -/
theorem bits_moved : ∀ byte : UInt8,
    (((byte &&& 0x03) <<< 4) >>> 4 = byte &&& 0x03 ∧ (byte >>> 4) >>> 4 = 0 ∧
      (byte >>> 2) <<< 2 ||| (byte &&& 0x03) = byte) ∧
    (((byte &&& 0x03) <<< 4) <<< 4 = 0 ∧ ((byte &&& 0x0F) <<< 2) >>> 2 = byte &&& 0x0F ∧
      (byte >>> 6) >>> 2 = 0 ∧ (byte >>> 4) <<< 4 ||| (byte &&& 0x0F) = byte) ∧
    ((byte &&& 0x0F) <<< 2) <<< 6 = 0 ∧ (byte >>> 6) <<< 6 ||| (byte &&& 0x3F) = byte := by
  apply forall_byte
  decide +kernel

theorem digit_first_lt (byte : UInt8) : byte >>> 2 < 64 :=
  (bits_lt byte).1.1

theorem digit_last_lt (byte : UInt8) : byte &&& 0x3F < 64 :=
  (bits_lt byte).1.2

/-- Two values of six bits keep to them together. -/
theorem or_lt {first second : UInt8} (firstBelow : first < 64) (secondBelow : second < 64) :
    first ||| second < 64 := by
  rw [UInt8.lt_iff_toNat_lt] at firstBelow secondBelow ⊢
  rw [UInt8.toNat_or]
  exact Nat.or_lt_two_pow (n := 6) firstBelow secondBelow

theorem digit_second_lt (first second : UInt8) :
    ((first &&& 0x03) <<< 4) ||| (second >>> 4) < 64 :=
  or_lt (bits_lt first).2.1.1 (bits_lt second).2.1.2

theorem digit_third_lt (first second : UInt8) :
    ((first &&& 0x0F) <<< 2) ||| (second >>> 6) < 64 :=
  or_lt (bits_lt first).2.2.1 (bits_lt second).2.2.2

/-- The first byte is in the first two digits. -/
theorem byte_first (first second : UInt8) :
    ((first >>> 2) <<< 2) ||| ((((first &&& 0x03) <<< 4) ||| (second >>> 4)) >>> 4) = first := by
  rcases (bits_moved first).1 with ⟨high, -, both⟩
  rcases (bits_moved second).1 with ⟨-, low, -⟩
  rw [UInt8.shiftRight_or, high, low, UInt8.or_zero, both]

/-- The second byte is in the second and third digits. -/
theorem byte_second (first second third : UInt8) :
    ((((first &&& 0x03) <<< 4) ||| (second >>> 4)) <<< 4) |||
      ((((second &&& 0x0F) <<< 2) ||| (third >>> 6)) >>> 2) = second := by
  rcases (bits_moved first).2.1 with ⟨cleared, -, -, -⟩
  rcases (bits_moved second).2.1 with ⟨-, low, -, both⟩
  rcases (bits_moved third).2.1 with ⟨-, -, dropped, -⟩
  rw [UInt8.shiftLeft_or, UInt8.shiftRight_or, cleared, low, dropped, UInt8.zero_or, UInt8.or_zero,
    both]

/-- The third byte is in the last two digits. -/
theorem byte_third (second third : UInt8) :
    ((((second &&& 0x0F) <<< 2) ||| (third >>> 6)) <<< 6) ||| (third &&& 0x3F) = third := by
  rcases (bits_moved second).2.2 with ⟨cleared, -⟩
  rcases (bits_moved third).2.2 with ⟨-, both⟩
  rw [UInt8.shiftLeft_or, cleared, UInt8.zero_or, both]

end Bits

theorem digitsOfChunk_lt (chunk : Bytes) : ∀ digit ∈ digitsOfChunk chunk, digit < 64 := by
  intro digit member
  have among := List.mem_of_mem_take member
  simp only [List.mem_cons, List.not_mem_nil, or_false] at among
  rcases among with rfl | rfl | rfl | rfl
  · exact digit_first_lt _
  · exact digit_second_lt _ _
  · exact digit_third_lt _ _
  · exact digit_last_lt _

theorem digitsOfChunk_length {chunk : Bytes} (short : chunk.length ≤ 3) :
    (digitsOfChunk chunk).length = chunk.length + 1 := by
  rw [digitsOfChunk, List.length_take]
  exact Nat.min_eq_left (Nat.succ_le_succ short)

/-- Decoding a chunk that was encoded gives it back. -/
theorem decodeChunk_utf8 {chunk : Bytes} (some' : 1 ≤ chunk.length) (short : chunk.length ≤ 3)
    (len offset : Nat) :
    decodeChunk len offset (utf8 ((digitsOfChunk chunk).map charOf)) = .ok chunk := by
  obtain ⟨read, length⟩ := digitsOf_utf8 (digitsOfChunk_lt chunk) offset
  rw [digitsOfChunk_length short] at length
  have several : chunk.length + 1 ≠ 1 := by omega
  simp only [decodeChunk, read, length, if_neg several, Nat.add_sub_cancel]
  match chunk, some', short with
  | [b0], _, _ => simpa [digitsOfChunk] using byte_first b0 0
  | [b0, b1], _, _ =>
      simpa [digitsOfChunk] using And.intro (byte_first b0 b1) (byte_second b0 b1 0)
  | [b0, b1, b2], _, _ =>
      simp only [digitsOfChunk, List.length_cons, List.length_nil]
      simpa using ⟨byte_first b0 b1, byte_second b0 b1 b2, byte_third b1 b2⟩

/-! ## Round trip -/

/-- The length of an encoded value, without the cases. -/
theorem encodedLen_eq (len : Nat) : encodedLen len = (len * 4 + 2) / 3 := by
  have cases : len % 3 = 0 ∨ len % 3 = 1 ∨ len % 3 = 2 := by omega
  rcases cases with none | one | two
  · simp only [encodedLen, none]
    omega
  · simp only [encodedLen, one]
    omega
  · simp only [encodedLen, two]
    omega

/-- What is left of a value when no three bytes are. -/
theorem encodeParamValue_rest {rest : Bytes}
    (notThree : ∀ b0 b1 b2 more, rest = b0 :: b1 :: b2 :: more → False) (notNil : rest = [] → False) :
    1 ≤ rest.length ∧ rest.length ≤ 2 ∧
      encodeParamValue rest = (digitsOfChunk rest).map charOf := by
  match rest, notThree, notNil with
  | [], _, notNil => exact absurd rfl notNil
  | [b0], _, _ => exact ⟨Nat.le_refl 1, Nat.le_succ 1, rfl⟩
  | [b0, b1], _, _ => exact ⟨Nat.le_succ 1, Nat.le_refl 2, rfl⟩
  | b0 :: b1 :: b2 :: more, notThree, _ => exact absurd rfl (notThree b0 b1 b2 more)

theorem length_utf8_digitsOfChunk {chunk : Bytes} (short : chunk.length ≤ 3) :
    (utf8 ((digitsOfChunk chunk).map charOf)).length = chunk.length + 1 := by
  rw [(digitsOf_utf8 (digitsOfChunk_lt chunk) 0).2, digitsOfChunk_length short]

theorem decodeChunks_utf8 (bytes : Bytes) (len offset : Nat) :
    decodeChunks len offset (utf8 (encodeParamValue bytes)) = .ok bytes := by
  induction bytes using encodeParamValue.induct generalizing offset with
  | case1 b0 b1 b2 rest ih =>
      have length : (utf8 ((digitsOfChunk [b0, b1, b2]).map charOf)).length = 4 :=
        length_utf8_digitsOfChunk (by simp)
      have decoded : decodeChunk len offset (utf8 ((digitsOfChunk [b0, b1, b2]).map charOf)) =
          .ok [b0, b1, b2] :=
        decodeChunk_utf8 (by simp) (by simp) len offset
      rw [encodeParamValue, utf8_append]
      generalize utf8 ((digitsOfChunk [b0, b1, b2]).map charOf) = chars at length decoded
      match chars, length with
      | [c0, c1, c2, c3], _ =>
          simp only [List.cons_append, List.nil_append, decodeChunks, decoded, ih]
          rfl
  | case2 => rfl
  | case3 rest notThree notNil =>
      obtain ⟨one, short, encoded⟩ := encodeParamValue_rest notThree notNil
      have length := length_utf8_digitsOfChunk (Nat.le_succ_of_le short)
      have decoded := decodeChunk_utf8 one (Nat.le_succ_of_le short) len offset
      rw [encoded]
      generalize utf8 ((digitsOfChunk rest).map charOf) = chars at length decoded
      have several : 2 ≤ chars.length := by omega
      have few : chars.length ≤ 3 := by omega
      match chars, several, few with
      | [c0, c1], _, _ => exact decoded
      | [c0, c1, c2], _, _ => exact decoded

/-- Decoding what was encoded gives it back. -/
theorem decodeParamValue_encodeParamValue (bytes : Bytes) :
    decodeParamValue (encodeParamValue bytes) = .ok bytes :=
  decodeChunks_utf8 bytes _ 0

/-- An encoded value has the length the budget is computed with. -/
theorem length_utf8_encodeParamValue (bytes : Bytes) :
    (utf8 (encodeParamValue bytes)).length = encodedLen bytes.length := by
  induction bytes using encodeParamValue.induct with
  | case1 b0 b1 b2 rest ih =>
      rw [encodeParamValue, utf8_append, List.length_append, length_utf8_digitsOfChunk (by simp), ih,
        encodedLen_eq, encodedLen_eq]
      simp only [List.length_cons, List.length_nil]
      omega
  | case2 => rfl
  | case3 rest notThree notNil =>
      obtain ⟨one, short, encoded⟩ := encodeParamValue_rest notThree notNil
      rw [encoded, length_utf8_digitsOfChunk (Nat.le_succ_of_le short), encodedLen_eq]
      omega

example : encodeParamValue (bytes "fooba") = text "Zm9vYmE" := by decide +kernel

end SipxClstr.Affinity
