import SipxClstr.Sip.Text
import Mathlib.Data.UInt

/-!
# Reading text back

Decoding the UTF-8 bytes of a text gives the text back, and a number written in
decimal parses back to itself.
-/

namespace SipxClstr.Sip

/-! ## UTF-8 -/

theorem char_toNat_valid (c : Char) : c.toNat < 0xD800 ∨ (0xDFFF < c.toNat ∧ c.toNat < 0x110000) :=
  c.valid

theorem uint8_toNat_ofNat {value : Nat} (fits : value < 256) : (UInt8.ofNat value).toNat = value := by
  simp
  omega

/-- A byte within its bounds continues a sequence. -/
theorem continues_cons {low high : UInt8} {value : Nat} {rest : Bytes} (fits : value < 256)
    (above : low.toNat ≤ value) (below : value ≤ high.toNat) :
    continues low high (UInt8.ofNat value :: rest) = true := by
  simp only [continues, Bool.and_eq_true, decide_eq_true_eq, UInt8.le_iff_toNat_le,
    uint8_toNat_ofNat fits]
  exact ⟨above, below⟩

theorem tailBits_cons {value : Nat} {rest : Bytes} (fits : value < 256) :
    tailBits (UInt8.ofNat value :: rest) = value % 64 := by
  simp only [tailBits, List.headD_cons, uint8_toNat_ofNat fits]

theorem decodeLead_one {value : Nat} {rest : Bytes} (ascii : value ≤ 0x7f) :
    decodeLead (UInt8.ofNat value) rest = (Char.ofNat value, 0) := by
  have lead : (UInt8.ofNat value).toNat = value := uint8_toNat_ofNat (by omega)
  have isAscii : UInt8.ofNat value < 0x80 := by
    rw [UInt8.lt_iff_toNat_lt, lead]
    exact Nat.lt_succ_of_le ascii
  rw [decodeLead, if_pos isAscii, lead]

theorem decodeLead_two {value : Nat} {rest : Bytes} (above : 0x7f < value) (below : value ≤ 0x7ff) :
    decodeLead (UInt8.ofNat (value / 64 % 0x20 + 0xc0))
      (UInt8.ofNat (value % 0x40 + 0x80) :: rest) = (Char.ofNat value, 1) := by
  have lead : (UInt8.ofNat (value / 64 % 0x20 + 0xc0)).toNat = value / 64 % 0x20 + 0xc0 :=
    uint8_toNat_ofNat (by omega)
  have second : continues 0x80 0xBF (UInt8.ofNat (value % 0x40 + 0x80) :: rest) = true := by
    apply continues_cons
    · omega
    · simp
    · simp
      omega
  have assembled : (value / 64 % 0x20 + 0xc0) % 32 * 64 + (value % 0x40 + 0x80) % 64 = value := by
    omega
  have bits : tailBits (UInt8.ofNat (value % 0x40 + 0x80) :: rest) = (value % 0x40 + 0x80) % 64 :=
    tailBits_cons (by omega)
  simp only [decodeLead, UInt8.lt_iff_toNat_lt, UInt8.le_iff_toNat_le, lead, second, if_true, bits,
    assembled, Bool.and_eq_true, decide_eq_true_eq]
  rw [if_neg, if_pos]
  · simp
    omega
  · simp

theorem decodeLead_three {value : Nat} {rest : Bytes} (above : 0x7ff < value)
    (below : value ≤ 0xffff) (valid : value < 0xD800 ∨ 0xDFFF < value) :
    decodeLead (UInt8.ofNat (value / 4096 % 0x10 + 0xe0))
      (UInt8.ofNat (value / 64 % 0x40 + 0x80) :: UInt8.ofNat (value % 0x40 + 0x80) :: rest) =
        (Char.ofNat value, 2) := by
  have lead : (UInt8.ofNat (value / 4096 % 0x10 + 0xe0)).toNat = value / 4096 % 0x10 + 0xe0 :=
    uint8_toNat_ofNat (by omega)
  -- The bounds on the second byte exclude overlong sequences and surrogates.
  have second : continues (secondOfThree (UInt8.ofNat (value / 4096 % 0x10 + 0xe0))).1
      (secondOfThree (UInt8.ofNat (value / 4096 % 0x10 + 0xe0))).2
      (UInt8.ofNat (value / 64 % 0x40 + 0x80) :: UInt8.ofNat (value % 0x40 + 0x80) :: rest) =
        true := by
    simp only [secondOfThree, ← UInt8.toNat_inj, lead]
    apply continues_cons
    · omega
    · split
      · simp
        simp at *
        omega
      · split <;> simp
    · split
      · simp
        omega
      · split
        · simp
          simp at *
          omega
        · simp
          omega
  have third : continues 0x80 0xBF (UInt8.ofNat (value % 0x40 + 0x80) :: rest) = true := by
    apply continues_cons
    · omega
    · simp
    · simp
      omega
  have assembled : ((value / 4096 % 0x10 + 0xe0) % 16 * 64 + (value / 64 % 0x40 + 0x80) % 64) * 64 +
      (value % 0x40 + 0x80) % 64 = value := by
    omega
  have secondBits : tailBits (UInt8.ofNat (value / 64 % 0x40 + 0x80) ::
      UInt8.ofNat (value % 0x40 + 0x80) :: rest) = (value / 64 % 0x40 + 0x80) % 64 :=
    tailBits_cons (by omega)
  have thirdBits : tailBits (UInt8.ofNat (value % 0x40 + 0x80) :: rest) =
      (value % 0x40 + 0x80) % 64 :=
    tailBits_cons (by omega)
  simp only [decodeLead, UInt8.lt_iff_toNat_lt, UInt8.le_iff_toNat_le, lead, second, if_true,
    List.drop_succ_cons, List.drop_zero, third, secondBits, thirdBits, assembled,
    Bool.and_eq_true, decide_eq_true_eq]
  rw [if_neg, if_neg, if_pos]
  · simp
    omega
  · simp
  · simp

theorem decodeLead_four {value : Nat} {rest : Bytes} (above : 0xffff < value)
    (below : value < 0x110000) :
    decodeLead (UInt8.ofNat (value / 262144 % 0x08 + 0xf0))
      (UInt8.ofNat (value / 4096 % 0x40 + 0x80) :: UInt8.ofNat (value / 64 % 0x40 + 0x80) ::
        UInt8.ofNat (value % 0x40 + 0x80) :: rest) = (Char.ofNat value, 3) := by
  have lead : (UInt8.ofNat (value / 262144 % 0x08 + 0xf0)).toNat = value / 262144 % 0x08 + 0xf0 :=
    uint8_toNat_ofNat (by omega)
  -- The bounds on the second byte exclude overlong sequences and values past the last.
  have second : continues (secondOfFour (UInt8.ofNat (value / 262144 % 0x08 + 0xf0))).1
      (secondOfFour (UInt8.ofNat (value / 262144 % 0x08 + 0xf0))).2
      (UInt8.ofNat (value / 4096 % 0x40 + 0x80) :: UInt8.ofNat (value / 64 % 0x40 + 0x80) ::
        UInt8.ofNat (value % 0x40 + 0x80) :: rest) = true := by
    simp only [secondOfFour, ← UInt8.toNat_inj, lead]
    apply continues_cons
    · omega
    · split
      · simp
        simp at *
        omega
      · split <;> simp
    · split
      · simp
        omega
      · split
        · simp
          simp at *
          omega
        · simp
          omega
  have third : continues 0x80 0xBF (UInt8.ofNat (value / 64 % 0x40 + 0x80) ::
      UInt8.ofNat (value % 0x40 + 0x80) :: rest) = true := by
    apply continues_cons
    · omega
    · simp
    · simp
      omega
  have fourth : continues 0x80 0xBF (UInt8.ofNat (value % 0x40 + 0x80) :: rest) = true := by
    apply continues_cons
    · omega
    · simp
    · simp
      omega
  have assembled : (((value / 262144 % 0x08 + 0xf0) % 8 * 64 + (value / 4096 % 0x40 + 0x80) % 64) * 64
      + (value / 64 % 0x40 + 0x80) % 64) * 64 + (value % 0x40 + 0x80) % 64 = value := by
    omega
  have secondBits : tailBits (UInt8.ofNat (value / 4096 % 0x40 + 0x80) ::
      UInt8.ofNat (value / 64 % 0x40 + 0x80) :: UInt8.ofNat (value % 0x40 + 0x80) :: rest) =
        (value / 4096 % 0x40 + 0x80) % 64 :=
    tailBits_cons (by omega)
  have thirdBits : tailBits (UInt8.ofNat (value / 64 % 0x40 + 0x80) ::
      UInt8.ofNat (value % 0x40 + 0x80) :: rest) = (value / 64 % 0x40 + 0x80) % 64 :=
    tailBits_cons (by omega)
  have fourthBits : tailBits (UInt8.ofNat (value % 0x40 + 0x80) :: rest) =
      (value % 0x40 + 0x80) % 64 :=
    tailBits_cons (by omega)
  simp only [decodeLead, UInt8.lt_iff_toNat_lt, UInt8.le_iff_toNat_le, lead, second, if_true,
    List.drop_succ_cons, List.drop_zero, third, fourth, secondBits, thirdBits, fourthBits, assembled,
    Bool.and_eq_true, decide_eq_true_eq]
  rw [if_neg, if_neg, if_neg, if_pos]
  · simp
    omega
  · simp
  · simp
  · simp

/-- The bytes of one character decode to it, whatever follows. -/
theorem decodeLead_utf8EncodeChar (c : Char) :
    ∃ lead tail, String.utf8EncodeChar c = lead :: tail ∧
      ∀ rest, decodeLead lead (tail ++ rest) = (c, tail.length) := by
  have valid := char_toNat_valid c
  have same : Char.ofNat c.toNat = c := Char.ofNat_toNat c
  have value : c.val.toNat = c.toNat := rfl
  unfold String.utf8EncodeChar
  simp only [value]
  by_cases one : c.toNat ≤ 0x7f
  · rw [if_pos one]
    refine ⟨_, _, rfl, fun rest => ?_⟩
    rw [List.nil_append, decodeLead_one one, same]
    rfl
  by_cases two : c.toNat ≤ 0x7ff
  · rw [if_neg one, if_pos two]
    refine ⟨_, _, rfl, fun rest => ?_⟩
    rw [List.cons_append, decodeLead_two (by omega) two, same]
    rfl
  by_cases three : c.toNat ≤ 0xffff
  · rw [if_neg one, if_neg two, if_pos three]
    refine ⟨_, _, rfl, fun rest => ?_⟩
    rw [List.cons_append, List.cons_append, decodeLead_three (by omega) three (by omega), same]
    rfl
  · rw [if_neg one, if_neg two, if_neg three]
    refine ⟨_, _, rfl, fun rest => ?_⟩
    rw [List.cons_append, List.cons_append, List.cons_append,
      decodeLead_four (by omega) (by omega), same]
    rfl

theorem fromUtf8LossyUpTo_utf8 (value : Text) {fuel : Nat} (enough : (utf8 value).length ≤ fuel) :
    fromUtf8LossyUpTo fuel (utf8 value) = value := by
  induction value generalizing fuel with
  | nil => cases fuel <;> rfl
  | cons c rest ih =>
      obtain ⟨lead, tail, encoded, decoded⟩ := decodeLead_utf8EncodeChar c
      have split : utf8 (c :: rest) = lead :: (tail ++ utf8 rest) := by
        simp [utf8, encoded]
      rw [split] at enough ⊢
      cases fuel with
      | zero => contradiction
      | succ fuel =>
          have later : (utf8 rest).length ≤ fuel := by
            simp only [List.length_cons, List.length_append] at enough
            omega
          rw [fromUtf8LossyUpTo, decoded, List.drop_left, ih later]

/-- Text survives being written as UTF-8 and decoded. -/
@[simp]
theorem fromUtf8Lossy_utf8 (value : Text) : fromUtf8Lossy (utf8 value) = value :=
  fromUtf8LossyUpTo_utf8 value le_rfl

/-- A byte below `0x80` is a character of its own. -/
theorem toNat_of_mem_utf8EncodeChar {c : Char} {byte : UInt8}
    (member : byte ∈ String.utf8EncodeChar c) (ascii : byte.toNat < 0x80) :
    c.toNat = byte.toNat := by
  have value : c.val.toNat = c.toNat := rfl
  unfold String.utf8EncodeChar at member
  simp only [value] at member
  split at member
  · rw [List.mem_singleton] at member
    subst byte
    simp
    omega
  · split at member
    · simp only [List.mem_cons, List.not_mem_nil, or_false] at member
      rcases member with rfl | rfl <;> simp at ascii <;> omega
    · split at member
      · simp only [List.mem_cons, List.not_mem_nil, or_false] at member
        rcases member with rfl | rfl | rfl <;> simp at ascii <;> omega
      · simp only [List.mem_cons, List.not_mem_nil, or_false] at member
        rcases member with rfl | rfl | rfl | rfl <;> simp at ascii <;> omega

/-! ## Decimal numbers -/

theorem digitsValue_concat (digits : Text) (digit : Char) :
    digitsValue (digits ++ [digit]) = digitsValue digits * 10 + (digit.toNat - '0'.toNat) := by
  simp [digitsValue]

theorem digitChar_value {digit : Nat} (isDigit : digit < 10) :
    digit.digitChar.toNat - '0'.toNat = digit := by
  have all : ∀ digit : Fin 10, (digit.val).digitChar.toNat - '0'.toNat = digit.val := by decide
  exact all ⟨digit, isDigit⟩

theorem digitsValue_decimal (value : Nat) : digitsValue (decimal value) = value := by
  induction value using Nat.strongRecOn with
  | ind value ih =>
      rw [decimal, Nat.toDigits_eq_if (by decide)]
      split
      · next isDigit =>
          simpa [digitsValue] using digitChar_value isDigit
      · next large =>
          have quotient := ih (value / 10) (by omega)
          rw [decimal] at quotient
          rw [digitsValue_concat, quotient, digitChar_value (by omega)]
          omega

theorem isDigit_of_mem_decimal {value : Nat} {digit : Char} (member : digit ∈ decimal value) :
    digit.isDigit = true :=
  Nat.isDigit_of_mem_toDigits (by decide) (by decide) member

theorem decimal_ne_nil (value : Nat) : decimal value ≠ [] := by
  rw [decimal, Nat.toDigits_eq_if (by decide)]
  split <;> simp

theorem isWhitespace_of_isDigit {digit : Char} (isDigit : digit.isDigit = true) :
    isWhitespace digit = false := by
  simp only [Char.isDigit, Bool.and_eq_true, decide_eq_true_eq, UInt32.le_iff_toNat_le] at isDigit
  obtain ⟨low, high⟩ := isDigit
  change 48 ≤ digit.toNat at low
  change digit.toNat ≤ 57 at high
  simp [isWhitespace]
  omega

/-- Text without white space at its ends is left as it is. -/
theorem trim_eq_self {value : Text} (none_white : ∀ c ∈ value, isWhitespace c = false) :
    trim value = value := by
  have kept : ∀ text : Text, (∀ c ∈ text, isWhitespace c = false) →
      text.dropWhile isWhitespace = text := by
    intro text clear
    cases text with
    | nil => rfl
    | cons c rest => simp [clear c List.mem_cons_self]
  rw [trim, kept value none_white, List.rdropWhile, kept, List.reverse_reverse]
  simpa using none_white

/-- A number parses back from its digits where it fits the type. -/
theorem parseUnsigned_decimal {max value : Nat} (fits : value ≤ max) :
    parseUnsigned max (decimal value) = some value := by
  have digits : ∀ c ∈ decimal value, c.isDigit = true := fun _ => isDigit_of_mem_decimal
  have noSign : ∀ rest, decimal value ≠ '+' :: rest := by
    intro rest signed
    have isDigit := digits '+' (by rw [signed]; exact List.mem_cons_self)
    contradiction
  unfold parseUnsigned
  split
  · next rest signed => exact absurd signed (noSign rest)
  · simp only [digitsValue_decimal]
    rw [if_pos ⟨decimal_ne_nil value, List.all_eq_true.mpr digits, fits⟩]

end SipxClstr.Sip
