import SipxClstr.Sip.Utf8

/-!
# ASCII text

What decodes to ASCII text is its bytes: a byte outside ASCII, in a sequence or by itself, decodes
to a character outside ASCII.
-/

namespace SipxClstr.Sip

theorem toNat_ofNat_of_valid {value : Nat}
    (valid : value < 0xD800 ∨ (0xDFFF < value ∧ value < 0x110000)) :
    (Char.ofNat value).toNat = value := by
  have isValid : value.isValidChar := valid
  rw [Char.ofNat, dif_pos isValid]
  rfl

theorem tailBits_lt (rest : Bytes) : tailBits rest < 64 :=
  Nat.mod_lt _ (by decide)

/-- A continuation byte gives its low six bits. -/
theorem exists_of_continues {low high : UInt8} {rest : Bytes}
    (goesOn : continues low high rest = true) :
    ∃ next, low.toNat ≤ next ∧ next ≤ high.toNat ∧ tailBits rest = next % 64 := by
  unfold continues at goesOn
  split at goesOn
  · next byte more =>
      simp only [Bool.and_eq_true, decide_eq_true_eq, UInt8.le_iff_toNat_le] at goesOn
      exact ⟨byte.toNat, goesOn.1, goesOn.2, rfl⟩
  · contradiction

/-- A value of three bytes is a character outside ASCII. -/
theorem valid_three {lead : UInt8} {rest : Bytes} (above : 0xE0 ≤ lead.toNat)
    (below : lead.toNat ≤ 0xEF)
    (goesOn : continues (secondOfThree lead).1 (secondOfThree lead).2 rest = true) :
    let value := (lead.toNat % 16 * 64 + tailBits rest) * 64 + tailBits (rest.drop 1)
    0x80 ≤ value ∧ (value < 0xD800 ∨ (0xDFFF < value ∧ value < 0x110000)) := by
  have third := tailBits_lt (rest.drop 1)
  have second := tailBits_lt rest
  obtain ⟨next, low, high, bits⟩ := exists_of_continues goesOn
  generalize tailBits (rest.drop 1) = thirdBits at third ⊢
  unfold secondOfThree at low high
  by_cases first : lead = 0xE0
  · subst first
    simp at low high ⊢
    omega
  · by_cases surrogates : lead = 0xED
    · subst surrogates
      simp at low high ⊢
      omega
    · have notFirst : lead.toNat ≠ 0xE0 := fun same => first (UInt8.toNat_inj.mp same)
      have notSurrogates : lead.toNat ≠ 0xED := fun same => surrogates (UInt8.toNat_inj.mp same)
      simp only
      omega

/-- A value of four bytes is a character outside ASCII. -/
theorem valid_four {lead : UInt8} {rest : Bytes} (above : 0xF0 ≤ lead.toNat)
    (below : lead.toNat ≤ 0xF4)
    (goesOn : continues (secondOfFour lead).1 (secondOfFour lead).2 rest = true) :
    let value := ((lead.toNat % 8 * 64 + tailBits rest) * 64 + tailBits (rest.drop 1)) * 64 +
      tailBits (rest.drop 2)
    0x80 ≤ value ∧ (value < 0xD800 ∨ (0xDFFF < value ∧ value < 0x110000)) := by
  have fourth := tailBits_lt (rest.drop 2)
  have third := tailBits_lt (rest.drop 1)
  have second := tailBits_lt rest
  obtain ⟨next, low, high, bits⟩ := exists_of_continues goesOn
  generalize tailBits (rest.drop 1) = thirdBits at third ⊢
  generalize tailBits (rest.drop 2) = fourthBits at fourth ⊢
  unfold secondOfFour at low high
  by_cases first : lead = 0xF0
  · subst first
    simp at low high ⊢
    omega
  · by_cases final : lead = 0xF4
    · subst final
      simp at low high ⊢
      omega
    · have notFirst : lead.toNat ≠ 0xF0 := fun same => first (UInt8.toNat_inj.mp same)
      have notFinal : lead.toNat ≠ 0xF4 := fun same => final (UInt8.toNat_inj.mp same)
      simp only
      omega

/-- Only an ASCII byte leads an ASCII character. -/
theorem lead_lt_of_decodeLead {lead : UInt8} {rest : Bytes}
    (ascii : (decodeLead lead rest).1.toNat < 0x80) : lead.toNat < 0x80 := by
  by_contra above
  have replaced : ¬ replacementCharacter.toNat < 0x80 := by decide
  have outside : ∀ value, 0x80 ≤ value ∧ (value < 0xD800 ∨ (0xDFFF < value ∧ value < 0x110000)) →
      ¬ (Char.ofNat value).toNat < 0x80 := by
    intro value isOutside
    rw [toNat_ofNat_of_valid isOutside.2]
    omega
  unfold decodeLead at ascii
  simp only [UInt8.lt_iff_toNat_lt, UInt8.le_iff_toNat_le, Bool.and_eq_true, decide_eq_true_eq]
    at ascii
  split at ascii
  · next isAscii => exact above isAscii
  split at ascii
  · next isTwo =>
      split at ascii
      · refine outside _ ?_ ascii
        have second := tailBits_lt rest
        have low : 0xC2 ≤ lead.toNat := isTwo.1
        have high : lead.toNat ≤ 0xDF := isTwo.2
        omega
      · exact replaced ascii
  split at ascii
  · next isThree =>
      split at ascii
      · next goesOn =>
          split at ascii
          · exact outside _ (valid_three isThree.1 isThree.2 goesOn) ascii
          · exact replaced ascii
      · exact replaced ascii
  split at ascii
  · next isFour =>
      split at ascii
      · next goesOn =>
          split at ascii
          · split at ascii
            · exact outside _ (valid_four isFour.1 isFour.2 goesOn) ascii
            · exact replaced ascii
          · exact replaced ascii
      · exact replaced ascii
  · exact replaced ascii

theorem utf8EncodeChar_ofNat {byte : UInt8} (ascii : byte.toNat < 0x80) :
    String.utf8EncodeChar (Char.ofNat byte.toNat) = [byte] := by
  have value : (Char.ofNat byte.toNat).val.toNat = byte.toNat :=
    toNat_ofNat_of_valid (.inl (by omega))
  unfold String.utf8EncodeChar
  simp only [value]
  rw [if_pos (by omega), UInt8.ofNat_toNat]

theorem utf8_fromUtf8LossyUpTo {fuel : Nat} {raw : Bytes} (enough : raw.length ≤ fuel)
    (ascii : ∀ c ∈ fromUtf8LossyUpTo fuel raw, c.toNat < 0x80) :
    utf8 (fromUtf8LossyUpTo fuel raw) = raw := by
  induction fuel generalizing raw with
  | zero =>
      rw [List.length_eq_zero_iff.mp (Nat.le_zero.mp enough)]
      rfl
  | succ fuel ih =>
      cases raw with
      | nil => rfl
      | cons lead rest =>
          have isAscii : lead.toNat < 0x80 := by
            apply @lead_lt_of_decodeLead lead rest
            exact ascii _ (List.mem_cons_self)
          have decoded : decodeLead lead rest = (Char.ofNat lead.toNat, 0) := by
            rw [decodeLead, if_pos (by simpa [UInt8.lt_iff_toNat_lt] using isAscii)]
          simp only [fromUtf8LossyUpTo, decoded, List.drop_zero, List.mem_cons,
            forall_eq_or_imp] at ascii ⊢
          have split : utf8 (Char.ofNat lead.toNat :: fromUtf8LossyUpTo fuel rest) =
              String.utf8EncodeChar (Char.ofNat lead.toNat) ++
                utf8 (fromUtf8LossyUpTo fuel rest) := rfl
          rw [split, utf8EncodeChar_ofNat isAscii, ih (Nat.le_of_succ_le_succ enough) ascii.2]
          rfl

/-- Bytes that decode to ASCII text are the bytes of that text. -/
theorem utf8_fromUtf8Lossy {raw : Bytes} (ascii : ∀ c ∈ fromUtf8Lossy raw, c.toNat < 0x80) :
    utf8 (fromUtf8Lossy raw) = raw :=
  utf8_fromUtf8LossyUpTo le_rfl ascii

theorem utf8_injective : Function.Injective utf8 := by
  intro first second same
  rw [← fromUtf8Lossy_utf8 first, same, fromUtf8Lossy_utf8]

theorem isAscii_of_isDigit {digit : Char} (isDigit : digit.isDigit = true) : digit.toNat < 0x80 := by
  simp only [Char.isDigit, Bool.and_eq_true, decide_eq_true_eq, UInt32.le_iff_toNat_le] at isDigit
  have below : digit.toNat ≤ 57 := isDigit.2
  omega

/-- ASCII text has as many bytes as characters. -/
theorem length_utf8_of_ascii {value : Text} (ascii : ∀ c ∈ value, c.toNat < 0x80) :
    (utf8 value).length = value.length := by
  induction value with
  | nil => rfl
  | cons c rest ih =>
      have one : (String.utf8EncodeChar c).length = 1 := by
        have value : c.val.toNat = c.toNat := rfl
        have isAscii := ascii c List.mem_cons_self
        unfold String.utf8EncodeChar
        simp only [value]
        rw [if_pos (by omega)]
        rfl
      have split : utf8 (c :: rest) = String.utf8EncodeChar c ++ utf8 rest := rfl
      rw [split, List.length_append, one, ih fun other member => ascii other (by simp [member]),
        List.length_cons, Nat.add_comm]

theorem length_le_length_utf8 (value : Text) : value.length ≤ (utf8 value).length := by
  induction value with
  | nil => exact le_rfl
  | cons c rest ih =>
      obtain ⟨lead, tail, encoded, -⟩ := decodeLead_utf8EncodeChar c
      have split : utf8 (c :: rest) = String.utf8EncodeChar c ++ utf8 rest := rfl
      rw [split, encoded, List.length_append, List.length_cons, List.length_cons]
      omega

/-! ## Digits -/

theorem digitsValue_lt {digits : Text} (isDigits : ∀ digit ∈ digits, digit.isDigit = true) :
    digitsValue digits < Nat.pow 10 digits.length := by
  induction digits using List.reverseRecOn with
  | nil => decide
  | append_singleton initial digit ih =>
      have below := ih fun other member => isDigits other (by simp [member])
      have isDigit := isDigits digit (by simp)
      simp only [Char.isDigit, Bool.and_eq_true, decide_eq_true_eq, UInt32.le_iff_toNat_le]
        at isDigit
      have high : digit.toNat ≤ 57 := isDigit.2
      have zero : '0'.toNat = 48 := rfl
      have power : Nat.pow 10 (initial ++ [digit]).length = Nat.pow 10 initial.length * 10 := by
        rw [List.length_append, List.length_singleton]
        rfl
      rw [digitsValue_concat, power]
      omega

/-- Zeros behind digits multiply their value. -/
theorem digitsValue_append_zeros (digits : Text) (count : Nat) :
    digitsValue (digits ++ List.replicate count '0') = digitsValue digits * Nat.pow 10 count := by
  induction count with
  | zero => simp
  | succ count ih =>
      have power : Nat.pow 10 (count + 1) = Nat.pow 10 count * 10 := rfl
      rw [List.replicate_succ', ← List.append_assoc, digitsValue_concat, ih, power]
      simp [Nat.mul_assoc]

/-- Digits have the value zero exactly when they are zeros. -/
theorem digitsValue_eq_zero_iff {digits : Text}
    (isDigits : ∀ digit ∈ digits, digit.isDigit = true) :
    digitsValue digits = 0 ↔ ∃ count, digits = List.replicate count '0' := by
  constructor
  · intro none
    refine ⟨digits.length, List.eq_replicate_iff.mpr ⟨rfl, ?_⟩⟩
    induction digits using List.reverseRecOn with
    | nil => simp
    | append_singleton initial digit ih =>
        rw [digitsValue_concat] at none
        intro other member
        rcases List.mem_append.mp member with earlier | last
        · exact ih (fun digit among => isDigits digit (by simp [among])) (by omega) other earlier
        · rw [List.mem_singleton.mp last]
          have isDigit := isDigits digit (by simp)
          simp only [Char.isDigit, Bool.and_eq_true, decide_eq_true_eq, UInt32.le_iff_toNat_le]
            at isDigit
          have low : 48 ≤ digit.toNat := isDigit.1
          have zero : '0'.toNat = 48 := rfl
          exact Char.toNat_inj.mp (by omega)
  · rintro ⟨count, rfl⟩
    simpa [digitsValue] using digitsValue_append_zeros [] count

/-- An unsigned number is one or more digits that fit, behind one plus sign or none. -/
theorem parseUnsigned_eq_some_iff {max number : Nat} {value : Text} :
    parseUnsigned max value = some number ↔
      ∃ sign digits, (sign = [] ∨ sign = ['+']) ∧ value = sign ++ digits ∧ digits ≠ [] ∧
        (∀ digit ∈ digits, digit.isDigit = true) ∧ digitsValue digits = number ∧ number ≤ max := by
  have core : ∀ digits : Text, (if digits ≠ [] ∧ digits.all Char.isDigit ∧ digitsValue digits ≤ max
      then some (digitsValue digits) else none) = some number ↔ digits ≠ [] ∧
        (∀ digit ∈ digits, digit.isDigit = true) ∧ digitsValue digits = number ∧ number ≤ max := by
    intro digits
    rw [Option.ite_none_right_eq_some, Option.some.injEq, List.all_eq_true]
    constructor
    · rintro ⟨⟨nonempty, isDigits, fits⟩, rfl⟩
      exact ⟨nonempty, isDigits, rfl, fits⟩
    · rintro ⟨nonempty, isDigits, rfl, fits⟩
      exact ⟨⟨nonempty, isDigits, fits⟩, rfl⟩
  have plain : ∀ digits : Text, (∀ digit ∈ digits, digit.isDigit = true) →
      ∀ rest, digits ≠ '+' :: rest := by
    intro digits isDigits rest signed
    have isDigit := isDigits '+' (by rw [signed]; exact List.mem_cons_self)
    contradiction
  by_cases signed : ∃ rest, value = '+' :: rest
  · obtain ⟨rest, rfl⟩ := signed
    refine Iff.trans (core rest) ⟨fun holds => ⟨['+'], rest, .inr rfl, rfl, holds⟩, ?_⟩
    rintro ⟨sign, digits, rfl | rfl, split, holds⟩
    · exact absurd split.symm (plain digits holds.2.1 rest)
    · rw [List.cons.inj split |>.2]
      exact holds
  · have unsigned : parseUnsigned max value = if value ≠ [] ∧ value.all Char.isDigit ∧
        digitsValue value ≤ max then some (digitsValue value) else none := by
      unfold parseUnsigned
      split
      · next rest => exact absurd ⟨rest, rfl⟩ signed
      · simp only [ne_eq]
    rw [unsigned]
    refine Iff.trans (core value) ⟨fun holds => ⟨[], value, .inl rfl, rfl, holds⟩, ?_⟩
    rintro ⟨sign, digits, rfl | rfl, split, holds⟩
    · rw [split]
      exact holds
    · exact absurd ⟨digits, split⟩ signed

/-! ## Digits with zeros before them -/

theorem isDigit_of_mem_zeros {count : Nat} : ∀ digit ∈ List.replicate count '0',
    digit.isDigit = true := by
  intro digit member
  rw [List.eq_of_mem_replicate member]
  rfl

theorem digitsValue_zeros_append (count : Nat) (digits : Text) :
    digitsValue (List.replicate count '0' ++ digits) = digitsValue digits := by
  induction count with
  | zero => rfl
  | succ count ih =>
      rw [List.replicate_succ, List.cons_append, ← ih]
      rfl

/-- At least this many digits. -/
def zeroPadded (width value : Nat) : Text :=
  List.replicate (width - (decimal value).length) '0' ++ decimal value

theorem digitsValue_zeroPadded (width value : Nat) : digitsValue (zeroPadded width value) = value := by
  rw [zeroPadded, digitsValue_zeros_append, digitsValue_decimal]

theorem length_zeroPadded {width value : Nat} (positive : 0 < width) (small : value < Nat.pow 10 width) :
    (zeroPadded width value).length = width := by
  have short : (decimal value).length ≤ width :=
    (Nat.length_toDigits_le_iff (by decide) positive).mpr small
  rw [zeroPadded, List.length_append, List.length_replicate]
  omega

theorem isDigit_of_mem_zeroPadded {width value : Nat} : ∀ digit ∈ zeroPadded width value,
    digit.isDigit = true := by
  intro digit member
  rcases List.mem_append.mp member with zero | own
  · exact isDigit_of_mem_zeros digit zero
  · exact isDigit_of_mem_decimal own

end SipxClstr.Sip
