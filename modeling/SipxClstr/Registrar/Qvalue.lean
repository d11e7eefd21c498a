import SipxClstr.Registrar.Parse
import SipxClstr.Sip.Ascii

/-!
# Preferences on the wire

A `q` is `0` with up to three decimals, or `1` with up to three zeros.  Its integer part is read as
any unsigned number is, which lets a plus sign and leading zeros through.
-/

namespace SipxClstr.Registrar

open SipxClstr.Sip

/-- The grammar of a preference, and its value in thousandths. -/
inductive Qvalue : Text → Nat → Prop where
  | zero : Qvalue ['0'] 0
  | decimals (digits : Text) (few : digits.length ≤ 3)
      (isDigits : ∀ digit ∈ digits, digit.isDigit = true) :
      Qvalue ('0' :: '.' :: digits) (digitsValue digits * Nat.pow 10 (3 - digits.length))
  | one : Qvalue ['1'] 1000
  | zeros (count : Nat) (few : count ≤ 3) : Qvalue ('1' :: '.' :: List.replicate count '0') 1000

/-- The bytes are a preference, of this value. -/
def IsQvalue (raw : Bytes) (thousandths : Nat) : Prop :=
  ∃ value, raw = utf8 value ∧ Qvalue value thousandths

/-- A plus sign, leading zeros, or both. -/
def Padding (padding : Text) : Prop :=
  padding ≠ [] ∧
    ∃ count, padding = List.replicate count '0' ∨ padding = '+' :: List.replicate count '0'

/-- A preference behind padding. -/
def Padded (raw : Bytes) : Prop :=
  ∃ padding value thousandths, Padding padding ∧ Qvalue value thousandths ∧
    raw = utf8 (padding ++ value)

/-- The bytes are read as the grammar has it: as their exact value, or as a `400`. -/
structure ReadsQvalue (raw : Bytes) : Prop where
  reads : ∀ thousandths, parseQ raw = some thousandths ↔ IsQvalue raw thousandths
  refuses : ∀ {K : Kernel} (address : ContactAddress K), address.param (text "q") = some raw →
    (∀ thousandths, ¬ IsQvalue raw thousandths) →
      contactOp address = .error (.badRequest (text "a malformed Contact ;q"))

/-! ## The integer part -/

/-- The digit of an integer part that is no more than one. -/
def digitOfWhole (whole : Nat) : Char :=
  if whole = 0 then '0' else '1'

/-- Digits of a value up to one are zeros before that digit. -/
theorem digitsValue_le_one {digits : Text} (nonempty : digits ≠ [])
    (isDigits : ∀ digit ∈ digits, digit.isDigit = true) (small : digitsValue digits ≤ 1) :
    ∃ count, digits = List.replicate count '0' ++ [digitOfWhole (digitsValue digits)] := by
  induction digits using List.reverseRecOn with
  | nil => contradiction
  | append_singleton initial digit _ =>
      have isDigit := isDigits digit (by simp)
      have initials : ∀ other ∈ initial, other.isDigit = true :=
        fun other member => isDigits other (by simp [member])
      simp only [Char.isDigit, Bool.and_eq_true, decide_eq_true_eq, UInt32.le_iff_toNat_le]
        at isDigit
      have low : 48 ≤ digit.toNat := isDigit.1
      have zero : '0'.toNat = 48 := rfl
      have value := digitsValue_concat initial digit
      obtain ⟨count, isZeros⟩ := (digitsValue_eq_zero_iff initials).mp (by omega)
      refine ⟨count, ?_⟩
      rw [← isZeros, List.append_cancel_left_eq, List.cons.injEq]
      refine ⟨?_, rfl⟩
      apply Char.toNat_inj.mp
      unfold digitOfWhole
      split
      · omega
      · have one : '1'.toNat = 49 := rfl
        omega

/-- An integer part up to one is its digit, behind padding or alone. -/
theorem parseUnsigned_whole {whole : Text} {value : Nat} (small : value ≤ 1) :
    parseUnsigned 65535 whole = some value ↔
      ∃ padding, (padding = [] ∨ Padding padding) ∧ whole = padding ++ [digitOfWhole value] := by
  rw [parseUnsigned_eq_some_iff]
  constructor
  · rintro ⟨sign, digits, isSign, rfl, nonempty, isDigits, rfl, -⟩
    obtain ⟨count, isNumber⟩ := digitsValue_le_one nonempty isDigits small
    refine ⟨sign ++ List.replicate count '0', ?_, ?_⟩
    · by_cases none : sign ++ List.replicate count '0' = []
      · exact .inl none
      · refine .inr ⟨none, count, ?_⟩
        rcases isSign with rfl | rfl
        · exact .inl rfl
        · exact .inr rfl
    · rw [List.append_assoc, ← isNumber]
  · rintro ⟨padding, isPadding, rfl⟩
    have split : ∃ sign count, (sign = [] ∨ sign = ['+']) ∧
        padding = sign ++ List.replicate count '0' := by
      rcases isPadding with rfl | ⟨-, count, rfl | rfl⟩
      · exact ⟨[], 0, .inl rfl, rfl⟩
      · exact ⟨[], count, .inl rfl, rfl⟩
      · exact ⟨['+'], count, .inr rfl, rfl⟩
    obtain ⟨sign, count, isSign, rfl⟩ := split
    have digit : (digitOfWhole value).isDigit = true ∧
        (digitOfWhole value).toNat - '0'.toNat = value := by
      rcases Nat.le_one_iff_eq_zero_or_eq_one.mp small with rfl | rfl <;> decide
    refine ⟨sign, List.replicate count '0' ++ [digitOfWhole value], isSign,
      List.append_assoc _ _ _, by simp, ?_, ?_, by omega⟩
    · intro other member
      rcases List.mem_append.mp member with zero | last
      · exact isDigit_of_mem_zeros other zero
      · rw [List.mem_singleton.mp last]
        exact digit.1
    · rw [digitsValue_concat, (digitsValue_eq_zero_iff isDigit_of_mem_zeros).mpr ⟨count, rfl⟩,
        digit.2]
      omega

/-! ## The fraction -/

/-- Text is its part before the first point, and what is behind the point. -/
theorem split_at_point (value : Text) :
    (value = value.takeWhile (· ≠ '.') ∧
        value.drop ((value.takeWhile (· ≠ '.')).length + 1) = []) ∨
      value = value.takeWhile (· ≠ '.') ++
        '.' :: value.drop ((value.takeWhile (· ≠ '.')).length + 1) := by
  induction value with
  | nil => exact .inl ⟨rfl, rfl⟩
  | cons c rest ih =>
      by_cases point : c = '.'
      · subst point
        exact .inr (by simp)
      · have taken : (c :: rest).takeWhile (· ≠ '.') = c :: rest.takeWhile (· ≠ '.') := by
          simp [point]
        rw [taken]
        simp only [List.length_cons, List.drop_succ_cons, List.cons_append, List.cons.injEq,
          true_and]
        exact ih

/-- A text whose first part has no point splits into its parts. -/
theorem parts_of_pointless {whole : Text} (pointless : '.' ∉ whole) :
    (whole.takeWhile (· ≠ '.') = whole ∧ whole.drop (whole.length + 1) = []) ∧
      ∀ fraction : Text, (whole ++ '.' :: fraction).takeWhile (· ≠ '.') = whole ∧
        (whole ++ '.' :: fraction).drop (whole.length + 1) = fraction := by
  have all : ∀ c ∈ whole, decide (c ≠ '.') = true := by
    intro c member
    rw [decide_eq_true_eq]
    rintro rfl
    exact pointless member
  refine ⟨⟨List.takeWhile_eq_self_iff.mpr all, List.drop_eq_nil_of_le (Nat.le_succ _)⟩, ?_⟩
  intro fraction
  constructor
  · rw [List.takeWhile_append_of_pos all]
    simp
  · simp

/-- What `parse_q` does with the two parts. -/
def partsQ (whole fraction : Text) : Option Nat :=
  if 3 < (utf8 fraction).length ∨ !fraction.all Char.isDigit then
    none
  else match parseUnsigned 65535 whole with
    | none => none
    | some whole =>
        if 1 < whole then
          none
        else if whole = 1 then
          if (fraction.rdropWhile (· = '0')).isEmpty then some 1000 else none
        else
          parseUnsigned 65535 (fraction ++ List.replicate (3 - fraction.length) '0')

theorem rdropWhile_zeros {fraction : Text} :
    (fraction.rdropWhile (· = '0')).isEmpty = true ↔
      ∃ count, fraction = List.replicate count '0' := by
  rw [List.isEmpty_iff, List.rdropWhile_eq_nil_iff]
  constructor
  · intro zeros
    exact ⟨fraction.length, List.eq_replicate_iff.mpr
      ⟨rfl, fun c member => of_decide_eq_true (zeros c member)⟩⟩
  · rintro ⟨count, rfl⟩ c member
    simp [List.eq_of_mem_replicate member]

/-- Up to three decimals, filled up with zeros, are thousandths. -/
theorem parseUnsigned_fraction {fraction : Text}
    (isDigits : ∀ digit ∈ fraction, digit.isDigit = true) (few : fraction.length ≤ 3) :
    parseUnsigned 65535 (fraction ++ List.replicate (3 - fraction.length) '0') =
      some (digitsValue fraction * Nat.pow 10 (3 - fraction.length)) := by
  have all : ∀ digit ∈ fraction ++ List.replicate (3 - fraction.length) '0',
      digit.isDigit = true := by
    intro digit member
    rcases List.mem_append.mp member with own | zero
    · exact isDigits digit own
    · exact isDigit_of_mem_zeros digit zero
  have length : (fraction ++ List.replicate (3 - fraction.length) '0').length = 3 := by
    rw [List.length_append, List.length_replicate]
    omega
  have below := digitsValue_lt all
  rw [length, digitsValue_append_zeros] at below
  have thousand : Nat.pow 10 3 = 1000 := rfl
  rw [parseUnsigned_eq_some_iff]
  refine ⟨[], _, .inl rfl, rfl, ?_, all, digitsValue_append_zeros _ _, by omega⟩
  intro empty
  exact absurd (length.symm.trans (congrArg List.length empty)) (by decide)

theorem partsQ_eq_some_iff {whole fraction : Text} {thousandths : Nat} :
    partsQ whole fraction = some thousandths ↔
      fraction.length ≤ 3 ∧ (∀ digit ∈ fraction, digit.isDigit = true) ∧
        ((parseUnsigned 65535 whole = some 0 ∧
            thousandths = digitsValue fraction * Nat.pow 10 (3 - fraction.length)) ∨
          (parseUnsigned 65535 whole = some 1 ∧ thousandths = 1000 ∧
            ∃ count, fraction = List.replicate count '0')) := by
  constructor
  · intro parsed
    unfold partsQ at parsed
    split at parsed
    · contradiction
    · next fits =>
        rw [not_or] at fits
        have isDigits : ∀ digit ∈ fraction, digit.isDigit = true := by simpa using fits.2
        have few : fraction.length ≤ 3 :=
          le_trans (length_le_length_utf8 fraction) (Nat.le_of_not_lt fits.1)
        refine ⟨few, isDigits, ?_⟩
        split at parsed
        · contradiction
        · next value isWhole =>
            split at parsed
            · contradiction
            · next small =>
                split at parsed
                · next isOne =>
                    split at parsed
                    · next zeros =>
                        exact .inr ⟨isOne ▸ isWhole, (Option.some.inj parsed).symm,
                          rdropWhile_zeros.mp zeros⟩
                    · contradiction
                · next notOne =>
                    rw [parseUnsigned_fraction isDigits few] at parsed
                    have isZero : value = 0 := by omega
                    exact .inl ⟨isZero ▸ isWhole, (Option.some.inj parsed).symm⟩
  · rintro ⟨few, isDigits, whole'⟩
    have short : ¬ (3 < (utf8 fraction).length ∨ !fraction.all Char.isDigit) := by
      rw [length_utf8_of_ascii fun c member => isAscii_of_isDigit (isDigits c member)]
      simpa using ⟨few, isDigits⟩
    unfold partsQ
    rw [if_neg short]
    rcases whole' with ⟨isZero, rfl⟩ | ⟨isOne, rfl, zeros⟩
    · simp only [isZero]
      exact parseUnsigned_fraction isDigits few
    · simp only [isOne]
      exact if_pos (rdropWhile_zeros.mpr zeros)

/-! ## Both parts -/

theorem parseQ_eq_partsQ {raw : Bytes} (bare : trim (fromUtf8Lossy raw) = fromUtf8Lossy raw) :
    parseQ raw = partsQ ((fromUtf8Lossy raw).takeWhile (· ≠ '.'))
      ((fromUtf8Lossy raw).drop (((fromUtf8Lossy raw).takeWhile (· ≠ '.')).length + 1)) := by
  unfold parseQ
  rw [bare]
  rfl

/-- What is read without white space is a preference, behind padding or alone. -/
theorem parseQ_eq_some_iff {raw : Bytes} (bare : trim (fromUtf8Lossy raw) = fromUtf8Lossy raw)
    {thousandths : Nat} :
    parseQ raw = some thousandths ↔
      ∃ padding value, (padding = [] ∨ Padding padding) ∧ Qvalue value thousandths ∧
        fromUtf8Lossy raw = padding ++ value := by
  rw [parseQ_eq_partsQ bare, partsQ_eq_some_iff]
  generalize fromUtf8Lossy raw = decoded
  constructor
  · rintro ⟨few, isDigits, ⟨isZero, rfl⟩ | ⟨isOne, rfl, count, zeros⟩⟩
    · obtain ⟨padding, isPadding, isWhole⟩ := (parseUnsigned_whole (by decide)).mp isZero
      have zero : [digitOfWhole 0] = ['0'] := rfl
      rw [zero] at isWhole
      rcases split_at_point decoded with ⟨whole, none⟩ | pointed
      · rw [none]
        exact ⟨padding, ['0'], isPadding, .zero, whole.trans isWhole⟩
      · refine ⟨padding, _, isPadding, .decimals _ few isDigits, ?_⟩
        rw [List.append_cons, ← isWhole]
        exact pointed
    · obtain ⟨padding, isPadding, isWhole⟩ := (parseUnsigned_whole (by decide)).mp isOne
      have one : [digitOfWhole 1] = ['1'] := rfl
      rw [one] at isWhole
      rcases split_at_point decoded with ⟨whole, none⟩ | pointed
      · exact ⟨padding, ['1'], isPadding, .one, whole.trans isWhole⟩
      · rw [zeros] at pointed
        rw [zeros, List.length_replicate] at few
        refine ⟨padding, _, isPadding, .zeros count few, ?_⟩
        rw [List.append_cons, ← isWhole]
        exact pointed
  · rintro ⟨padding, value, isPadding, isQvalue, rfl⟩
    have pointless : ∀ digit : Char, digit ≠ '.' → '.' ∉ padding ++ [digit] := by
      intro digit differs member
      rcases List.mem_append.mp member with padded | last
      · rcases isPadding with rfl | ⟨-, count, rfl | rfl⟩
        · contradiction
        · exact absurd (List.eq_of_mem_replicate padded) (by decide)
        · rcases List.mem_cons.mp padded with plus | zero
          · exact absurd plus (by decide)
          · exact absurd (List.eq_of_mem_replicate zero) (by decide)
      · exact differs (List.mem_singleton.mp last).symm
    have isZero : parseUnsigned 65535 (padding ++ ['0']) = some 0 :=
      (parseUnsigned_whole (by decide)).mpr ⟨padding, isPadding, rfl⟩
    have isOne : parseUnsigned 65535 (padding ++ ['1']) = some 1 :=
      (parseUnsigned_whole (by decide)).mpr ⟨padding, isPadding, rfl⟩
    cases isQvalue with
    | zero =>
        obtain ⟨⟨whole, none⟩, -⟩ := parts_of_pointless (pointless '0' (by decide))
        rw [whole, none]
        exact ⟨by decide, by simp, .inl ⟨isZero, rfl⟩⟩
    | decimals digits few isDigits =>
        obtain ⟨whole, behind⟩ := (parts_of_pointless (pointless '0' (by decide))).2 digits
        rw [List.append_cons, whole, behind]
        exact ⟨few, isDigits, .inl ⟨isZero, rfl⟩⟩
    | one =>
        obtain ⟨⟨whole, none⟩, -⟩ := parts_of_pointless (pointless '1' (by decide))
        rw [whole, none]
        exact ⟨by decide, by simp, .inr ⟨isOne, rfl, 0, rfl⟩⟩
    | zeros count few =>
        obtain ⟨whole, behind⟩ :=
          (parts_of_pointless (pointless '1' (by decide))).2 (List.replicate count '0')
        rw [List.append_cons, whole, behind]
        exact ⟨by rw [List.length_replicate]; exact few, isDigit_of_mem_zeros,
          .inr ⟨isOne, rfl, count, rfl⟩⟩

/-! ## The grammar -/

theorem Qvalue.isAscii {value : Text} {thousandths : Nat} (isQvalue : Qvalue value thousandths) :
    ∀ c ∈ value, c.toNat < 0x80 := by
  intro c member
  cases isQvalue with
  | zero =>
      rw [List.mem_singleton.mp member]
      decide
  | decimals digits few isDigits =>
      rcases List.mem_cons.mp member with rfl | rest
      · decide
      · rcases List.mem_cons.mp rest with rfl | digit
        · decide
        · exact isAscii_of_isDigit (isDigits c digit)
  | one =>
      rw [List.mem_singleton.mp member]
      decide
  | zeros count few =>
      rcases List.mem_cons.mp member with rfl | rest
      · decide
      · rcases List.mem_cons.mp rest with rfl | zero
        · decide
        · rw [List.eq_of_mem_replicate zero]
          decide

/-- The integer part of a preference is one digit. -/
theorem Qvalue.head {value : Text} {thousandths : Nat} (isQvalue : Qvalue value thousandths) :
    ∃ digit rest, value = digit :: rest ∧ (digit = '0' ∨ digit = '1') ∧
      (rest = [] ∨ ∃ fraction, rest = '.' :: fraction) := by
  cases isQvalue with
  | zero => exact ⟨'0', [], rfl, .inl rfl, .inl rfl⟩
  | decimals digits few isDigits => exact ⟨'0', _, rfl, .inl rfl, .inr ⟨digits, rfl⟩⟩
  | one => exact ⟨'1', [], rfl, .inr rfl, .inl rfl⟩
  | zeros count few => exact ⟨'1', _, rfl, .inr rfl, .inr ⟨_, rfl⟩⟩

/-- No preference is one behind padding. -/
theorem Qvalue.not_padded {padding value : Text} {first second : Nat} (isPadding : Padding padding)
    (isQvalue : Qvalue value first) : ¬ Qvalue (padding ++ value) second := by
  intro whole
  obtain ⟨digit, rest, rfl, isDigit, -⟩ := isQvalue.head
  obtain ⟨head, tail, same, isHead, isTail⟩ := whole.head
  obtain ⟨nonempty, count, rfl | rfl⟩ := isPadding
  · cases count with
    | zero => exact nonempty rfl
    | succ count =>
        -- Behind the first zero there is another zero or the digit, and no point.
        obtain ⟨rfl, rfl⟩ := List.cons.inj same
        rcases isTail with empty | ⟨fraction, pointed⟩
        · simp at empty
        · cases count with
          | zero =>
              have isPoint : digit = '.' := (List.cons.inj pointed).1
              rcases isDigit with rfl | rfl <;> contradiction
          | succ count =>
              have isPoint : '0' = '.' := (List.cons.inj pointed).1
              contradiction
  · obtain ⟨rfl, -⟩ := List.cons.inj same
    rcases isHead with plus | plus <;> contradiction

/-- Without white space around it, a `q` is read as the grammar has it exactly when it is no
preference behind padding. -/
theorem readsQvalue_iff {raw : Bytes} (bare : trim (fromUtf8Lossy raw) = fromUtf8Lossy raw) :
    ReadsQvalue raw ↔ ¬ Padded raw := by
  constructor
  · rintro exact ⟨padding, value, thousandths, isPadding, isQvalue, rfl⟩
    have decoded : fromUtf8Lossy (utf8 (padding ++ value)) = padding ++ value :=
      fromUtf8Lossy_utf8 _
    have parsed := (parseQ_eq_some_iff bare).mpr
      ⟨padding, value, .inr isPadding, isQvalue, decoded⟩
    obtain ⟨whole, same, isWhole⟩ := (exact.reads thousandths).mp parsed
    rw [← utf8_injective same] at isWhole
    exact isQvalue.not_padded isPadding isWhole
  · intro unpadded
    have reads : ∀ thousandths, parseQ raw = some thousandths ↔ IsQvalue raw thousandths := by
      intro thousandths
      rw [parseQ_eq_some_iff bare]
      constructor
      · rintro ⟨padding, value, isPadding, isQvalue, decoded⟩
        have ascii : ∀ c ∈ fromUtf8Lossy raw, c.toNat < 0x80 := by
          intro c member
          rw [decoded] at member
          rcases List.mem_append.mp member with padded | own
          · rcases isPadding with rfl | ⟨-, count, rfl | rfl⟩
            · contradiction
            · rw [List.eq_of_mem_replicate padded]
              decide
            · rcases List.mem_cons.mp padded with rfl | zero
              · decide
              · rw [List.eq_of_mem_replicate zero]
                decide
          · exact isQvalue.isAscii c own
        have isBytes : raw = utf8 (padding ++ value) := by
          rw [← decoded, utf8_fromUtf8Lossy ascii]
        rcases isPadding with rfl | isPadding
        · exact ⟨value, isBytes, isQvalue⟩
        · exact absurd ⟨padding, value, thousandths, isPadding, isQvalue, isBytes⟩ unpadded
      · rintro ⟨value, rfl, isQvalue⟩
        exact ⟨[], value, .inl rfl, isQvalue, fromUtf8Lossy_utf8 value⟩
    refine ⟨reads, fun address carries none => ?_⟩
    have refused : parseQ raw = .none := by
      cases parsed : parseQ raw with
      | none => rfl
      | some thousandths => exact absurd ((reads thousandths).mp parsed) (none thousandths)
    simp [contactOp, carries, refused, okOr, Except.map, bind, Except.bind]

/-- A half of a tenth is fifty thousandths. -/
theorem readsQvalue_twentieth : ReadsQvalue (bytes "0.05") := by
  refine (readsQvalue_iff (by decide +kernel)).mpr ?_
  rintro ⟨padding, value, thousandths, isPadding, isQvalue, same⟩
  have isWhole : Qvalue (padding ++ value) (digitsValue ['0', '5'] * Nat.pow 10 1) := by
    rw [← utf8_injective same]
    exact .decimals ['0', '5'] (by decide) (by simp)
  exact isQvalue.not_padded isPadding isWhole

/-- A plus sign before a preference is let through. -/
theorem not_readsQvalue :
    ¬ ∀ raw, trim (fromUtf8Lossy raw) = fromUtf8Lossy raw → ReadsQvalue raw := by
  intro exact
  have reads := (exact (bytes "+0.5") (by decide +kernel)).reads 500
  obtain ⟨value, same, isQvalue⟩ := reads.mp (by decide +kernel)
  obtain ⟨digit, rest, isValue, isDigit, -⟩ := isQvalue.head
  have first : digit = '+' := by
    have isText := utf8_injective same
    rw [isValue] at isText
    exact (List.cons.inj isText).1.symm
  rcases isDigit with rfl | rfl <;> contradiction

end SipxClstr.Registrar
