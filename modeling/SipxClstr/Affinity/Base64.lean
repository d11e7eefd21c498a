import SipxClstr.Affinity.Codec
import SipxClstr.Sip.Ascii

/-!
# What the decoder accepts

A value is decoded exactly when it is in the alphabet and no character of it encodes a fractional
byte.  The bits of a last character that no byte takes are ignored, so a value is the encoding of
what it decodes to exactly when they are zero.
-/

namespace SipxClstr.Affinity

open SipxClstr.Sip

/-- The bits of the last character that no byte takes. -/
def unusedBits (value : Text) : UInt8 :=
  match (utf8 value).getLast?.bind digitOf, (utf8 value).length % 4 with
  | some digit, 2 => digit &&& 0x0F
  | some digit, 3 => digit &&& 0x03
  | _, _ => 0

/-- The encoding and its strict decoder. -/
structure StrictBase64Url : Prop where
  roundTrip : ∀ bytes, decodeParamValue (encodeParamValue bytes) = .ok bytes
  length : ∀ bytes, (utf8 (encodeParamValue bytes)).length = encodedLen bytes.length
  drawn : ∀ bytes, ∀ c ∈ encodeParamValue bytes, c ∈ alphabet
  accepts : ∀ value, (∃ bytes, decodeParamValue value = .ok bytes) ↔
    (∀ byte ∈ utf8 value, byte ∈ utf8 alphabet) ∧ (utf8 value).length % 4 ≠ 1
  canonical : ∀ value bytes, decodeParamValue value = .ok bytes →
    (encodeParamValue bytes = value ↔ unusedBits value = 0)
  refuses : ∀ value error, decodeParamValue value = .error error →
    (∃ before byte after, utf8 value = before ++ byte :: after ∧
        (∀ earlier ∈ before, earlier ∈ utf8 alphabet) ∧ byte ∉ utf8 alphabet ∧
          error = .notInAlphabet byte before.length) ∨
      ((∀ byte ∈ utf8 value, byte ∈ utf8 alphabet) ∧ error = .badLength (utf8 value).length)

/-! ## Characters and digits -/

/-- A character that stands for a digit is the digit's. -/
theorem digitOf_spec {byte digit : UInt8} (stands : digitOf byte = some digit) :
    digit < 64 ∧ String.utf8EncodeChar (charOf digit) = [byte] := by
  have written : ∀ byte : UInt8, (digitOf byte).all (fun digit =>
      digit < 64 ∧ String.utf8EncodeChar (charOf digit) = [byte]) = true := by
    apply forall_byte
    decide +kernel
  have holds := written byte
  rw [stands] at holds
  exact of_decide_eq_true holds

theorem digitOf_lt {byte digit : UInt8} (stands : digitOf byte = some digit) : digit < 64 :=
  (digitOf_spec stands).1

theorem utf8EncodeChar_charOf_digitOf {byte digit : UInt8} (stands : digitOf byte = some digit) :
    String.utf8EncodeChar (charOf digit) = [byte] :=
  (digitOf_spec stands).2

theorem charOf_mem_alphabet (digit : UInt8) : charOf digit ∈ alphabet := by
  unfold charOf
  cases found : alphabet[digit.toNat]? with
  | none => exact List.mem_cons_self
  | some c => exact List.mem_of_getElem? found

theorem isSome_digitOf_iff (byte : UInt8) : (digitOf byte).isSome = true ↔ byte ∈ utf8 alphabet := by
  constructor
  · intro stands
    rcases Option.isSome_iff_exists.mp stands with ⟨digit, isDigit⟩
    apply List.mem_flatMap.mpr
    exact ⟨charOf digit, charOf_mem_alphabet digit, by simp [utf8EncodeChar_charOf_digitOf isDigit]⟩
  · intro member
    have all : (utf8 alphabet).all (fun byte => (digitOf byte).isSome) = true := by
      decide +kernel
    exact List.all_eq_true.mp all byte member

/-- The digits these characters stand for. -/
def StandsFor (chars : Bytes) (digits : List UInt8) : Prop :=
  chars.map digitOf = digits.map some

theorem StandsFor.length_eq {chars : Bytes} {digits : List UInt8} (stands : StandsFor chars digits) :
    chars.length = digits.length := by
  have lengths := congrArg List.length stands
  simpa using lengths

theorem StandsFor.lt {chars : Bytes} {digits : List UInt8} (stands : StandsFor chars digits) :
    ∀ digit ∈ digits, digit < 64 := by
  intro digit member
  have among : some digit ∈ chars.map digitOf := by
    rw [stands]
    exact List.mem_map_of_mem member
  obtain ⟨byte, -, isDigit⟩ := List.mem_map.mp among
  exact digitOf_lt isDigit

theorem StandsFor.mem_alphabet {chars : Bytes} {digits : List UInt8}
    (stands : StandsFor chars digits) : ∀ byte ∈ chars, byte ∈ utf8 alphabet := by
  intro byte member
  have among : digitOf byte ∈ digits.map some := by
    rw [← stands]
    exact List.mem_map_of_mem member
  obtain ⟨digit, -, isDigit⟩ := List.mem_map.mp among
  rw [← isSome_digitOf_iff, ← isDigit]
  rfl

/-- The digits written out are the characters. -/
theorem StandsFor.utf8_eq {chars : Bytes} {digits : List UInt8} (stands : StandsFor chars digits) :
    utf8 (digits.map charOf) = chars := by
  induction chars generalizing digits with
  | nil =>
      cases digits with
      | nil => rfl
      | cons _ _ => contradiction
  | cons byte rest ih =>
      cases digits with
      | nil => contradiction
      | cons digit later =>
          obtain ⟨isDigit, isLater⟩ := List.cons.inj stands
          have split : utf8 ((digit :: later).map charOf) =
              String.utf8EncodeChar (charOf digit) ++ utf8 (later.map charOf) := rfl
          rw [split, utf8EncodeChar_charOf_digitOf isDigit, ih isLater]
          rfl

/-- Four digits are stood for by four characters, and the rest by the rest. -/
theorem StandsFor.four {chars : Bytes} {d0 d1 d2 d3 : UInt8} {rest : List UInt8}
    (stands : StandsFor chars (d0 :: d1 :: d2 :: d3 :: rest)) :
    ∃ c0 c1 c2 c3 later, chars = c0 :: c1 :: c2 :: c3 :: later ∧
      StandsFor [c0, c1, c2, c3] [d0, d1, d2, d3] ∧ StandsFor later rest := by
  rcases chars with _ | ⟨c0, _ | ⟨c1, _ | ⟨c2, _ | ⟨c3, later⟩⟩⟩⟩
  case cons.cons.cons.cons =>
    simp only [StandsFor, List.map_cons, List.cons.injEq] at stands
    obtain ⟨is0, is1, is2, is3, isLater⟩ := stands
    refine ⟨c0, c1, c2, c3, later, rfl, ?_, isLater⟩
    simp only [StandsFor, List.map_cons, is0, is1, is2, is3]
    rfl
  all_goals simp [StandsFor] at stands

/-- Characters stand for digits, or one of them is the first that does not. -/
theorem standsFor_or_foreign (chars : Bytes) :
    (∃ digits, StandsFor chars digits) ∨
      ∃ before byte after digits, chars = before ++ byte :: after ∧ StandsFor before digits ∧
        digitOf byte = none := by
  induction chars with
  | nil => exact .inl ⟨[], rfl⟩
  | cons byte rest ih =>
      cases stands : digitOf byte with
      | none => exact .inr ⟨[], byte, rest, [], rfl, rfl, stands⟩
      | some digit =>
          rcases ih with ⟨digits, all⟩ | ⟨before, foreign, after, digits, rfl, all, isForeign⟩
          · refine .inl ⟨digit :: digits, ?_⟩
            unfold StandsFor at all ⊢
            rw [List.map_cons, stands, all]
            rfl
          · refine .inr ⟨byte :: before, foreign, after, digit :: digits, rfl, ?_, isForeign⟩
            unfold StandsFor at all ⊢
            rw [List.map_cons, stands, all]
            rfl

theorem digitsOf_standsFor {chars : Bytes} {digits : List UInt8} (stands : StandsFor chars digits)
    (offset : Nat) : digitsOf offset chars = .ok digits := by
  induction chars generalizing digits offset with
  | nil =>
      cases digits with
      | nil => rfl
      | cons _ _ => contradiction
  | cons byte rest ih =>
      cases digits with
      | nil => contradiction
      | cons digit later =>
          obtain ⟨isDigit, isLater⟩ := List.cons.inj stands
          simp only [digitsOf, isDigit, ih isLater]
          rfl

theorem digitsOf_foreign {before : Bytes} {digits : List UInt8} (stands : StandsFor before digits)
    {byte : UInt8} (foreign : digitOf byte = none) (after : Bytes) (offset : Nat) :
    digitsOf offset (before ++ byte :: after) =
      .error (.notInAlphabet byte (offset + before.length)) := by
  induction before generalizing digits offset with
  | nil => simp [digitsOf, foreign]
  | cons first rest ih =>
      cases digits with
      | nil => contradiction
      | cons digit later =>
          obtain ⟨isDigit, isLater⟩ := List.cons.inj stands
          have length : offset + 1 + rest.length = offset + (first :: rest).length := by
            rw [List.length_cons]
            omega
          simp only [List.cons_append, digitsOf, isDigit, ih isLater, length]
          rfl

/-! ## Chunks -/

/-- The bytes of six-bit values, four at a time. -/
def bytesOf : List UInt8 → Bytes
  | d0 :: d1 :: d2 :: d3 :: rest =>
      [(d0 <<< 2) ||| (d1 >>> 4), (d1 <<< 4) ||| (d2 >>> 2), (d2 <<< 6) ||| d3] ++ bytesOf rest
  | [d0, d1, d2] => [(d0 <<< 2) ||| (d1 >>> 4), (d1 <<< 4) ||| (d2 >>> 2)]
  | [d0, d1] => [(d0 <<< 2) ||| (d1 >>> 4)]
  | _ => []

/-- The six-bit values of bytes, three at a time. -/
def digitsOfBytes : Bytes → List UInt8
  | b0 :: b1 :: b2 :: rest => digitsOfChunk [b0, b1, b2] ++ digitsOfBytes rest
  | [] => []
  | chunk => digitsOfChunk chunk

/-- What neither four, three nor two digits begin. -/
theorem digits_of_rest {digits : List UInt8}
    (notFour : ∀ d0 d1 d2 d3 rest, digits = d0 :: d1 :: d2 :: d3 :: rest → False)
    (notThree : ∀ d0 d1 d2, digits = [d0, d1, d2] → False)
    (notTwo : ∀ d0 d1, digits = [d0, d1] → False) :
    digits = [] ∨ ∃ digit, digits = [digit] := by
  rcases digits with _ | ⟨d0, _ | ⟨d1, _ | ⟨d2, _ | ⟨d3, rest⟩⟩⟩⟩
  · exact .inl rfl
  · exact .inr ⟨d0, rfl⟩
  · exact (notTwo d0 d1 rfl).elim
  · exact (notThree d0 d1 d2 rfl).elim
  · exact (notFour d0 d1 d2 d3 rest rfl).elim

/-- What three bytes do not begin, and is not empty. -/
theorem bytes_of_rest {bytes : Bytes}
    (notThree : ∀ b0 b1 b2 rest, bytes = b0 :: b1 :: b2 :: rest → False)
    (notNil : bytes = [] → False) :
    (∃ b0, bytes = [b0]) ∨ ∃ b0 b1, bytes = [b0, b1] := by
  rcases bytes with _ | ⟨b0, _ | ⟨b1, _ | ⟨b2, rest⟩⟩⟩
  · exact (notNil rfl).elim
  · exact .inl ⟨b0, rfl⟩
  · exact .inr ⟨b0, b1, rfl⟩
  · exact (notThree b0 b1 b2 rest rfl).elim

theorem digitsOfBytes_lt (bytes : Bytes) : ∀ digit ∈ digitsOfBytes bytes, digit < 64 := by
  induction bytes using digitsOfBytes.induct with
  | case1 b0 b1 b2 rest ih =>
      intro digit member
      rw [digitsOfBytes] at member
      rcases List.mem_append.mp member with first | later
      · exact digitsOfChunk_lt _ digit first
      · exact ih digit later
  | case2 =>
      intro digit member
      contradiction
  | case3 rest notThree notNil =>
      rcases bytes_of_rest notThree notNil with ⟨b0, rfl⟩ | ⟨b0, b1, rfl⟩
      · exact digitsOfChunk_lt [b0]
      · exact digitsOfChunk_lt [b0, b1]

theorem encodeParamValue_eq (bytes : Bytes) :
    encodeParamValue bytes = (digitsOfBytes bytes).map charOf := by
  induction bytes using encodeParamValue.induct with
  | case1 b0 b1 b2 rest ih => rw [encodeParamValue, digitsOfBytes, List.map_append, ih]
  | case2 => rfl
  | case3 rest notThree notNil =>
      rcases bytes_of_rest notThree notNil with ⟨b0, rfl⟩ | ⟨b0, b1, rfl⟩
      · rfl
      · rfl

theorem decodeChunk_four {c0 c1 c2 c3 d0 d1 d2 d3 : UInt8}
    (stands : StandsFor [c0, c1, c2, c3] [d0, d1, d2, d3]) (len offset : Nat) :
    decodeChunk len offset [c0, c1, c2, c3] =
      .ok [(d0 <<< 2) ||| (d1 >>> 4), (d1 <<< 4) ||| (d2 >>> 2), (d2 <<< 6) ||| d3] := by
  simp only [decodeChunk, digitsOf_standsFor stands]
  rfl

/-- What the first four characters are refused for, all are. -/
theorem decodeChunks_of_take {chars : Bytes} {error : DecodeError} {offset : Nat}
    (refused : digitsOf offset (chars.take 4) = .error error) (len : Nat) :
    decodeChunks len offset chars = .error error := by
  rcases chars with _ | ⟨c0, _ | ⟨c1, _ | ⟨c2, _ | ⟨c3, rest⟩⟩⟩⟩
  · contradiction
  · have whole : digitsOf offset [c0] = .error error := refused
    simp only [decodeChunks, decodeChunk, whole]
  · have whole : digitsOf offset [c0, c1] = .error error := refused
    simp only [decodeChunks, decodeChunk, whole]
  · have whole : digitsOf offset [c0, c1, c2] = .error error := refused
    simp only [decodeChunks, decodeChunk, whole]
  · have whole : digitsOf offset [c0, c1, c2, c3] = .error error := refused
    simp only [decodeChunks, decodeChunk, whole]

theorem decodeChunks_foreign_short {before : Bytes} {digits : List UInt8}
    (stands : StandsFor before digits) (short : digits.length ≤ 3) {byte : UInt8}
    (foreign : digitOf byte = none) (after : Bytes) (len offset : Nat) :
    decodeChunks len offset (before ++ byte :: after) =
      .error (.notInAlphabet byte (offset + before.length)) := by
  have within : before.length ≤ 3 := stands.length_eq ▸ short
  have first : (before ++ byte :: after).take 4 =
      before ++ byte :: after.take (3 - before.length) := by
    rw [List.take_append, List.take_of_length_le (by omega),
      show 4 - before.length = (3 - before.length) + 1 by omega, List.take_succ_cons]
  apply decodeChunks_of_take
  rw [first]
  exact digitsOf_foreign stands foreign _ offset

/-- Characters that stand for digits are refused for their length only. -/
theorem decodeChunks_standsFor {chars : Bytes} {digits : List UInt8}
    (stands : StandsFor chars digits) (len offset : Nat) :
    decodeChunks len offset chars =
      if chars.length % 4 = 1 then .error (.badLength len) else .ok (bytesOf digits) := by
  induction digits using bytesOf.induct generalizing chars offset with
  | case1 d0 d1 d2 d3 rest ih =>
      obtain ⟨c0, c1, c2, c3, later, rfl, chunk, isLater⟩ := stands.four
      have same : (c0 :: c1 :: c2 :: c3 :: later).length % 4 = later.length % 4 := by
        simp only [List.length_cons]
        omega
      rw [same]
      simp only [decodeChunks, decodeChunk_four chunk, ih isLater]
      by_cases fractional : later.length % 4 = 1
      · simp only [if_pos fractional]
        rfl
      · simp only [if_neg fractional]
        rfl
  | case2 d0 d1 d2 =>
      obtain ⟨c0, c1, c2, rfl⟩ := List.length_eq_three.mp stands.length_eq
      simp only [decodeChunks, decodeChunk, digitsOf_standsFor stands]
      rfl
  | case3 d0 d1 =>
      obtain ⟨c0, c1, rfl⟩ := List.length_eq_two.mp stands.length_eq
      simp only [decodeChunks, decodeChunk, digitsOf_standsFor stands]
      rfl
  | case4 digits notFour notThree notTwo =>
      rcases digits_of_rest notFour notThree notTwo with rfl | ⟨d0, rfl⟩
      · rw [List.length_eq_zero_iff.mp stands.length_eq]
        rfl
      · obtain ⟨c0, rfl⟩ := List.length_eq_one_iff.mp stands.length_eq
        simp only [decodeChunks, decodeChunk, digitsOf_standsFor stands]
        rfl

/-- The first character that stands for no digit is the one that is refused. -/
theorem decodeChunks_foreign {before : Bytes} {digits : List UInt8}
    (stands : StandsFor before digits) {byte : UInt8} (foreign : digitOf byte = none)
    (after : Bytes) (len offset : Nat) :
    decodeChunks len offset (before ++ byte :: after) =
      .error (.notInAlphabet byte (offset + before.length)) := by
  induction digits using bytesOf.induct generalizing before offset with
  | case1 d0 d1 d2 d3 rest ih =>
      obtain ⟨c0, c1, c2, c3, later, rfl, chunk, isLater⟩ := stands.four
      have length : offset + 4 + later.length =
          offset + (c0 :: c1 :: c2 :: c3 :: later).length := by
        simp only [List.length_cons]
        omega
      simp only [List.cons_append, decodeChunks, decodeChunk_four chunk, ih isLater, length]
      rfl
  | case2 d0 d1 d2 => exact decodeChunks_foreign_short stands (by simp) foreign after len offset
  | case3 d0 d1 => exact decodeChunks_foreign_short stands (by simp) foreign after len offset
  | case4 digits notFour notThree notTwo =>
      apply decodeChunks_foreign_short stands _ foreign after len offset
      rcases digits_of_rest notFour notThree notTwo with rfl | ⟨d0, rfl⟩
      · simp
      · simp

/-! ## Four digits and three bytes -/

section Bits

theorem and_of_or (first second mask : UInt8) :
    (first ||| second) &&& mask = (first &&& mask) ||| (second &&& mask) := by
  apply UInt8.toBitVec_inj.mp
  simp only [UInt8.toBitVec_and, UInt8.toBitVec_or, BitVec.and_or_distrib_right]

/-- What two bytes hold of a digit, by the place it has among four. -/
theorem digit_moved : ∀ digit : UInt8, digit < 64 →
    ((digit <<< 2) >>> 2 = digit ∧ ((digit <<< 2) &&& 0x03) <<< 4 = 0) ∧
    ((digit >>> 4) >>> 2 = 0 ∧ ((digit >>> 4) &&& 0x03) <<< 4 = digit &&& 0x30) ∧
    ((digit <<< 4) >>> 4 = digit &&& 0x0F ∧ ((digit <<< 4) &&& 0x0F) <<< 2 = 0) ∧
    ((digit >>> 2) >>> 4 = 0 ∧ ((digit >>> 2) &&& 0x0F) <<< 2 = digit &&& 0x3C) ∧
    ((digit <<< 6) >>> 6 = digit &&& 0x03 ∧ (digit <<< 6) &&& 0x3F = 0) ∧
    digit >>> 6 = 0 ∧ digit &&& 0x3F = digit := by
  apply forall_digit
  decide +kernel

/-- The first byte holds the first digit and the high bits of the second. -/
theorem digits_of_byte_first (first second : UInt8) (firstBelow : first < 64)
    (secondBelow : second < 64) :
    ((first <<< 2) ||| (second >>> 4)) >>> 2 = first ∧
      (((first <<< 2) ||| (second >>> 4)) &&& 0x03) <<< 4 = second &&& 0x30 := by
  rcases (digit_moved first firstBelow).1 with ⟨isFirst, low⟩
  rcases (digit_moved second secondBelow).2.1 with ⟨high, isSecond⟩
  rw [UInt8.shiftRight_or, and_of_or, UInt8.shiftLeft_or, isFirst, low, high, isSecond,
    UInt8.or_zero, UInt8.zero_or]
  exact ⟨rfl, rfl⟩

/-- The second byte holds the low bits of the second digit and the high bits of the third. -/
theorem digits_of_byte_second (first second : UInt8) (firstBelow : first < 64)
    (secondBelow : second < 64) :
    ((first <<< 4) ||| (second >>> 2)) >>> 4 = first &&& 0x0F ∧
      (((first <<< 4) ||| (second >>> 2)) &&& 0x0F) <<< 2 = second &&& 0x3C := by
  rcases (digit_moved first firstBelow).2.2.1 with ⟨isFirst, low⟩
  rcases (digit_moved second secondBelow).2.2.2.1 with ⟨high, isSecond⟩
  rw [UInt8.shiftRight_or, and_of_or, UInt8.shiftLeft_or, isFirst, low, high, isSecond,
    UInt8.or_zero, UInt8.zero_or]
  exact ⟨rfl, rfl⟩

/-- The third byte holds the low bits of the third digit and the fourth. -/
theorem digits_of_byte_third (first second : UInt8) (firstBelow : first < 64)
    (secondBelow : second < 64) :
    ((first <<< 6) ||| second) >>> 6 = first &&& 0x03 ∧
      ((first <<< 6) ||| second) &&& 0x3F = second := by
  rcases (digit_moved first firstBelow).2.2.2.2.1 with ⟨isFirst, low⟩
  rcases (digit_moved second secondBelow).2.2.2.2.2 with ⟨high, isSecond⟩
  rw [UInt8.shiftRight_or, and_of_or, isFirst, low, high, isSecond, UInt8.or_zero, UInt8.zero_or]
  exact ⟨rfl, rfl⟩

/-- A digit is put together from the parts two bytes hold of it. -/
theorem digit_parts : ∀ digit : UInt8, digit < 64 →
    (digit &&& 0x30) ||| (digit &&& 0x0F) = digit ∧
      (digit &&& 0x3C) ||| (digit &&& 0x03) = digit ∧
        (digit &&& 0x30 = digit ↔ digit &&& 0x0F = 0) ∧
          (digit &&& 0x3C = digit ↔ digit &&& 0x03 = 0) := by
  apply forall_digit
  decide +kernel

end Bits

/-- Three bytes have the digits they were packed from. -/
theorem digitsOfChunk_four {d0 d1 d2 d3 : UInt8} (below0 : d0 < 64) (below1 : d1 < 64)
    (below2 : d2 < 64) (below3 : d3 < 64) :
    digitsOfChunk [(d0 <<< 2) ||| (d1 >>> 4), (d1 <<< 4) ||| (d2 >>> 2), (d2 <<< 6) ||| d3] =
      [d0, d1, d2, d3] := by
  obtain ⟨isFirst, highSecond⟩ := digits_of_byte_first d0 d1 below0 below1
  obtain ⟨lowSecond, highThird⟩ := digits_of_byte_second d1 d2 below1 below2
  obtain ⟨lowThird, isFourth⟩ := digits_of_byte_third d2 d3 below2 below3
  simp [digitsOfChunk, isFirst, highSecond, lowSecond, highThird, lowThird, isFourth,
    (digit_parts d1 below1).1, (digit_parts d2 below2).2.1]

/-- The bits of the last of these digits that no byte takes. -/
def spareBits : List UInt8 → UInt8
  | _ :: _ :: _ :: _ :: rest => spareBits rest
  | [_, _, d2] => d2 &&& 0x03
  | [_, d1] => d1 &&& 0x0F
  | _ => 0

/-- Digits are those of the bytes packed from them exactly when no bit is left out. -/
theorem digitsOfBytes_bytesOf_iff {digits : List UInt8} (below : ∀ digit ∈ digits, digit < 64)
    (whole : digits.length % 4 ≠ 1) :
    digitsOfBytes (bytesOf digits) = digits ↔ spareBits digits = 0 := by
  induction digits using bytesOf.induct with
  | case1 d0 d1 d2 d3 rest ih =>
      have later := ih (fun digit member => below digit (by simp [member])) (by
        simp only [List.length_cons] at whole
        omega)
      have chunk := digitsOfChunk_four (below d0 (by simp)) (below d1 (by simp))
        (below d2 (by simp)) (below d3 (by simp))
      simp only [bytesOf, List.cons_append, List.nil_append, digitsOfBytes, chunk, spareBits,
        List.cons.injEq, true_and]
      exact later
  | case2 d0 d1 d2 =>
      have below1 := below d1 (by simp)
      have below2 := below d2 (by simp)
      obtain ⟨isFirst, highSecond⟩ := digits_of_byte_first d0 d1 (below d0 (by simp)) below1
      obtain ⟨lowSecond, highThird⟩ := digits_of_byte_second d1 d2 below1 below2
      have chunk : digitsOfBytes (bytesOf [d0, d1, d2]) = [d0, d1, d2 &&& 0x3C] := by
        simp [bytesOf, digitsOfBytes, digitsOfChunk, isFirst, highSecond, lowSecond, highThird,
          (digit_parts d1 below1).1]
      rw [chunk]
      simpa [spareBits] using (digit_parts d2 below2).2.2.2
  | case3 d0 d1 =>
      have below1 := below d1 (by simp)
      obtain ⟨isFirst, highSecond⟩ := digits_of_byte_first d0 d1 (below d0 (by simp)) below1
      have chunk : digitsOfBytes (bytesOf [d0, d1]) = [d0, d1 &&& 0x30] := by
        simp [bytesOf, digitsOfBytes, digitsOfChunk, isFirst, highSecond]
      rw [chunk]
      simpa [spareBits] using (digit_parts d1 below1).2.2.1
  | case4 digits notFour notThree notTwo =>
      rcases digits_of_rest notFour notThree notTwo with rfl | ⟨d0, rfl⟩
      · exact ⟨fun _ => rfl, fun _ => rfl⟩
      · exact absurd rfl whole

/-! ## Values -/

theorem spareBits_eq (digits : List UInt8) :
    spareBits digits =
      match digits.getLast?, digits.length % 4 with
      | some digit, 2 => digit &&& 0x0F
      | some digit, 3 => digit &&& 0x03
      | _, _ => 0 := by
  induction digits using spareBits.induct with
  | case1 d0 d1 d2 d3 rest ih =>
      have length : (d0 :: d1 :: d2 :: d3 :: rest).length % 4 = rest.length % 4 := by
        simp only [List.length_cons]
        omega
      rw [length, spareBits, ih]
      cases rest with
      | nil => rfl
      | cons digit later => simp
  | case2 d0 d1 d2 => rfl
  | case3 d0 d1 => rfl
  | case4 digits notFour notThree notTwo =>
      rcases digits_of_rest notFour notThree notTwo with rfl | ⟨d0, rfl⟩
      · rfl
      · rfl

theorem StandsFor.unusedBits_eq {value : Text} {digits : List UInt8}
    (stands : StandsFor (utf8 value) digits) : unusedBits value = spareBits digits := by
  have last : (utf8 value).getLast?.bind digitOf = digits.getLast? := by
    have lasts := congrArg List.getLast? stands
    rw [List.getLast?_map, List.getLast?_map] at lasts
    cases isLast : (utf8 value).getLast? with
    | none =>
        rw [isLast] at lasts
        cases isDigit : digits.getLast? with
        | none => rfl
        | some digit =>
            rw [isDigit] at lasts
            contradiction
    | some byte =>
        rw [isLast] at lasts
        cases isDigit : digits.getLast? with
        | none =>
            rw [isDigit] at lasts
            contradiction
        | some digit =>
            rw [isDigit] at lasts
            exact Option.some.inj lasts
  rw [spareBits_eq, unusedBits, last, stands.length_eq]

/-- What is decoded is encoded as the value again exactly when no bit of the value is left out. -/
theorem StandsFor.encodeParamValue_iff {value : Text} {digits : List UInt8}
    (stands : StandsFor (utf8 value) digits) (whole : (utf8 value).length % 4 ≠ 1) :
    encodeParamValue (bytesOf digits) = value ↔ unusedBits value = 0 := by
  rw [stands.length_eq] at whole
  rw [stands.unusedBits_eq, ← digitsOfBytes_bytesOf_iff stands.lt whole, encodeParamValue_eq]
  have written : digits.map charOf = value := utf8_injective stands.utf8_eq
  constructor
  · intro same
    -- The characters are read back as digits, so equal characters are equal digits.
    have first := (digitsOf_utf8 (digitsOfBytes_lt (bytesOf digits)) 0).1
    rw [same, ← written, (digitsOf_utf8 stands.lt 0).1] at first
    exact (Except.ok.inj first).symm
  · intro same
    rw [same, written]

theorem decodeParamValue_standsFor {value : Text} {digits : List UInt8}
    (stands : StandsFor (utf8 value) digits) :
    decodeParamValue value =
      if (utf8 value).length % 4 = 1 then .error (.badLength (utf8 value).length)
      else .ok (bytesOf digits) :=
  decodeChunks_standsFor stands _ 0

theorem decodeParamValue_foreign {value : Text} {before after : Bytes} {byte : UInt8}
    {digits : List UInt8} (isValue : utf8 value = before ++ byte :: after)
    (stands : StandsFor before digits) (foreign : digitOf byte = none) :
    decodeParamValue value = .error (.notInAlphabet byte before.length) := by
  have refused := decodeChunks_foreign stands foreign after (utf8 value).length 0
  rw [← isValue, Nat.zero_add] at refused
  exact refused

/-- The alphabet and the length decide what is decoded, and the first foreign character, or else the
length, is what is refused. -/
theorem strictBase64Url : StrictBase64Url := by
  have notForeign : ∀ byte, digitOf byte = none → byte ∉ utf8 alphabet := by
    intro byte foreign member
    rw [← isSome_digitOf_iff, foreign] at member
    contradiction
  constructor
  · exact decodeParamValue_encodeParamValue
  · exact length_utf8_encodeParamValue
  · intro bytes c member
    rw [encodeParamValue_eq] at member
    obtain ⟨digit, -, rfl⟩ := List.mem_map.mp member
    exact charOf_mem_alphabet digit
  · intro value
    rcases standsFor_or_foreign (utf8 value) with
      ⟨digits, stands⟩ | ⟨before, byte, after, digits, isValue, stands, foreign⟩
    · rw [decodeParamValue_standsFor stands]
      by_cases fractional : (utf8 value).length % 4 = 1
      · simp [fractional]
      · simpa [fractional] using stands.mem_alphabet
    · rw [decodeParamValue_foreign isValue stands foreign]
      constructor
      · rintro ⟨bytes, decoded⟩
        cases decoded
      · rintro ⟨all, -⟩
        exact absurd (all byte (by simp [isValue])) (notForeign byte foreign)
  · intro value bytes decoded
    rcases standsFor_or_foreign (utf8 value) with
      ⟨digits, stands⟩ | ⟨before, byte, after, digits, isValue, stands, foreign⟩
    · rw [decodeParamValue_standsFor stands] at decoded
      split at decoded
      · cases decoded
      · next whole =>
          rw [← Except.ok.inj decoded]
          exact stands.encodeParamValue_iff whole
    · rw [decodeParamValue_foreign isValue stands foreign] at decoded
      cases decoded
  · intro value error refused
    rcases standsFor_or_foreign (utf8 value) with
      ⟨digits, stands⟩ | ⟨before, byte, after, digits, isValue, stands, foreign⟩
    · rw [decodeParamValue_standsFor stands] at refused
      split at refused
      · exact .inr ⟨stands.mem_alphabet, (Except.error.inj refused).symm⟩
      · cases refused
    · rw [decodeParamValue_foreign isValue stands foreign] at refused
      exact .inl ⟨before, byte, after, isValue, stands.mem_alphabet, notForeign byte foreign,
        (Except.error.inj refused).symm⟩

end SipxClstr.Affinity
