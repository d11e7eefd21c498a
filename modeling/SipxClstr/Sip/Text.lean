import Mathlib.Data.List.DropRight

/-!
# Bytes and text

The repository moves between raw bytes, as they stand on the wire, and decoded
text.  `Bytes` is a byte string and `Text` a decoded string; the functions here
are the standard-library conversions and the small string operations the
modelled code applies to them.
-/

namespace SipxClstr.Sip

/-- A byte string as it stands on the wire. -/
abbrev Bytes := List UInt8

/-- A decoded string, one scalar value an entry. -/
abbrev Text := List Char

instance : LawfulBEq Bytes :=
  inferInstance

instance : LawfulBEq Text :=
  inferInstance

-- Before the instances that go through every character, or every byte, there is.
instance (priority := 1100) decidableForallMem {α : Type} (holds : α → Prop)
    [DecidablePred holds] (items : List α) : Decidable (∀ item ∈ items, holds item) :=
  List.decidableBAll holds items

/-- The UTF-8 bytes of a string. -/
def utf8 (text : Text) : Bytes :=
  text.flatMap String.utf8EncodeChar

/-- A string constant as text. -/
def text (constant : String) : Text :=
  constant.toList

/-- A string constant as bytes. -/
def bytes (constant : String) : Bytes :=
  utf8 (text constant)

/-- The character `from_utf8_lossy` puts in place of an ill-formed sequence. -/
def replacementCharacter : Char :=
  Char.ofNat 0xFFFD

/-- Whether the head of `rest` is a continuation byte in `low..=high`. -/
def continues (low high : UInt8) (rest : Bytes) : Bool :=
  match rest with
  | next :: _ => low ≤ next && next ≤ high
  | [] => false

/-- The value of the continuation byte at the head of `rest`. -/
def tailBits (rest : Bytes) : Nat :=
  (rest.headD 0).toNat % 64

/-- Bounds on the second byte of a three-byte sequence led by `lead`. -/
def secondOfThree (lead : UInt8) : UInt8 × UInt8 :=
  if lead = 0xE0 then (0xA0, 0xBF) else if lead = 0xED then (0x80, 0x9F) else (0x80, 0xBF)

/-- Bounds on the second byte of a four-byte sequence led by `lead`. -/
def secondOfFour (lead : UInt8) : UInt8 × UInt8 :=
  if lead = 0xF0 then (0x90, 0xBF) else if lead = 0xF4 then (0x80, 0x8F) else (0x80, 0xBF)

/-- Decode one character led by `lead` and say how many bytes of `rest` it
takes.  An ill-formed sequence yields the replacement character and takes its
longest prefix that could still have been well formed. -/
def decodeLead (lead : UInt8) (rest : Bytes) : Char × Nat :=
  if lead < 0x80 then
    (Char.ofNat lead.toNat, 0)
  else if 0xC2 ≤ lead && lead ≤ 0xDF then
    if continues 0x80 0xBF rest then
      (Char.ofNat (lead.toNat % 32 * 64 + tailBits rest), 1)
    else
      (replacementCharacter, 0)
  else if 0xE0 ≤ lead && lead ≤ 0xEF then
    if continues (secondOfThree lead).1 (secondOfThree lead).2 rest then
      if continues 0x80 0xBF (rest.drop 1) then
        (Char.ofNat ((lead.toNat % 16 * 64 + tailBits rest) * 64 + tailBits (rest.drop 1)), 2)
      else
        (replacementCharacter, 1)
    else
      (replacementCharacter, 0)
  else if 0xF0 ≤ lead && lead ≤ 0xF4 then
    if continues (secondOfFour lead).1 (secondOfFour lead).2 rest then
      if continues 0x80 0xBF (rest.drop 1) then
        if continues 0x80 0xBF (rest.drop 2) then
          (Char.ofNat (((lead.toNat % 8 * 64 + tailBits rest) * 64 + tailBits (rest.drop 1)) * 64 +
            tailBits (rest.drop 2)), 3)
        else
          (replacementCharacter, 2)
      else
        (replacementCharacter, 1)
    else
      (replacementCharacter, 0)
  else
    (replacementCharacter, 0)

/-- Decoding with an explicit bound on the characters produced. -/
def fromUtf8LossyUpTo : Nat → Bytes → Text
  | 0, _ => []
  | _ + 1, [] => []
  | fuel + 1, lead :: rest =>
      (decodeLead lead rest).1 :: fromUtf8LossyUpTo fuel (rest.drop (decodeLead lead rest).2)

/-- `String::from_utf8_lossy`.  Every character takes at least one byte, so the
length bounds the characters. -/
def fromUtf8Lossy (raw : Bytes) : Text :=
  fromUtf8LossyUpTo raw.length raw

/-- `char::is_whitespace`: the Unicode `White_Space` property. -/
def isWhitespace (c : Char) : Bool :=
  let code := c.toNat
  (0x09 ≤ code && code ≤ 0x0D) || code == 0x20 || code == 0x85 || code == 0xA0 ||
    code == 0x1680 || (0x2000 ≤ code && code ≤ 0x200A) || code == 0x2028 || code == 0x2029 ||
    code == 0x202F || code == 0x205F || code == 0x3000

/-- `str::trim`. -/
def trim (value : Text) : Text :=
  (value.dropWhile isWhitespace).rdropWhile isWhitespace

/-- `str::split_whitespace().next()`. -/
def firstWord (value : Text) : Option Text :=
  match (value.dropWhile isWhitespace).takeWhile (!isWhitespace ·) with
  | [] => none
  | word => some word

/-- `to_ascii_lowercase`. -/
def toAsciiLowercase (value : Text) : Text :=
  value.map Char.toLower

/-- `strip_suffix('.')`, or the text itself when there is nothing to strip. -/
def stripTrailingDot (value : Text) : Text :=
  if value.getLast? = some '.' then value.dropLast else value

/-- Decimal digits of `digits`, most significant first. -/
def digitsValue (digits : Text) : Nat :=
  digits.foldl (fun value digit => value * 10 + (digit.toNat - '0'.toNat)) 0

/-- `str::parse` for an unsigned integer type whose largest value is `max`: one
optional plus sign, then one or more ASCII digits, and no overflow. -/
def parseUnsigned (max : Nat) (value : Text) : Option Nat :=
  let digits := match value with
    | '+' :: rest => rest
    | _ => value
  if digits ≠ [] ∧ digits.all Char.isDigit ∧ digitsValue digits ≤ max then
    some (digitsValue digits)
  else
    none

/-- `to_string` of an unsigned integer. -/
def decimal (value : Nat) : Text :=
  Nat.toDigits 10 value

/-- The largest `u8`. -/
def u8Max : Nat := 255

/-- The largest `u32`. -/
def u32Max : Nat := 4294967295

/-- `u32::try_from(value).unwrap_or(u32::MAX).to_be_bytes()`. -/
def be32 (value : Nat) : Bytes :=
  let clamped := min value u32Max
  [UInt8.ofNat (clamped / 16777216), UInt8.ofNat (clamped / 65536 % 256),
    UInt8.ofNat (clamped / 256 % 256), UInt8.ofNat (clamped % 256)]

example : fromUtf8Lossy [0x61, 0xE2, 0x82, 0xAC, 0xE2, 0x82, 0x62] =
    ['a', '€', replacementCharacter, 'b'] := by decide

end SipxClstr.Sip
