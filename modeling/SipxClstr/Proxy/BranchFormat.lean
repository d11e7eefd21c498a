import SipxClstr.Proxy.Cookie
import SipxClstr.Wire.Framing

/-!
# What a branch says

The branch of a copy is written from two tags, each a truncated MAC in
hexadecimal.  A hyphen ends each of them, so both can be read back; and the
routing state is encoded so that no two states share an encoding.
-/

namespace SipxClstr.Proxy

open SipxClstr.Sip

/-! ## Hexadecimal -/

/-- The value of a hexadecimal digit. -/
def digitOf (digit : Char) : Nat :=
  if digit.toNat ≤ '9'.toNat then digit.toNat - '0'.toNat else digit.toNat - 'a'.toNat + 10

/-- The two digits of a byte give it back, and neither is a hyphen. -/
theorem hexDigits_byte (byte : UInt8) :
    digitOf (nibble (byte >>> 4)) * 16 + digitOf (nibble (byte &&& 0x0F)) = byte.toNat ∧
      nibble (byte >>> 4) ≠ '-' ∧ nibble (byte &&& 0x0F) ≠ '-' := by
  have all : ∀ value : Fin 256,
      digitOf (nibble (UInt8.ofNat value >>> 4)) * 16 +
          digitOf (nibble (UInt8.ofNat value &&& 0x0F)) = value ∧
        nibble (UInt8.ofNat value >>> 4) ≠ '-' ∧ nibble (UInt8.ofNat value &&& 0x0F) ≠ '-' := by
    decide +kernel
  simpa using all ⟨byte.toNat, byte.toNat_lt⟩

theorem hex_cons (byte : UInt8) (rest : Bytes) :
    hex (byte :: rest) = nibble (byte >>> 4) :: nibble (byte &&& 0x0F) :: hex rest :=
  rfl

theorem hex_injective {first second : Bytes} (same : hex first = hex second) : first = second := by
  induction first generalizing second with
  | nil =>
      cases second with
      | nil => rfl
      | cons byte rest => contradiction
  | cons byte rest ih =>
      cases second with
      | nil => contradiction
      | cons byte' rest' =>
          simp only [hex_cons, List.cons.injEq] at same
          obtain ⟨high, low, later⟩ := same
          have sameByte : byte.toNat = byte'.toNat := by
            rw [← (hexDigits_byte byte).1, high, low, (hexDigits_byte byte').1]
          rw [UInt8.toNat_inj.mp sameByte, ih later]

theorem dash_notMem_hex (raw : Bytes) : '-' ∉ hex raw := by
  induction raw with
  | nil => exact List.not_mem_nil
  | cons byte rest ih =>
      obtain ⟨-, high, low⟩ := hexDigits_byte byte
      rw [hex_cons, List.mem_cons, List.mem_cons]
      rintro (isHigh | isLow | later)
      · exact high isHigh.symm
      · exact low isLow.symm
      · exact ih later

/-! ## The two tags of a branch -/

/-- What the unique part of a branch is a MAC over. -/
def uniqueMessage (input : CookieInput) (index : Nat) : Bytes :=
  input.encodeRoutingState ++ bytes "/via/" ++ input.topVia.getD [] ++ bytes "/branch/" ++
    be32 index

variable (K : Kernel)

/-- A MAC as a branch carries it. -/
def tag (key message : Bytes) : Bytes :=
  (mac K key message).take cookieBytes

theorem branchFor_eq (config : ProxyConfig) (input : CookieInput) (index : Nat) :
    branchFor K config input index =
      magicCookie ++ '-' :: (hex (tag K config.cookieKey (uniqueMessage input index)) ++
        '-' :: hex (tag K config.cookieKey input.encodeRoutingState)) := by
  simp [branchFor, CookieInput.cookie, tag, uniqueMessage]

/-- No two of these messages have one tag. -/
def CollisionFree (key : Bytes) (messages : List Bytes) : Prop :=
  ∀ first ∈ messages, ∀ second ∈ messages, tag K key first = tag K key second → first = second

instance (key : Bytes) (messages : List Bytes) : Decidable (CollisionFree K key messages) :=
  inferInstanceAs (Decidable (∀ first ∈ messages, ∀ second ∈ messages, _ → _))

variable {K}

/-- Copies on one branch have the same two tags. -/
theorem tag_of_branchFor_eq {config : ProxyConfig} {input input' : CookieInput}
    {index index' : Nat}
    (same : branchFor K config input index = branchFor K config input' index') :
    tag K config.cookieKey (uniqueMessage input index) =
      tag K config.cookieKey (uniqueMessage input' index') := by
  rw [branchFor_eq, branchFor_eq] at same
  have afterMagic := List.cons_injective (List.append_cancel_left same)
  -- The unique part ends at the first hyphen.
  have unique_eq : ∀ input index,
      (hex (tag K config.cookieKey (uniqueMessage input index)) ++
        '-' :: hex (tag K config.cookieKey input.encodeRoutingState)).takeWhile (· ≠ '-') =
          hex (tag K config.cookieKey (uniqueMessage input index)) := by
    intro input index
    rw [List.takeWhile_append_of_pos]
    · simp
    · intro digit member
      rw [decide_eq_true_eq]
      rintro rfl
      exact dash_notMem_hex _ member
  apply hex_injective
  rw [← unique_eq, afterMagic, unique_eq]

theorem be32_eq_bigEndian (value : Nat) : be32 value = Wire.bigEndian 4 (min value u32Max) := by
  have digit : ∀ n : Nat, UInt8.ofNat (n % 256) = UInt8.ofNat n := by
    intro n
    apply UInt8.toNat_inj.mp
    simp
  simp only [be32, Wire.bigEndian, List.nil_append, List.cons_append, Nat.div_div_eq_div_mul,
    digit, Nat.reduceMul]

theorem be32_length (value : Nat) : (be32 value).length = 4 :=
  rfl

/-- The clamped encoding tells apart what fits it. -/
theorem be32_inj {first second : Nat} (firstFits : first ≤ u32Max) (secondFits : second ≤ u32Max)
    (same : be32 first = be32 second) : first = second := by
  rw [be32_eq_bigEndian, be32_eq_bigEndian, Nat.min_eq_left firstFits,
    Nat.min_eq_left secondFits] at same
  apply Wire.bigEndian_inj _ _ same
  · exact Nat.lt_of_le_of_lt firstFits (by decide)
  · exact Nat.lt_of_le_of_lt secondFits (by decide)

/-- The message of a unique part ends with its index. -/
theorem uniqueMessage_index {input input' : CookieInput} {index index' : Nat}
    (fits : index ≤ u32Max) (fits' : index' ≤ u32Max)
    (same : uniqueMessage input index = uniqueMessage input' index') : index = index' := by
  apply be32_inj fits fits'
  exact List.append_inj_right' same rfl

end SipxClstr.Proxy
