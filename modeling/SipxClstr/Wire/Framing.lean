import Mathlib.Algebra.Group.Nat.Defs
import Mathlib.Data.List.Induction

/-!
# Framing

Fixed-width big-endian numbers, and encodings that tell where they end.  A
self-delimiting encoding can be followed by anything and still be read back, so
encodings of this kind can be written one after another.
-/

namespace Wire

universe u v

/-! ## Big-endian numbers -/

/-- The last `width` base-256 digits of a number, most significant first. -/
def bigEndian : Nat → Nat → List UInt8
  | 0, _ => []
  | width + 1, value => bigEndian width (value / 256) ++ [UInt8.ofNat (value % 256)]

/-- The number a big-endian byte string stands for. -/
def ofBigEndian (digits : List UInt8) : Nat :=
  digits.foldl (fun value (digit : UInt8) => value * 256 + digit.toNat) 0

@[simp]
theorem bigEndian_length (width value : Nat) : (bigEndian width value).length = width := by
  induction width generalizing value with
  | zero => rfl
  | succ width ih => simp [bigEndian, ih]

@[simp]
theorem ofBigEndian_concat (digits : List UInt8) (last : UInt8) :
    ofBigEndian (digits ++ [last]) = ofBigEndian digits * 256 + last.toNat := by
  simp [ofBigEndian]

theorem ofBigEndian_bigEndian {width value : Nat} (fits : value < 256 ^ width) :
    ofBigEndian (bigEndian width value) = value := by
  induction width generalizing value with
  | zero =>
      simp only [Nat.pow_zero] at fits
      have isZero : value = 0 := by omega
      rw [isZero]
      rfl
  | succ width ih =>
      have quotient : value / 256 < 256 ^ width := by
        apply Nat.div_lt_of_lt_mul
        rwa [Nat.pow_succ, Nat.mul_comm] at fits
      have digit : (UInt8.ofNat (value % 256)).toNat = value % 256 := by
        simp
      rw [bigEndian, ofBigEndian_concat, ih quotient, digit]
      omega

theorem ofBigEndian_lt (digits : List UInt8) : ofBigEndian digits < 256 ^ digits.length := by
  induction digits using List.reverseRecOn with
  | nil => simp [ofBigEndian]
  | append_singleton digits last ih =>
      have digit := last.toNat_lt
      rw [ofBigEndian_concat, List.length_append, List.length_singleton, Nat.pow_succ]
      omega

/-- Writing a number that was read gives back the bytes it was read from. -/
theorem bigEndian_ofBigEndian (digits : List UInt8) :
    bigEndian digits.length (ofBigEndian digits) = digits := by
  induction digits using List.reverseRecOn with
  | nil => rfl
  | append_singleton digits last ih =>
      have digit := last.toNat_lt
      rw [List.length_append, List.length_singleton, bigEndian, ofBigEndian_concat]
      have quotient : (ofBigEndian digits * 256 + last.toNat) / 256 = ofBigEndian digits := by
        omega
      have remainder : (ofBigEndian digits * 256 + last.toNat) % 256 = last.toNat := by
        omega
      rw [quotient, remainder, ih, UInt8.ofNat_toNat]

theorem bigEndian_inj {width first second : Nat} (firstFits : first < 256 ^ width)
    (secondFits : second < 256 ^ width) (same : bigEndian width first = bigEndian width second) :
    first = second := by
  rw [← ofBigEndian_bigEndian firstFits, same, ofBigEndian_bigEndian secondFits]

/-! ## Self-delimiting encodings -/

variable {α : Type u} {β : Type v} {γ : Type*}

/-- On the values `valid` holds of, an encoding can be told from whatever follows
it. -/
def SelfDelimiting (valid : α → Prop) (encode : α → List β) : Prop :=
  ∀ first second, valid first → valid second → ∀ rest rest' : List β,
    encode first ++ rest = encode second ++ rest' → first = second ∧ rest = rest'

namespace SelfDelimiting

variable {valid : α → Prop} {encode : α → List β}

theorem injective (delimits : SelfDelimiting valid encode) {first second : α}
    (firstValid : valid first) (secondValid : valid second) (same : encode first = encode second) :
    first = second :=
  (delimits first second firstValid secondValid [] [] (by rw [same])).1

/-- An injective encoding of one length delimits itself. -/
theorem of_length {width : Nat} (length : ∀ value, valid value → (encode value).length = width)
    (injective : ∀ first second, valid first → valid second → encode first = encode second →
      first = second) : SelfDelimiting valid encode := by
  intro first second firstValid secondValid rest rest' same
  have sameLength : (encode first).length = (encode second).length := by
    rw [length first firstValid, length second secondValid]
  obtain ⟨sameCode, sameRest⟩ := List.append_inj same sameLength
  exact ⟨injective first second firstValid secondValid sameCode, sameRest⟩

/-- Bytes behind their own length delimit themselves. -/
theorem behind_length {validLength : Nat → Prop} {encodeLength : Nat → List β}
    (delimits : SelfDelimiting validLength encodeLength) :
    SelfDelimiting (fun field : List β => validLength field.length)
      (fun field => encodeLength field.length ++ field) := by
  intro first second firstValid secondValid rest rest' same
  rw [List.append_assoc, List.append_assoc] at same
  obtain ⟨sameLength, sameField⟩ := delimits _ _ firstValid secondValid _ _ same
  exact List.append_inj sameField sameLength

/-- Lists of one length, encoded item by item. -/
theorem flatMap (delimits : SelfDelimiting valid encode) (count : Nat) :
    SelfDelimiting (fun items : List α => items.length = count ∧ ∀ item ∈ items, valid item)
      (fun items => items.flatMap encode) := by
  intro first second firstValid secondValid rest rest' same
  induction first generalizing second count with
  | nil =>
      have empty : second = [] := by
        rw [← List.length_eq_zero_iff, secondValid.1, ← firstValid.1]
        rfl
      subst empty
      exact ⟨rfl, same⟩
  | cons item items ih =>
      cases second with
      | nil =>
          have lengths := firstValid.1.trans secondValid.1.symm
          simp at lengths
      | cons item' items' =>
          simp only [List.flatMap_cons, List.append_assoc] at same
          obtain ⟨rfl, later⟩ := delimits item item' (firstValid.2 item List.mem_cons_self)
            (secondValid.2 item' List.mem_cons_self) _ _ same
          have lengths : items.length = items'.length := by
            have both := firstValid.1.trans secondValid.1.symm
            simpa using both
          obtain ⟨rfl, sameRest⟩ := ih items.length items'
            ⟨rfl, fun other member => firstValid.2 other (List.mem_cons_of_mem _ member)⟩
            ⟨lengths.symm, fun other member => secondValid.2 other (List.mem_cons_of_mem _ member)⟩
            later
          exact ⟨rfl, sameRest⟩

end SelfDelimiting

end Wire
