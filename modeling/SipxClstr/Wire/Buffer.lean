import SipxClstr.Wire.Framing

/-!
# Buffers with fixed offsets

Writing fields into a zeroed buffer of fixed size, and reading slices of one back.
Fields that are written one behind the other stand in the buffer as they would in a
concatenation, and a slice with a field's bounds is the field.
-/

namespace Wire

universe u

variable {α : Type u}

/-- A zeroed buffer. -/
def zeroed (size : Nat) : List UInt8 :=
  List.replicate size 0

/-- Copy `source` into `target` at `offset`, doing nothing if it would not fit. -/
def writeAt (target : List α) (offset : Nat) (source : List α) : List α :=
  if offset + source.length ≤ target.length then
    target.take offset ++ source ++ target.drop (offset + source.length)
  else
    target

/-- The elements from `first` up to `last`, if the buffer has them. -/
def slice (buffer : List α) (first last : Nat) : Option (List α) :=
  if first ≤ last ∧ last ≤ buffer.length then
    some ((buffer.drop first).take (last - first))
  else
    none

@[simp]
theorem zeroed_length (size : Nat) : (zeroed size).length = size :=
  List.length_replicate

/-- A field with these bounds is what the slice is. -/
theorem slice_of_split {buffer before field after : List α} {first last : Nat}
    (split : buffer = before ++ field ++ after) (starts : before.length = first)
    (ends : first + field.length = last) : slice buffer first last = some field := by
  have within : first ≤ last ∧ last ≤ buffer.length := by
    rw [split, List.length_append, List.length_append, starts]
    omega
  have width : last - first = field.length := by omega
  rw [slice, if_pos within, split, List.append_assoc, ← starts, List.drop_left, starts, width,
    List.take_left]

/-- A slice that starts behind these does not see them. -/
theorem slice_append_right {before after : List α} {first last : Nat}
    (behind : before.length ≤ first) (ordered : first ≤ last) :
    slice (before ++ after) first last =
      slice after (first - before.length) (last - before.length) := by
  unfold slice
  rw [List.length_append]
  by_cases within : last ≤ before.length + after.length
  · have width : last - before.length - (first - before.length) = last - first := by omega
    rw [if_pos ⟨ordered, within⟩, if_pos (by omega), List.drop_append,
      List.drop_eq_nil_of_le behind, List.nil_append, width]
  · rw [if_neg (by omega), if_neg (by omega)]

/-- A slice of a field's width at its start is the field. -/
theorem slice_append_left {field after : List α} {width : Nat} (exact : field.length = width) :
    slice (field ++ after) 0 width = some field := by
  have within : 0 ≤ width ∧ width ≤ (field ++ after).length := by
    rw [List.length_append]
    omega
  rw [slice, if_pos within, List.drop_zero, Nat.sub_zero, ← exact, List.take_left]

/-- The element behind these is what stands at their number. -/
theorem getElem?_of_split {buffer before after : List α} {element : α} {index : Nat}
    (split : buffer = before ++ element :: after) (starts : before.length = index) :
    buffer[index]? = some element := by
  rw [split, List.getElem?_append_right (Nat.le_of_eq starts), starts, Nat.sub_self,
    List.getElem?_cons_zero]

/-- Bytes written right behind those that are there extend them. -/
theorem writeAt_zeroed {before source : List UInt8} {room offset : Nat}
    (starts : before.length = offset) (fits : source.length ≤ room) :
    writeAt (before ++ zeroed room) offset source =
      before ++ source ++ zeroed (room - source.length) := by
  have within : offset + source.length ≤ (before ++ zeroed room).length := by
    rw [List.length_append, zeroed_length, starts]
    omega
  rw [writeAt, if_pos within, ← starts, List.take_left, ← List.drop_drop, List.drop_left, zeroed,
    List.drop_replicate, zeroed]

/-- What is written at the start of a zeroed buffer. -/
theorem writeAt_start {source : List UInt8} {size : Nat} (fits : source.length ≤ size) :
    writeAt (zeroed size) 0 source = source ++ zeroed (size - source.length) := by
  have written := writeAt_zeroed (List.length_nil) fits
  rwa [List.nil_append, List.nil_append] at written

/-- A list at least this long has a first part of this length. -/
theorem exists_split {buffer : List α} {width : Nat} (long : width ≤ buffer.length) :
    ∃ first rest, buffer = first ++ rest ∧ first.length = width :=
  ⟨buffer.take width, buffer.drop width, (List.take_append_drop width buffer).symm,
    List.length_take_of_le long⟩

end Wire
