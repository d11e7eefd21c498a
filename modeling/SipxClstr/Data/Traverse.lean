import Mathlib.Data.Option.Basic
import Mathlib.Data.List.Basic

/-!
# Partial maps over lists

A partial function mapped over a list answers when it answers on every item.
-/

namespace SipxClstr.Data

variable {α β : Type*}

theorem mapM_eq_some_iff {partialMap : α → Option β} {items : List α} {values : List β} :
    items.mapM partialMap = some values ↔ items.map partialMap = values.map some := by
  induction items generalizing values with
  | nil => cases values <;> simp
  | cons item rest ih =>
      simp only [List.mapM_cons, Option.bind_eq_bind, Option.bind_eq_some_iff, Option.pure_def,
        Option.some_inj, List.map_cons]
      constructor
      · rintro ⟨value, isValue, others, isOthers, rfl⟩
        rw [isValue, ih.mp isOthers, List.map_cons]
      · intro same
        cases values with
        | nil => simp at same
        | cons value others =>
            rw [List.map_cons, List.cons.injEq] at same
            exact ⟨value, same.1, others, ih.mpr same.2, rfl⟩

theorem isSome_of_mapM {partialMap : α → Option β} {items : List α} {values : List β}
    (answers : items.mapM partialMap = some values) {item : α} (member : item ∈ items) :
    (partialMap item).isSome := by
  have among : partialMap item ∈ values.map some := by
    rw [← mapM_eq_some_iff.mp answers]
    exact List.mem_map_of_mem member
  obtain ⟨value, -, same⟩ := List.mem_map.mp among
  rw [← same, Option.isSome_some]

/-- An answer that is known in part is an answer. -/
theorem exists_ok_of_map {ε : Type*} {answer : Except ε α} {part : α → β} {value : β}
    (known : answer.toOption.map part = some value) : ∃ found, answer = .ok found ∧ part found = value := by
  cases answer with
  | error error => simp [Except.toOption] at known
  | ok found => exact ⟨found, rfl, by simpa [Except.toOption] using known⟩

end SipxClstr.Data
