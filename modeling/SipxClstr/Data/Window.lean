import Mathlib.Data.List.DropRight
import Mathlib.Data.List.Nodup

/-!
# Bounded feeds

A feed that keeps the last entries of a log only.  A reader that remembers the last entry it saw
finds it in the feed exactly while nothing behind it has been pushed out, and what stands behind it
is then all that was written since.
-/

namespace SipxClstr.Data

variable {α β : Type*}

/-- A window that is cut down after each addition shows the end of the whole log. -/
theorem rtake_rtake_append (capacity : Nat) (log more : List α) :
    (log.rtake capacity ++ more).rtake capacity = (log ++ more).rtake capacity := by
  have within : log.length - capacity ≤ log.length := Nat.sub_le _ _
  have cut : log.drop (log.length - capacity) ++ more =
      (log ++ more).drop (log.length - capacity) :=
    (List.drop_append_of_le_length within).symm
  simp only [List.rtake, cut, List.drop_drop, List.length_drop, List.length_append]
  congr 1
  omega

theorem rtake_of_length_le {capacity : Nat} {log : List α} (within : log.length ≤ capacity) :
    log.rtake capacity = log := by
  rw [List.rtake, Nat.sub_eq_zero_of_le within, List.drop_zero]

theorem length_rtake (capacity : Nat) (log : List α) :
    (log.rtake capacity).length = min capacity log.length := by
  rw [List.rtake, List.length_drop]
  omega

/-- The end of the window is the end of the log. -/
theorem getLast?_rtake {capacity : Nat} (holds : 0 < capacity) (log : List α) :
    (log.rtake capacity).getLast? = log.getLast? := by
  obtain ⟨capacity, rfl⟩ := Nat.exists_eq_succ_of_ne_zero (Nat.ne_of_gt holds)
  rcases List.eq_nil_or_concat log with rfl | ⟨earlier, last, rfl⟩
  · rw [List.rtake_nil]
  · rw [List.concat_eq_append, List.rtake_concat_succ, List.getLast?_concat, List.getLast?_concat]

section Behind

variable [DecidableEq α]

/-- What stands behind an entry. -/
def behind (seen : α) (feed : List α) : List α :=
  (feed.dropWhile fun entry => entry ≠ seen).drop 1

theorem behind_append_cons {seen : α} {earlier : List α} (absent : seen ∉ earlier)
    (since : List α) : behind seen (earlier ++ seen :: since) = since := by
  have others : ∀ entry ∈ earlier, decide (entry ≠ seen) = true := by
    intro entry member
    apply decide_eq_true
    rintro rfl
    exact absent member
  rw [behind, List.dropWhile_append_of_pos others, List.dropWhile_cons_of_neg (by simp)]
  rfl

variable {capacity : Nat} {past since : List α} {seen : α}

omit [DecidableEq α] in
/-- An entry that is not pushed out yet stands in the window with everything behind it. -/
theorem rtake_append_cons (kept : since.length < capacity) :
    (past ++ seen :: since).rtake capacity =
      past.rtake (capacity - (since.length + 1)) ++ seen :: since := by
  have within : past.length + (since.length + 1) - capacity ≤ past.length := by omega
  rw [List.rtake, List.rtake, List.length_append, List.length_cons,
    List.drop_append_of_le_length within]
  congr 2
  omega

omit [DecidableEq α] in
theorem mem_rtake_append_cons_iff (nodup : (past ++ seen :: since).Nodup) :
    seen ∈ (past ++ seen :: since).rtake capacity ↔ since.length < capacity := by
  constructor
  · intro found
    by_contra pushedOut
    have beyond : past.length + 1 ≤ past.length + (since.length + 1) - capacity := by omega
    have apart : seen ∉ since := (List.nodup_cons.mp nodup.of_append_right).1
    rw [List.rtake, List.length_append, List.length_cons, List.append_cons] at found
    rw [← Nat.add_sub_cancel' beyond, ← List.drop_drop, List.drop_left' (by simp)] at found
    exact apart (List.mem_of_mem_drop found)
  · intro kept
    rw [rtake_append_cons kept]
    exact List.mem_append_right _ List.mem_cons_self

/-- A reader that finds the last entry it saw has everything since behind it. -/
theorem behind_rtake (nodup : (past ++ seen :: since).Nodup) (kept : since.length < capacity) :
    behind seen ((past ++ seen :: since).rtake capacity) = since := by
  rw [rtake_append_cons kept]
  apply behind_append_cons
  intro member
  have before : seen ∈ past := List.mem_of_mem_drop member
  exact (List.nodup_append.mp nodup).2.2 seen before seen List.mem_cons_self rfl

end Behind

end SipxClstr.Data
