import Mathlib.Data.List.Sort
import Mathlib.Data.List.Destutter

/-!
# Sorted lists without repetition

A list sorted by a comparison, and the same with each item once.  What comes out is a
function of the items alone, whatever order they came in.
-/

namespace SipxClstr.Data

variable {α : Type*} [Ord α]

/-- Not after, by the comparison. -/
def NotAfter (first second : α) : Prop :=
  (compare first second).isLE = true

instance : DecidableRel (NotAfter (α := α)) :=
  fun _ _ => inferInstanceAs (Decidable (_ = true))

/-- The items in order. -/
def sorted (items : List α) : List α :=
  items.insertionSort NotAfter

/-- The items in order, each once. -/
def sortedDistinct [DecidableEq α] (items : List α) : List α :=
  (sorted items).destutter (· ≠ ·)

theorem sorted_perm (items : List α) : (sorted items).Perm items :=
  List.perm_insertionSort _ items

@[simp]
theorem mem_sorted {items : List α} {item : α} : item ∈ sorted items ↔ item ∈ items :=
  (sorted_perm items).mem_iff

omit [Ord α] in
/-- Dropping neighbours that repeat drops no item. -/
theorem mem_destutter' [DecidableEq α] {items : List α} {first item : α} :
    item ∈ items.destutter' (· ≠ ·) first ↔ item ∈ first :: items := by
  induction items generalizing first with
  | nil => simp
  | cons next rest ih =>
      by_cases differs : first ≠ next
      · rw [List.destutter'_cons_pos _ differs, List.mem_cons, ih]
        simp
      · rw [List.destutter'_cons_neg _ differs, ih]
        rw [not_not] at differs
        simp [differs]

@[simp]
theorem mem_sortedDistinct [DecidableEq α] {items : List α} {item : α} :
    item ∈ sortedDistinct items ↔ item ∈ items := by
  have inOrder : item ∈ items ↔ item ∈ sorted items := mem_sorted.symm
  rw [sortedDistinct, inOrder]
  cases sorted items with
  | nil => simp
  | cons first rest => rw [List.destutter_cons', mem_destutter']

section Lawful

variable [Std.TransOrd α] [Std.LawfulEqOrd α]

instance : IsTrans α NotAfter :=
  ⟨fun _ _ _ => Std.TransCmp.isLE_trans⟩

instance : Std.Total (NotAfter (α := α)) := by
  constructor
  intro first second
  unfold NotAfter
  have turned : compare second first = (compare first second).swap := Std.OrientedCmp.eq_swap
  rw [turned]
  cases compare first second <;> decide

theorem NotAfter.antisymm {first second : α} (one : NotAfter first second)
    (other : NotAfter second first) : first = second := by
  have turned : compare second first = (compare first second).swap := Std.OrientedCmp.eq_swap
  apply Std.LawfulEqOrd.compare_eq_iff_eq.mp
  unfold NotAfter at one other
  rw [turned] at other
  revert one other
  cases compare first second <;> decide

omit [Std.LawfulEqOrd α] in
theorem pairwise_sorted (items : List α) : (sorted items).Pairwise NotAfter :=
  List.pairwise_insertionSort _ items

/-- Sorting forgets the order. -/
theorem sorted_eq_of_perm {items others : List α} (perm : items.Perm others) :
    sorted items = sorted others := by
  apply List.Perm.eq_of_pairwise _ (pairwise_sorted items) (pairwise_sorted others)
  · exact (sorted_perm items).trans (perm.trans (sorted_perm others).symm)
  · intro first second _ _ one other
    exact one.antisymm other

variable [DecidableEq α]

/-- Strictly before, by the comparison. -/
def Before (first second : α) : Prop :=
  NotAfter first second ∧ first ≠ second

instance : IsTrans α Before := by
  constructor
  rintro first second third ⟨notAfter, differs⟩ ⟨notAfter', _⟩
  constructor
  · exact IsTrans.trans _ _ _ notAfter notAfter'
  · rintro rfl
    exact differs (notAfter.antisymm notAfter')

theorem pairwise_sortedDistinct (items : List α) : (sortedDistinct items).Pairwise Before := by
  have inOrder : (sortedDistinct items).Pairwise NotAfter :=
    (pairwise_sorted items).sublist (List.destutter_sublist _ _)
  have differ : (sortedDistinct items).IsChain (· ≠ ·) := List.isChain_destutter _ _
  rw [← List.isChain_iff_pairwise] at inOrder ⊢
  rw [List.isChain_iff_getElem] at inOrder differ ⊢
  exact fun index bound => ⟨inOrder index bound, differ index bound⟩

theorem nodup_sortedDistinct (items : List α) : (sortedDistinct items).Nodup :=
  (pairwise_sortedDistinct items).imp And.right

/-- What comes out depends on which items there are, and on nothing else. -/
theorem sortedDistinct_eq_iff {items others : List α} :
    sortedDistinct items = sortedDistinct others ↔ ∀ item, item ∈ items ↔ item ∈ others := by
  constructor
  · intro same item
    rw [← mem_sortedDistinct, same, mem_sortedDistinct]
  · intro same
    apply List.Perm.eq_of_pairwise _ (pairwise_sortedDistinct items) (pairwise_sortedDistinct others)
    · rw [List.perm_ext_iff_of_nodup (nodup_sortedDistinct items) (nodup_sortedDistinct others)]
      intro item
      rw [mem_sortedDistinct, mem_sortedDistinct, same]
    · intro first second _ _ one other
      exact one.1.antisymm other.1

end Lawful

end SipxClstr.Data
