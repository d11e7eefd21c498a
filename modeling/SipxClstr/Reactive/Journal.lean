import SipxClstr.Reactive.Run

/-!
# Journals

A journal is written entry by entry, and never rewritten.  What is said of an entry is said by
what stands before it, so it holds for good once it held when the entry was written.
-/

namespace Reactive

universe u

variable {α : Type u}

/-- Every entry is good, in view of what stands before it. -/
def Justified (good : List α → α → Prop) (journal : List α) : Prop :=
  ∀ past entry future, journal = past ++ entry :: future → good past entry

namespace Justified

variable {good : List α → α → Prop} {journal extra : List α} {entry : α}

theorem nil : Justified good [] := by
  intro past entry future split
  simp at split

/-- One more entry is written. -/
theorem concat_iff :
    Justified good (journal ++ [entry]) ↔ Justified good journal ∧ good journal entry := by
  constructor
  · intro justified
    constructor
    · rintro past earlier future rfl
      exact justified past earlier (future ++ [entry]) (by simp)
    · exact justified journal entry [] rfl
  · rintro ⟨justified, last⟩ past earlier future split
    rcases Machine.concat_eq_append_cons split with ⟨rfl, rfl, rfl⟩ | ⟨between, rfl, rfl⟩
    · exact last
    · exact justified past earlier between rfl

theorem concat (justified : Justified good journal) (last : good journal entry) :
    Justified good (journal ++ [entry]) :=
  concat_iff.mpr ⟨justified, last⟩

end Justified

end Reactive
