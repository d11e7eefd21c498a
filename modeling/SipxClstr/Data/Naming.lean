import Mathlib.Data.List.Chain
import Mathlib.Data.List.Nodup

/-!
# Names through versions

Each version of something names a set of ids.  An id keeps its meaning from one version to the
next where no id of both names different things, and then it names one thing for as long as it is
never absent.
-/

namespace SipxClstr.Data

variable {ι ν Version : Type*}

/-- An id of both namings names the same in both. -/
def Agrees (before after : List (ι × ν)) : Prop :=
  ∀ id name other, (id, name) ∈ before → (id, other) ∈ after → other = name

instance [DecidableEq ι] [DecidableEq ν] (before after : List (ι × ν)) :
    Decidable (Agrees before after) :=
  decidable_of_iff (∀ entry ∈ before, ∀ entry' ∈ after, entry.1 = entry'.1 → entry'.2 = entry.2) <| by
    constructor
    · intro agree id name other isBefore isAfter
      exact agree (id, name) isBefore (id, other) isAfter rfl
    · rintro agree ⟨id, name⟩ isBefore ⟨id', other⟩ isAfter rfl
      exact agree _ name other isBefore isAfter

/-- In a run of versions that all have an id, the id names one thing. -/
def Steady (naming : Version → List (ι × ν)) (versions : List Version) : Prop :=
  ∀ run, run <:+: versions → ∀ id, (∀ version ∈ run, id ∈ (naming version).map Prod.fst) →
    ∀ first ∈ run, ∀ last ∈ run, ∀ name other,
      (id, name) ∈ naming first → (id, other) ∈ naming last → other = name

theorem name_unique {naming : List (ι × ν)} (distinct : (naming.map Prod.fst).Nodup) {id : ι}
    {name other : ν} (isName : (id, name) ∈ naming) (isOther : (id, other) ∈ naming) :
    other = name := by
  have same := List.inj_on_of_nodup_map distinct isOther isName rfl
  exact (Prod.mk.inj same).2

/-- What an id names in the first version of a run it names in every version of it. -/
theorem names_first {naming : Version → List (ι × ν)} {id : ι} {name : ν} {first : Version}
    {rest : List Version}
    (distinct : ∀ version ∈ first :: rest, ((naming version).map Prod.fst).Nodup)
    (chain : (first :: rest).IsChain fun before after => Agrees (naming before) (naming after))
    (present : ∀ version ∈ rest, id ∈ (naming version).map Prod.fst)
    (isName : (id, name) ∈ naming first) :
    ∀ version ∈ first :: rest, ∀ other, (id, other) ∈ naming version → other = name := by
  induction rest generalizing first with
  | nil =>
      intro version member other isOther
      rw [List.mem_singleton.mp member] at isOther
      exact name_unique (distinct first List.mem_cons_self) isName isOther
  | cons next later ih =>
      obtain ⟨agree, chain⟩ := List.isChain_cons_cons.mp chain
      intro version member other isOther
      rcases List.mem_cons.mp member with rfl | member
      · exact name_unique (distinct version List.mem_cons_self) isName isOther
      · rcases List.mem_map.mp (present next List.mem_cons_self) with ⟨⟨_, held⟩, isHeld, rfl⟩
        have same := agree _ name held isName isHeld
        rw [same] at isHeld
        exact ih (fun version member => distinct version (List.mem_cons_of_mem _ member)) chain
          (fun version member => present version (List.mem_cons_of_mem _ member)) isHeld version
          member other isOther

/-- Ids keep their meaning through a list of versions where they keep it from each version to
the next. -/
theorem steady_iff_isChain {naming : Version → List (ι × ν)} {versions : List Version}
    (distinct : ∀ version ∈ versions, ((naming version).map Prod.fst).Nodup) :
    Steady naming versions ↔
      versions.IsChain fun before after => Agrees (naming before) (naming after) := by
  constructor
  · intro steady
    apply (List.isChain_isInfix versions).imp
    intro before after isRun id name other isName isOther
    refine steady [before, after] isRun id ?_ before (by simp) after (by simp) name other isName
      isOther
    intro version member
    rcases List.mem_pair.mp member with rfl | rfl
    · exact List.mem_map_of_mem isName
    · exact List.mem_map_of_mem isOther
  · intro chain run isRun id present first isFirst last isLast name other isName isOther
    have among := isRun.subset
    cases run with
    | nil => contradiction
    | cons head rest =>
        rcases List.mem_map.mp (present head List.mem_cons_self) with ⟨⟨_, held⟩, isHeld, rfl⟩
        have along := List.IsChain.infix chain isRun
        have names := names_first (fun version member => distinct version (among member)) along
          (fun version member => present version (List.mem_cons_of_mem _ member)) isHeld
        rw [names first isFirst name isName, names last isLast other isOther]

end SipxClstr.Data
