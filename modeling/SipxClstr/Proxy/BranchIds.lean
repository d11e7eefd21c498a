import SipxClstr.Proxy.BranchFormat
import SipxClstr.Proxy.Groups

/-!
# One branch, one copy

A copy is numbered by the branches held when its group was forked and its place
in the group, and the number decides its branch.  A target that is skipped takes
a number without adding a branch, so a number above a gap comes up again in a
later group.
-/

namespace SipxClstr.Proxy

open SipxClstr.Sip ResponseContext Reactive Reactive.Machine

variable (K : Kernel)

/-- Whether a target of the group is skipped before one whose copy is built. -/
def skipsBeforeBuilt (config : ProxyConfig) (plans : List (ForwardPlan K.Uri)) : Bool :=
  (plans.dropWhile (builds K config)).any (builds K config)

/-- No group of which a copy is built is forked after one that skips a target
before a copy, and the numbers of the targets tried fit the branch. -/
structure LeavesNoGap (config : ProxyConfig) (inputs : List (Input K.Uri)) : Prop where
  inOrder : (forkedGroups K config inputs).Pairwise fun earlier later =>
    skipsBeforeBuilt K config earlier = true → later.any (builds K config) = false
  fits : (forkedGroups K config inputs).flatten.length ≤ u32Max + 1

instance (config : ProxyConfig) (inputs : List (Input K.Uri)) :
    Decidable (LeavesNoGap K config inputs) :=
  decidable_of_iff
    ((forkedGroups K config inputs).Pairwise (fun earlier later =>
        skipsBeforeBuilt K config earlier = true → later.any (builds K config) = false) ∧
      (forkedGroups K config inputs).flatten.length ≤ u32Max + 1)
    ⟨fun both => ⟨both.1, both.2⟩, fun noGap => ⟨noGap.inOrder, noGap.fits⟩⟩

/-- What the unique parts of the branches of the run are MACs over. -/
def mintedMessages (config : ProxyConfig) (inputs : List (Input K.Uri)) : List Bytes :=
  (forkedGroups K config inputs).flatten.map fun plan =>
    uniqueMessage plan.validated.cookieInput plan.index

/-- The branches forwarded are distinct, so an id names one copy. -/
structure NamesOneCopy (config : ProxyConfig) (inputs : List (Input K.Uri)) : Prop where
  distinct : (launches (emitted (onInput K) (.new config) inputs)).Nodup
  identified : ∀ branch, (after (onInput K) (.new config) inputs).knows branch = true →
    ∃! entry, entry ∈ (after (onInput K) (.new config) inputs).branches ∧ entry.id = branch

variable {K}

/-! ## The numbers of one group -/

/-- Numbers that count up from a base are distinct, wherever some are left out. -/
theorem nodup_index_filter {plans : List (ForwardPlan K.Uri)} {base : Nat}
    (numbered : plans.map ForwardPlan.index = List.range' base plans.length)
    (kept : ForwardPlan K.Uri → Bool) :
    ((plans.filter kept).map ForwardPlan.index).Nodup := by
  apply (List.filter_sublist.map ForwardPlan.index).nodup
  rw [numbered]
  exact List.nodup_range'

theorem index_bounds {plans : List (ForwardPlan K.Uri)} {base : Nat}
    (numbered : plans.map ForwardPlan.index = List.range' base plans.length)
    {plan : ForwardPlan K.Uri} (member : plan ∈ plans) :
    base ≤ plan.index ∧ plan.index < base + plans.length := by
  have listed : plan.index ∈ plans.map ForwardPlan.index := List.mem_map_of_mem member
  rwa [numbered, List.mem_range'_1] at listed

/-- Where no target is skipped before a copy, the copies are the first of the
group, so their numbers leave no gap. -/
theorem index_lt_of_no_skip {config : ProxyConfig} {plans : List (ForwardPlan K.Uri)} {base : Nat}
    (numbered : plans.map ForwardPlan.index = List.range' base plans.length)
    (noSkip : skipsBeforeBuilt K config plans = false) {plan : ForwardPlan K.Uri}
    (member : plan ∈ plans.filter (builds K config)) :
    plan.index < base + (plans.filter (builds K config)).length := by
  have leading : plans.filter (builds K config) = plans.takeWhile (builds K config) := by
    have tail : (plans.dropWhile (builds K config)).filter (builds K config) = [] := by
      simpa [List.filter_eq_nil_iff, skipsBeforeBuilt] using noSkip
    have head : (plans.takeWhile (builds K config)).filter (builds K config) =
        plans.takeWhile (builds K config) := by
      apply List.filter_eq_self.mpr
      intro plan taken
      exact List.mem_takeWhile_imp taken
    calc
      plans.filter (builds K config) =
          (plans.takeWhile (builds K config) ++ plans.dropWhile (builds K config)).filter
            (builds K config) := by rw [List.takeWhile_append_dropWhile]
      _ = plans.takeWhile (builds K config) := by
          rw [List.filter_append, head, tail, List.append_nil]
  have prefixed : plans.takeWhile (builds K config) <+: plans := List.takeWhile_prefix _
  have numbers : (plans.takeWhile (builds K config)).map ForwardPlan.index =
      List.range' base (plans.takeWhile (builds K config)).length := by
    have shortened := prefixed.map ForwardPlan.index
    rw [numbered, List.prefix_iff_eq_take, List.length_map,
      List.take_range'_of_length_ge prefixed.length_le] at shortened
    exact shortened
  rw [leading] at member ⊢
  exact (index_bounds numbers member).2

/-! ## The numbers of a run -/

/-- The copies built so far. -/
def builtPlans (config : ProxyConfig) (inputs : List (Input K.Uri)) : List (ForwardPlan K.Uri) :=
  (forkedGroups K config inputs).flatten.filter (builds K config)

theorem builtPlans_concat (config : ProxyConfig) (past : List (Input K.Uri)) (input : Input K.Uri) :
    builtPlans config (past ++ [input]) =
      builtPlans config past ++
        (plansOf K (after (onInput K) (.new config) past) input).filter (builds K config) := by
  simp [builtPlans, forkedGroups_concat]

/-- The copies of a run have distinct numbers, and until a group skips a target
before a copy the numbers are those below their count. -/
structure Numbered (config : ProxyConfig) (inputs : List (Input K.Uri)) : Prop where
  distinct : ((builtPlans config inputs).map ForwardPlan.index).Nodup
  compact : (∀ group ∈ forkedGroups K config inputs, skipsBeforeBuilt K config group = false) →
    ∀ plan ∈ builtPlans config inputs, plan.index < (builtPlans config inputs).length

theorem numbered_plansOf (config : ProxyConfig) (past : List (Input K.Uri)) (input : Input K.Uri) :
    (plansOf K (after (onInput K) (.new config) past) input).map ForwardPlan.index =
      List.range' (builtPlans config past).length
        (plansOf K (after (onInput K) (.new config) past) input).length := by
  rw [map_index_plansOf (coherent_after config past), length_branches_after]
  rfl

theorem Numbered.concat {config : ProxyConfig} {past : List (Input K.Uri)} {input : Input K.Uri}
    (numbered : Numbered config past)
    (inOrder : ∀ earlier ∈ forkedGroups K config past, skipsBeforeBuilt K config earlier = true →
      (plansOf K (after (onInput K) (.new config) past) input).any (builds K config) = false) :
    Numbered config (past ++ [input]) := by
  have counted := numbered_plansOf config past input
  constructor
  · rw [builtPlans_concat, List.map_append]
    by_cases gap : ∃ earlier ∈ forkedGroups K config past, skipsBeforeBuilt K config earlier = true
    · -- Nothing is built after a gap.
      obtain ⟨earlier, member, skips⟩ := gap
      have unbuilt : (plansOf K (after (onInput K) (.new config) past) input).filter
          (builds K config) = [] := by
        simpa [List.filter_eq_nil_iff] using inOrder earlier member skips
      rw [unbuilt, List.map_nil, List.append_nil]
      exact numbered.distinct
    · have noGap : ∀ group ∈ forkedGroups K config past,
          skipsBeforeBuilt K config group = false := by simpa using gap
      apply numbered.distinct.append (nodup_index_filter counted _)
      intro index earlier now
      obtain ⟨plan, member, rfl⟩ := List.mem_map.mp earlier
      obtain ⟨plan', member', sameIndex⟩ := List.mem_map.mp now
      have below := numbered.compact noGap plan member
      have above := (index_bounds counted (List.mem_of_mem_filter member')).1
      omega
  · intro noGap plan member
    rw [forkedGroups_concat] at noGap
    rw [builtPlans_concat] at member ⊢
    rw [List.length_append]
    rcases List.mem_append.mp member with earlier | now
    · have below := numbered.compact
        (fun group held => noGap group (List.mem_append_left _ held)) plan earlier
      omega
    · exact index_lt_of_no_skip counted (noGap _ (by simp)) now

theorem numbered_of_inOrder (config : ProxyConfig) (inputs : List (Input K.Uri))
    (inOrder : (forkedGroups K config inputs).Pairwise fun earlier later =>
      skipsBeforeBuilt K config earlier = true → later.any (builds K config) = false) :
    Numbered config inputs := by
  induction inputs using List.reverseRecOn with
  | nil => exact ⟨List.nodup_nil, fun _ plan member => absurd member List.not_mem_nil⟩
  | append_singleton past input ih =>
      rw [forkedGroups_concat, List.pairwise_append] at inOrder
      apply (ih inOrder.1).concat
      intro earlier member
      exact inOrder.2.2 earlier member _ (List.mem_singleton_self _)

/-- A target's number is below the count of the targets tried. -/
theorem index_lt_tried (config : ProxyConfig) (inputs : List (Input K.Uri)) :
    ∀ plan ∈ (forkedGroups K config inputs).flatten,
      plan.index < (forkedGroups K config inputs).flatten.length := by
  induction inputs using List.reverseRecOn with
  | nil => exact fun plan member => absurd member List.not_mem_nil
  | append_singleton past input ih =>
      intro plan member
      rw [forkedGroups_concat, List.flatten_concat] at member ⊢
      rw [List.length_append]
      rcases List.mem_append.mp member with earlier | now
      · exact Nat.lt_add_right _ (ih plan earlier)
      · have bound := (index_bounds (numbered_plansOf config past input) now).2
        have built : (builtPlans config past).length ≤
            (forkedGroups K config past).flatten.length := List.length_filter_le _ _
        omega

/-! ## Branches -/

/-- The branch of a copy is the one its number and its request name. -/
theorem branch_of_buildCopy {config : ProxyConfig} {plan : ForwardPlan K.Uri} {copy : Copy K.Uri}
    (built : buildCopy K config plan = some copy) :
    copy.branch = ⟨branchFor K config plan.validated.cookieInput plan.index⟩ := by
  unfold buildCopy at built
  split at built
  · contradiction
  · next branch request nextHop forwarded =>
      rw [← Option.some.inj built]
      exact forward_branch forwarded

theorem launches_eq_map (config : ProxyConfig) (inputs : List (Input K.Uri)) :
    launches (emitted (onInput K) (.new config) inputs) =
      (builtPlans config inputs).map fun plan =>
        ⟨branchFor K config plan.validated.cookieInput plan.index⟩ := by
  rw [← map_branch_copies, copies_emitted, builtPlans]
  induction (forkedGroups K config inputs).flatten with
  | nil => rfl
  | cons plan rest ih =>
      cases built : buildCopy K config plan with
      | none => simp [builds, built, ih]
      | some copy => simp [builds, built, ih, branch_of_buildCopy built]

/-- In a run that leaves no gap in the numbers of its copies no two copies share a
branch. -/
theorem namesOneCopy_of_leavesNoGap {config : ProxyConfig} {inputs : List (Input K.Uri)}
    (collisionFree : CollisionFree K config.cookieKey (mintedMessages K config inputs))
    (noGap : LeavesNoGap K config inputs) : NamesOneCopy K config inputs := by
  have distinct : (launches (emitted (onInput K) (.new config) inputs)).Nodup := by
    have numbered := numbered_of_inOrder config inputs noGap.inOrder
    have tried : ∀ plan ∈ builtPlans config inputs,
        plan ∈ (forkedGroups K config inputs).flatten ∧ plan.index ≤ u32Max := by
      intro plan member
      have listed := List.mem_of_mem_filter member
      have below := index_lt_tried config inputs plan listed
      have fits := noGap.fits
      exact ⟨listed, by omega⟩
    rw [launches_eq_map]
    apply List.Nodup.map_on _ numbered.distinct.of_map
    intro plan member plan' member' same
    have sameTag := tag_of_branchFor_eq (BranchId.mk.inj same)
    have sameMessage := collisionFree _ (List.mem_map_of_mem (tried plan member).1) _
      (List.mem_map_of_mem (tried plan' member').1) sameTag
    have sameIndex := uniqueMessage_index (tried plan member).2 (tried plan' member').2 sameMessage
    exact List.inj_on_of_nodup_map numbered.distinct member member' sameIndex
  constructor
  · exact distinct
  · intro branch known
    rw [knows_iff, List.mem_map] at known
    obtain ⟨entry, member, isBranch⟩ := known
    rw [← ids_after] at distinct
    refine ⟨entry, ⟨member, isBranch⟩, ?_⟩
    rintro other ⟨otherMember, otherBranch⟩
    exact List.inj_on_of_nodup_map distinct otherMember member (otherBranch.trans isBranch.symm)

/-- The first target of the first group does not parse, so the second takes number
one while one branch is held; the next group starts at one again. -/
theorem not_namesOneCopy_skipped_target :
    ¬ NamesOneCopy Reference.kernel edge
      [.upstream invite,
        .targetsResolved [phone "" 1000, phone "sip:bob@10.0.0.1" 1000,
          phone "sip:bob@10.0.0.2" 500],
        .branchResponse (reply ⟨486, by decide⟩ branchB) branchB] := by
  intro namesOne
  exact absurd namesOne.distinct (by decide +kernel)

/-- Skipping the last target of a group leaves no gap. -/
theorem namesOneCopy_skipped_last :
    NamesOneCopy Reference.kernel edge
      [.upstream invite,
        .targetsResolved [phone "sip:bob@10.0.0.1" 1000, phone "" 1000,
          phone "sip:bob@10.0.0.2" 500],
        .branchResponse (reply ⟨486, by decide⟩ branchA) branchA] :=
  namesOneCopy_of_leavesNoGap (by decide +kernel) (by decide +kernel)

end SipxClstr.Proxy
