import SipxClstr.Proxy.Branches
import SipxClstr.Proxy.Groups

/-!
# Branches in flight

While the branches of a request are tried, an input concludes a branch or leaves
every branch that owes a final owing it.  This file follows the copies forwarded
until their branch concludes, beside the states the context keeps.
-/

namespace SipxClstr.Proxy

open SipxClstr.Sip ResponseContext Reactive Reactive.Machine

variable (K : Kernel)

/-! ## What a run has in flight -/

/-- The branch this input concludes: by its final, its transport's failure, or
Timer C when it was never heard from. -/
def concludedBy (context : ResponseContext K.Uri) : Input K.Uri → Option BranchId
  | .branchResponse response branch =>
      if response.status.isProvisional then none else some branch
  | .branchTransportError branch => some branch
  | .timerFired .c (some branch) =>
      if context.sawProvisional branch = some false then some branch else none
  | _ => none

/-- The copies forwarded whose branch has not concluded since. -/
def inFlight (context : ResponseContext K.Uri) (inputs : List (Input K.Uri)) : List (Copy K.Uri) :=
  ledger (onInput K)
    (fun state input (copy : Copy K.Uri) => concludedBy K state input = some copy.branch)
    Effect.copy? [] context inputs

/-- What arrives while the branches of a request are tried, unless the call is
withdrawn or a branch accepts or rejects it for all. -/
def IsBranchEvent (request : Request K.Uri) : Input K.Uri → Prop
  | .branchResponse response _ =>
      ¬ (response.status.hundreds = 2 ∧ request.method = .invite) ∧ response.status.hundreds ≠ 6
  | .branchTransportError _ => True
  | .timerFired _ _ => True
  | .tokensMinted _ => True
  | _ => False

instance (request : Request K.Uri) : (input : Input K.Uri) → Decidable (IsBranchEvent K request input)
  | .branchResponse response _ => inferInstanceAs (Decidable
      (¬ (response.status.hundreds = 2 ∧ request.method = .invite) ∧ response.status.hundreds ≠ 6))
  | .branchTransportError _ | .timerFired _ _ | .tokensMinted _ => .isTrue trivial
  | .upstream _ | .targetsResolved _ | .targetsUnavailable | .tokenFact _ | .upstreamCancelled =>
      .isFalse id

variable {K}

/-! ## Branches that owe a final -/

section Live

variable {Uri : Type}

/-- Whether a branch of this id still owes a final. -/
def isLive (context : ResponseContext Uri) (branch : BranchId) : Prop :=
  ∃ entry ∈ context.branches, entry.id = branch ∧ entry.state.isOutstanding = true

theorem hasPending_iff {context : ResponseContext Uri} :
    context.hasPending = true ↔ ∃ branch, isLive context branch := by
  simp only [hasPending, List.any_eq_true, isLive]
  constructor
  · rintro ⟨entry, member, outstanding⟩
    exact ⟨entry.id, entry, member, rfl, outstanding⟩
  · rintro ⟨branch, entry, member, -, outstanding⟩
    exact ⟨entry, member, outstanding⟩

theorem isLive_updateBranch {context : ResponseContext Uri} {branch other : BranchId}
    {change : BranchState → BranchState} :
    isLive (context.updateBranch branch change) other ↔
      ∃ entry ∈ context.branches, entry.id = other ∧
        (if other = branch then change entry.state else entry.state).isOutstanding = true := by
  simp only [isLive, updateBranch, List.mem_map]
  constructor
  · rintro ⟨_, ⟨entry, member, rfl⟩, isOther, outstanding⟩
    by_cases isBranch : entry.id = branch
    · simp only [isBranch, if_true] at isOther outstanding
      refine ⟨entry, member, isBranch.trans isOther, ?_⟩
      rw [if_pos isOther.symm]
      exact outstanding
    · simp only [isBranch, if_false] at isOther outstanding
      refine ⟨entry, member, isOther, ?_⟩
      rw [if_neg fun same => isBranch (isOther.trans same)]
      exact outstanding
  · rintro ⟨entry, member, rfl, outstanding⟩
    refine ⟨_, ⟨entry, member, rfl⟩, ?_⟩
    split
    · next isBranch =>
        rw [if_pos isBranch] at outstanding
        exact ⟨rfl, outstanding⟩
    · next notBranch =>
        rw [if_neg notBranch] at outstanding
        exact ⟨rfl, outstanding⟩

/-- Concluding a branch ends it and no other. -/
theorem isLive_concludeBranch {context : ResponseContext Uri} {branch other : BranchId}
    {status : Nat} :
    isLive (context.concludeBranch branch status) other ↔
      isLive context other ∧ other ≠ branch := by
  rw [concludeBranch, isLive_updateBranch]
  by_cases isBranch : other = branch
  · simp [isBranch, BranchState.isOutstanding]
  · simp [isBranch, isLive]

/-- A change that neither ends nor starts anything leaves every branch as it was. -/
theorem isLive_updateBranch_of_same {context : ResponseContext Uri} {branch other : BranchId}
    {change : BranchState → BranchState}
    (same : ∀ state : BranchState, (change state).isOutstanding = state.isOutstanding) :
    isLive (context.updateBranch branch change) other ↔ isLive context other := by
  rw [isLive_updateBranch]
  by_cases isBranch : other = branch
  · simp [isBranch, same, isLive]
  · simp [isBranch, isLive]

/-- A branch that owes a final goes on owing it when it is cancelled or heard from. -/
theorem isLive_updateBranch_of_live {context : ResponseContext Uri} {branch other : BranchId}
    {change : BranchState → BranchState} (live : isLive context branch)
    (outstanding : ∀ state : BranchState, state.isOutstanding = true →
      (change state).isOutstanding = true) :
    isLive (context.updateBranch branch change) other ↔ isLive context other := by
  rw [isLive_updateBranch]
  by_cases isBranch : other = branch
  · subst isBranch
    simp only [if_true]
    obtain ⟨entry, member, isOther, owes⟩ := live
    constructor
    · intro _
      exact ⟨entry, member, isOther, owes⟩
    · intro _
      exact ⟨entry, member, isOther, outstanding _ owes⟩
  · simp [isBranch, isLive]

theorem isLive_of_sawProvisional {context : ResponseContext Uri} {branch : BranchId} {saw : Bool}
    (pending : context.sawProvisional branch = some saw) : isLive context branch := by
  obtain ⟨entry, member, isBranch, owed, state⟩ := knows_of_sawProvisional pending
  refine ⟨entry, member, isBranch, ?_⟩
  rw [state]
  rfl

/-- A CANCEL is owed to a pending branch only. -/
theorem isLive_of_cancelOwed {context : ResponseContext Uri} {branch : BranchId}
    (owed : context.cancelOwed branch = true) : isLive context branch := by
  have visited : context.cancelOwed branch =
      context.branches.foldl (fun release entry =>
        if entry.id = branch then entry.state.owesAfter release else release) false := by
    unfold cancelOwed
    congr
    funext release entry
    split
    · cases entry.state <;> rfl
    · rfl
  have general : ∀ (branches : List Branch) (release : Bool),
      branches.foldl (fun release entry =>
        if entry.id = branch then entry.state.owesAfter release else release) release = true →
        release = true ∨ ∃ entry ∈ branches, entry.id = branch ∧ entry.state.isOutstanding = true := by
    intro branches
    induction branches with
    | nil => exact fun _ released => .inl released
    | cons entry rest ih =>
        intro release folded
        rcases ih _ folded with released | ⟨later, member, isBranch, outstanding⟩
        · by_cases isBranch : entry.id = branch
          · cases state : entry.state with
            | pending saw queued =>
                exact .inr ⟨entry, List.mem_cons_self, isBranch, by rw [state]; rfl⟩
            | concluded status => exact .inl (by simpa [isBranch, state, BranchState.owesAfter] using released)
            | cancelling => exact .inl (by simpa [isBranch, state, BranchState.owesAfter] using released)
          · simp only [isBranch, if_false] at released
            exact .inl released
        · exact .inr ⟨later, List.mem_cons_of_mem _ member, isBranch, outstanding⟩
  rw [visited] at owed
  rcases general context.branches false owed with impossible | live
  · contradiction
  · exact live

end Live

/-! ## Steps while branches are tried -/

/-- A step that leaves the schedule as it is: it concludes no branch that owes a
final, and forwards nothing. -/
structure Idles (context : ResponseContext K.Uri) (input : Input K.Uri) (outcome : Outcome K.Uri) :
    Prop where
  config : outcome.1.config = context.config
  request : outcome.1.request = context.request
  validated : outcome.1.validated = context.validated
  queued : outcome.1.queued = context.queued
  finals : outcome.1.finals = context.finals
  answered : outcome.1.answered = context.answered
  finished : outcome.1.finished = context.finished
  live : ∀ branch, isLive outcome.1 branch ↔ isLive context branch
  unknown : ∀ branch, concludedBy K context input = some branch → context.knows branch = false
  forwards : copies outcome.2 = []
  unplanned : plansOf K context input = []

theorem not_isLive_of_unknown {Uri : Type} {context : ResponseContext Uri} {branch : BranchId}
    (unknown : context.knows branch = false) : ¬ isLive context branch := by
  rintro ⟨entry, member, isBranch, -⟩
  have known := knows_iff.mpr (List.mem_map.mpr ⟨entry, member, isBranch⟩)
  rw [unknown] at known
  contradiction

/-- A step that idles concludes no branch that owes a final. -/
theorem Idles.concludes {context : ResponseContext K.Uri} {input : Input K.Uri}
    {outcome : Outcome K.Uri} (idles : Idles context input outcome) {branch : BranchId}
    (concluded : concludedBy K context input = some branch) : ¬ isLive context branch :=
  not_isLive_of_unknown (idles.unknown branch concluded)

/-- A conclusion is absorbed only when its branch is not known. -/
theorem concludedBy_of_absorbs {context : ResponseContext K.Uri} {input : Input K.Uri}
    (absorbs : Absorbs K context input) :
    ∀ branch, concludedBy K context input = some branch → context.knows branch = false := by
  intro branch concluded
  cases input with
  | branchResponse response target =>
      simp only [concludedBy] at concluded
      split at concluded
      · contradiction
      · next final =>
          rw [← Option.some.inj concluded]
          rcases absorbs.2 with unknown | trying
          · exact unknown
          · exact absurd (response.status.isProvisional_iff.mpr (by omega)) final
  | branchTransportError target =>
      rw [← Option.some.inj concluded]
      exact absorbs.2
  | timerFired timer target =>
      cases timer
      cases target with
      | none => contradiction
      | some target =>
          have silent : context.sawProvisional target = none := absorbs
          simp [concludedBy, silent] at concluded
  | _ => contradiction

/-- A provisional changes the state of its branch and leaves it owing a final. -/
theorem isLive_forwardProvisional {context : ResponseContext K.Uri} {request : Request K.Uri}
    {response : Response} {branch other : BranchId} :
    isLive (forwardProvisional K context request response branch).1 other ↔
      isLive context other := by
  have marks : ∀ {other}, isLive (context.markProvisional branch).1 other ↔
      isLive context other := by
    intro other
    apply isLive_updateBranch_of_same
    intro state
    cases state <;> rfl
  rw [forwardProvisional_fst]
  split
  · next owed =>
      rw [setCancelling, isLive_updateBranch_of_live (marks.mpr (isLive_of_cancelOwed owed))
        fun _ _ => rfl]
      exact marks
  · exact marks

/-- A branch event records a final and goes on with selection, or leaves the
schedule as it is. -/
theorem branchEvent_cases {context : ResponseContext K.Uri} (coherent : Coherent context)
    (unfinished : context.finished = false) {request : Request K.Uri}
    (requestEq : context.request = some request) {input : Input K.Uri}
    (event : IsBranchEvent K request input) :
    (∃ branch recorded, Records K context request input branch recorded ∧
        concludedBy K context input = some branch ∧
          onInput K context input = continueSelection K recorded request) ∨
      Idles context input (onInput K context input) := by
  cases onInput_course coherent input with
  | ended finished =>
      rw [unfinished] at finished
      contradiction
  | takes _ takes _ _ =>
      cases takes with
      | predetermined determines _ => cases determines <;> contradiction
      | resolved _ _ _ _ => contradiction
  | @records request' branch recorded _ _ requestEq' records _ continues =>
      rw [requestEq] at requestEq'
      obtain rfl := Option.some.inj requestEq'
      refine .inl ⟨branch, recorded, records, ?_, continues⟩
      cases records with
      | received response _ _ final _ _ _ => simp [concludedBy, final]
      | unavailable response _ _ failed =>
          simp [concludedBy, StatusCode.isProvisional, StatusCode.hundreds, failed]
      | failed _ _ => rfl
      | silent _ silent => simp [concludedBy, silent]
  | stands _ untargeted unrecorded =>
      right
      have step := onInput_step coherent unfinished input
      have forwards := step.copies_of_unforked untargeted unrecorded
      have unplanned := plansOf_of_stands untargeted unrecorded
      generalize onInput K context input = outcome at step forwards ⊢
      cases step with
      | absorbed absorbs =>
          exact ⟨rfl, rfl, rfl, rfl, rfl, rfl, rfl, fun _ => Iff.rfl,
            concludedBy_of_absorbs absorbs, rfl, unplanned⟩
      | premature _ absent =>
          rw [requestEq] at absent
          contradiction
      | minted _ =>
          exact ⟨rfl, rfl, rfl, rfl, rfl, rfl, rfl, fun _ => Iff.rfl,
            fun _ concluded => by contradiction, rfl, unplanned⟩
      | refused _ _ _ => contradiction
      | held _ _ _ _ _ => contradiction
      | asked determines _ => cases determines <;> contradiction
      | taken takes _ =>
          rw [takes.targetedBy_eq] at untargeted
          contradiction
      | concluded _ concludes => cases concludes <;> contradiction
      | provisional response branch request' _ _ _ isProvisional =>
          have same := sameButBranches_forwardProvisional context request' response branch
          exact ⟨same.config, same.request, same.validated, same.queued, same.finals,
            same.answered, same.finished, fun _ => isLive_forwardProvisional,
            fun _ concluded => by simp [concludedBy, isProvisional] at concluded, forwards,
            unplanned⟩
      | accepted _ _ request' requestEq' _ success isInvite =>
          rw [requestEq] at requestEq'
          rw [← Option.some.inj requestEq'] at isInvite
          exact absurd ⟨success, isInvite⟩ event.1
      | rejected _ _ _ _ _ global => exact absurd global event.2
      | recorded requestEq' records _ =>
          have none_recorded := unrecorded _ requestEq'
          rw [records.recordedBy_eq] at none_recorded
          contradiction
      | stopped branch stuck =>
          refine ⟨rfl, rfl, rfl, rfl, rfl, rfl, rfl, fun other => ?_, fun _ concluded => ?_, rfl,
            unplanned⟩
          · exact isLive_updateBranch_of_live (isLive_of_sawProvisional stuck) fun _ _ => rfl
          · simp [concludedBy, stuck] at concluded
      | withdrawn => contradiction

/-! ## Forking a settled context -/

/-- What forking does to the schedule of a context with nothing outstanding. -/
structure Forks (forking : ResponseContext K.Uri) (request : Request K.Uri)
    (validated : Validated) (outcome : Outcome K.Uri) : Prop where
  requestEq : outcome.1.request = some request
  validatedEq : outcome.1.validated = some validated
  queued : outcome.1.queued =
    forking.queued.drop (groupSize forking.queued validated.maxBreadth)
  forwards : copies outcome.2 =
    (groupPlans K forking request validated).filterMap (buildCopy K forking.config)
  live : ∀ branch, isLive outcome.1 branch ↔ ∃ copy ∈ copies outcome.2, copy.branch = branch
  unanswered : outcome.1.finished = false → outcome.1.answered = false
  ended : outcome.1.finished = true → outcome.1.queued = [] ∧ copies outcome.2 = []

theorem forkNextGroup_forks {forking : ResponseContext K.Uri} {request : Request K.Uri}
    {validated : Validated} (requestEq : forking.request = some request)
    (validatedEq : forking.validated = some validated) (queued : forking.queued ≠ [])
    (settled : forking.hasPending = false) (unfinished : forking.finished = false)
    (unanswered : forking.answered = false) :
    Forks forking request validated (forkNextGroup K forking) := by
  have forwards := copies_forkNextGroup requestEq validatedEq queued
  have noLive : ∀ branch, ¬ isLive forking branch := by
    intro branch live
    have pending := hasPending_iff.mpr ⟨branch, live⟩
    rw [settled] at pending
    contradiction
  rcases forkNextGroup_cases requestEq validatedEq queued with
    ⟨noBranches, noTargets, answered⟩ | ⟨_, forked⟩
  · have noCopies : copies (forkNextGroup K forking).2 = [] := by
      rw [answered, copies_eq_nil_iff]
      exact launches_respondAndFinish _ _ _ _
    have after : (forkNextGroup K forking).1 =
        { forkedContext K forking request validated with answered := true, finished := true } := by
      rw [answered, respondAndFinish_fst]
    constructor
    · rw [after]
      exact requestEq
    · rw [after]
      exact validatedEq
    · rw [after]
      rfl
    · exact forwards
    · intro branch
      rw [after, noCopies]
      constructor
      · rintro ⟨entry, member, -⟩
        rw [noBranches] at member
        contradiction
      · rintro ⟨copy, member, -⟩
        contradiction
    · rw [after]
      exact fun open_ => absurd open_ (by simp)
    · rw [after]
      exact fun _ => ⟨noTargets, noCopies⟩
  · constructor
    · rw [forked]
      exact requestEq
    · rw [forked]
      exact validatedEq
    · rw [forked]
      rfl
    · exact forwards
    · intro branch
      have ids : launches (launchGroup K forking request validated).1 =
          (launchGroup K forking request validated).2.map Branch.id := (launch_effects _ _ _ _).2.2.1
      rw [forked]
      constructor
      · rintro ⟨entry, member, rfl, outstanding⟩
        rcases List.mem_append.mp member with old | new
        · exact absurd ⟨entry, old, rfl, outstanding⟩ (noLive entry.id)
        · have launched : entry.id ∈ launches (launchGroup K forking request validated).1 := by
            rw [ids]
            exact List.mem_map_of_mem new
          rwa [← map_branch_copies, List.mem_map] at launched
      · rintro ⟨copy, member, rfl⟩
        have launched : copy.branch ∈ launches (launchGroup K forking request validated).1 := by
          rw [← map_branch_copies]
          exact List.mem_map_of_mem member
        rw [ids, List.mem_map] at launched
        obtain ⟨entry, entryMember, isBranch⟩ := launched
        refine ⟨entry, List.mem_append_right _ entryMember, isBranch, ?_⟩
        rw [launch_pending _ _ _ _ entry entryMember]
        rfl
    · rw [forked]
      exact fun _ => unanswered
    · rw [forked]
      intro finished
      have open_ : (forkedContext K forking request validated).finished = false := unfinished
      rw [open_] at finished
      contradiction

/-! ## What stays in flight -/

section Remaining

variable {flying : List (Copy K.Uri)} {state : ResponseContext K.Uri}

/-- What a step closes of what is in flight. -/
def remaining (state : ResponseContext K.Uri) (input : Input K.Uri) (flying : List (Copy K.Uri)) :
    List (Copy K.Uri) :=
  flying.filter fun copy => !decide (concludedBy K state input = some copy.branch)

theorem mem_remaining {input : Input K.Uri} {copy : Copy K.Uri} :
    copy ∈ remaining state input flying ↔
      copy ∈ flying ∧ concludedBy K state input ≠ some copy.branch := by
  simp [remaining]

theorem inFlight_concat (context : ResponseContext K.Uri) (inputs : List (Input K.Uri))
    (input : Input K.Uri) :
    inFlight K context (inputs ++ [input]) =
      remaining (after (onInput K) context inputs) input (inFlight K context inputs) ++
        copies (onInput K (after (onInput K) context inputs) input).2 :=
  ledger_concat (onInput K) _ _ [] context inputs input

/-- A step that idles lands nothing. -/
theorem remaining_of_idles
    (live : ∀ branch, isLive state branch ↔ ∃ copy ∈ flying, copy.branch = branch)
    {input : Input K.Uri} {outcome : Outcome K.Uri} (idles : Idles state input outcome) :
    remaining state input flying = flying := by
  apply List.filter_eq_self.mpr
  intro copy member
  have owes := (live copy.branch).mpr ⟨copy, member, rfl⟩
  have unconcluded : concludedBy K state input ≠ some copy.branch :=
    fun concluded => idles.concludes concluded owes
  simpa using unconcluded

/-- Recording a final ends its branch and no other. -/
theorem isLive_of_records
    (live : ∀ branch, isLive state branch ↔ ∃ copy ∈ flying, copy.branch = branch)
    {request : Request K.Uri} {input : Input K.Uri} {branch : BranchId}
    {recorded : ResponseContext K.Uri} (records : Records K state request input branch recorded)
    (concludes : concludedBy K state input = some branch) (other : BranchId) :
    isLive recorded other ↔ ∃ copy ∈ remaining state input flying, copy.branch = other := by
  obtain ⟨status, final, recordedEq⟩ := records.frame
  have ends : isLive recorded other ↔ isLive state other ∧ other ≠ branch := by
    rw [recordedEq]
    exact isLive_concludeBranch
  rw [ends, live]
  constructor
  · rintro ⟨⟨copy, member, rfl⟩, notBranch⟩
    refine ⟨copy, mem_remaining.mpr ⟨member, ?_⟩, rfl⟩
    rw [concludes]
    exact fun same => notBranch (Option.some.inj same).symm
  · rintro ⟨copy, member, rfl⟩
    obtain ⟨flew, unconcluded⟩ := mem_remaining.mp member
    refine ⟨⟨copy, flew, rfl⟩, fun same => unconcluded ?_⟩
    rw [concludes, same]

/-- With nothing outstanding nothing is in flight. -/
theorem landed_of_settled
    (live : ∀ branch, isLive state branch ↔ ∃ copy ∈ flying, copy.branch = branch)
    (settled : state.hasPending = false) : flying = [] := by
  apply List.eq_nil_iff_forall_not_mem.mpr
  intro copy member
  have pending := hasPending_iff.mpr ⟨copy.branch, (live _).mpr ⟨copy, member, rfl⟩⟩
  rw [settled] at pending
  contradiction

end Remaining

end SipxClstr.Proxy
