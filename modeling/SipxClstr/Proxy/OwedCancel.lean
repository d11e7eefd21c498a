import SipxClstr.Proxy.Branches

/-!
# CANCELs that are owed

A CANCEL that cannot go out when the caller withdraws is queued on the branch
until the branch is heard from.  It is not lost: a branch that is heard from,
before the withdrawal or after it, is cancelled by the later of the two.  A `100`
is absorbed before it reaches the branch, and does not count.
-/

namespace SipxClstr.Proxy

open SipxClstr.Sip ResponseContext Reactive Reactive.Machine

variable (K : Kernel)

/-- The inputs that conclude a branch: its final response, its transport's
failure, and Timer C when it was never heard from. -/
def Ends (context : ResponseContext K.Uri) (branch : BranchId) : Input K.Uri → Prop
  | .branchResponse response source =>
      source = branch ∧ response.status.isProvisional = false
  | .branchTransportError source => source = branch
  | .timerFired .c source => source = some branch ∧ context.sawProvisional branch = some false
  | _ => False

/-- The branch has concluded, after its copy was forwarded. -/
def HasConcluded (config : ProxyConfig) (branch : BranchId) (inputs : List (Input K.Uri)) : Prop :=
  Happened (fun past input => branch ∈ launches (emitted (onInput K) (.new config) past) ∧
    Ends K (after (onInput K) (.new config) past) branch input) inputs

/-- The branch was forwarded and has not concluded, and its context is not over. -/
structure IsLive (config : ProxyConfig) (branch : BranchId) (past : List (Input K.Uri)) : Prop where
  launched : branch ∈ launches (emitted (onInput K) (.new config) past)
  notConcluded : ¬ HasConcluded K config branch past
  unfinished : (after (onInput K) (.new config) past).finished = false

/-- The caller withdrew while the branch was live. -/
def WithdrawnLive (config : ProxyConfig) (branch : BranchId) (inputs : List (Input K.Uri)) : Prop :=
  Happened (fun past input => input = .upstreamCancelled ∧ IsLive K config branch past) inputs

/-- A response with such a status was received on the branch while it was live. -/
def HeardLive (counts : StatusCode → Prop) (config : ProxyConfig) (branch : BranchId)
    (inputs : List (Input K.Uri)) : Prop :=
  Happened (fun past input => ∃ response, input = .branchResponse response branch ∧
    counts response.status ∧ IsLive K config branch past) inputs

/-- Once the caller has withdrawn and the branch has been heard from, the branch
has been cancelled. -/
def CancelReaches (counts : StatusCode → Prop) (config : ProxyConfig)
    (inputs : List (Input K.Uri)) (branch : BranchId) : Prop :=
  WithdrawnLive K config branch inputs → HeardLive K counts config branch inputs →
    branch ∈ cancels (emitted (onInput K) (.new config) inputs)

/-- At this step the branch, if it is pending, is not forwarded again. -/
def NotAgain (branch : BranchId) (context : ResponseContext K.Uri) (input : Input K.Uri) : Prop :=
  branch ∈ context.pendingBranchIds → branch ∉ launches (onInput K context input).2

instance (branch : BranchId) (context : ResponseContext K.Uri) (input : Input K.Uri) :
    Decidable (NotAgain K branch context input) :=
  inferInstanceAs (Decidable (_ → _))

/-- A provisional status that is not absorbed. -/
def IsForwardedProvisional (status : StatusCode) : Prop :=
  status.isProvisional = true ∧ status.code ≠ 100

variable {K} {config : ProxyConfig} {branch : BranchId}

/-! ## Events -/

/-- What happened to a live branch happened after it was forwarded. -/
theorem launched_of_happened {event : List (Input K.Uri) → Input K.Uri → Prop}
    (live : ∀ past input, event past input →
      branch ∈ launches (emitted (onInput K) (.new config) past))
    {inputs : List (Input K.Uri)} (happened : Happened event inputs) :
    branch ∈ launches (emitted (onInput K) (.new config) inputs) := by
  obtain ⟨past, input, future, rfl, event⟩ := happened
  rw [emitted_append, launches_append]
  exact List.mem_append_left _ (live past input event)

/-- A step that finds the branch no longer live adds neither event. -/
theorem events_of_not_live (counts : StatusCode → Prop) {past : List (Input K.Uri)}
    (input : Input K.Uri) (gone : ¬ IsLive K config branch past) :
    (WithdrawnLive K config branch (past ++ [input]) → WithdrawnLive K config branch past) ∧
      (HeardLive K counts config branch (past ++ [input]) →
        HeardLive K counts config branch past) := by
  constructor
  · intro withdrawn
    rcases happened_concat_iff.mp withdrawn with earlier | ⟨_, live⟩
    · exact earlier
    · exact absurd live gone
  · intro heard
    rcases happened_concat_iff.mp heard with earlier | ⟨_, _, _, live⟩
    · exact earlier
    · exact absurd live gone

/-- Any input but a CANCEL adds no withdrawal. -/
theorem withdrawnLive_of_concat {past : List (Input K.Uri)} {input : Input K.Uri}
    (other : input ≠ .upstreamCancelled)
    (withdrawn : WithdrawnLive K config branch (past ++ [input])) :
    WithdrawnLive K config branch past := by
  rcases happened_concat_iff.mp withdrawn with earlier | ⟨now, _⟩
  · exact earlier
  · exact absurd now other

/-- Any input but a provisional of the branch adds no sign of it. -/
theorem heardLive_of_concat {counts : StatusCode → Prop} {past : List (Input K.Uri)}
    {input : Input K.Uri}
    (other : ∀ response, input = .branchResponse response branch → ¬ counts response.status)
    (heard : HeardLive K counts config branch (past ++ [input])) :
    HeardLive K counts config branch past := by
  rcases happened_concat_iff.mp heard with earlier | ⟨response, now, counted, _⟩
  · exact earlier
  · exact absurd counted (other response now)

/-! ## Tracking one branch -/

/-- Where a branch that was forwarded stands: it has been cancelled, it concluded
before it was both withdrawn and heard from, or it is pending and its state
remembers which of the two has happened. -/
def Tracked (K : Kernel) (config : ProxyConfig) (branch : BranchId)
    (past : List (Input K.Uri)) : Prop :=
  branch ∈ cancels (emitted (onInput K) (.new config) past) ∨
    (HasConcluded K config branch past ∧ ¬ (WithdrawnLive K config branch past ∧
      HeardLive K IsForwardedProvisional config branch past)) ∨
    ∃ saw owed, InState (after (onInput K) (.new config) past).branches branch (.pending saw owed) ∧
      (WithdrawnLive K config branch past → owed = true ∧ saw = false) ∧
        (HeardLive K IsForwardedProvisional config branch past → saw = true)

/-- A branch that stands so has been cancelled if it was withdrawn and heard
from. -/
theorem Tracked.cancelled {past : List (Input K.Uri)} (tracked : Tracked K config branch past)
    (withdrawn : WithdrawnLive K config branch past)
    (heard : HeardLive K IsForwardedProvisional config branch past) :
    branch ∈ cancels (emitted (onInput K) (.new config) past) := by
  rcases tracked with cancelled | ⟨_, notBoth⟩ | ⟨saw, owed, _, ifWithdrawn, ifHeard⟩
  · exact cancelled
  · exact absurd ⟨withdrawn, heard⟩ notBoth
  · have silent := (ifWithdrawn withdrawn).2
    rw [ifHeard heard] at silent
    contradiction

/-- A branch just forwarded is pending, and nothing has happened to it. -/
theorem tracked_of_launched {past : List (Input K.Uri)} {input : Input K.Uri}
    (before : branch ∉ launches (emitted (onInput K) (.new config) past))
    (launched : branch ∈ launches (onInput K (after (onInput K) (.new config) past) input).2) :
    Tracked K config branch (past ++ [input]) := by
  have gone : ¬ IsLive K config branch past := fun live => before live.launched
  obtain ⟨notWithdrawn, notHeard⟩ := events_of_not_live IsForwardedProvisional input gone
  refine .inr (.inr ⟨false, false, ?_, fun withdrawn => ?_, fun heard => ?_⟩)
  · have coherent := coherent_after config past
    rw [← ids_after] at before
    rw [after_concat]
    cases finished : (after (onInput K) (.new config) past).finished with
    | true =>
        rw [onInput_finished finished] at launched
        contradiction
    | false =>
        obtain ⟨updated, fresh, moves⟩ := (onInput_step coherent finished input).branchesMove coherent
        rw [← moves.ids] at before
        rw [moves.launches] at launched
        obtain ⟨entry, member, isBranch⟩ := List.mem_map.mp launched
        rw [moves.branches]
        refine ⟨⟨entry, List.mem_append_right _ member, isBranch⟩, fun other held sameId => ?_⟩
        rcases List.mem_append.mp held with old | new
        · exact absurd (List.mem_map.mpr ⟨other, old, sameId⟩) before
        · exact moves.fresh other new
  · exact absurd (launched_of_happened (fun _ _ event => event.2.launched)
      (notWithdrawn withdrawn)) before
  · exact absurd (launched_of_happened (fun _ _ ⟨_, _, _, live⟩ => live.launched)
      (notHeard heard)) before

theorem ends_of_settles {context : ResponseContext K.Uri} {state : BranchState}
    {input : Input K.Uri} (inState : InState context.branches branch state)
    (settles : Settles branch state input) : Ends K context branch input := by
  cases settles with
  | final response isFinal => exact ⟨rfl, isFinal⟩
  | failed => rfl
  | silent owed stateEq => exact ⟨rfl, inState.sawProvisional_eq_some_iff.mpr ⟨owed, stateEq⟩⟩

/-- One step of a pending branch that is not forwarded again. -/
theorem tracked_of_pending {past : List (Input K.Uri)} {input : Input K.Uri} {saw owed : Bool}
    (launched : branch ∈ launches (emitted (onInput K) (.new config) past))
    (notAgain : branch ∉ launches (onInput K (after (onInput K) (.new config) past) input).2)
    (unfinished : (after (onInput K) (.new config) past).finished = false)
    (inState : InState (after (onInput K) (.new config) past).branches branch (.pending saw owed))
    (ifWithdrawn : WithdrawnLive K config branch past → owed = true ∧ saw = false)
    (ifHeard : HeardLive K IsForwardedProvisional config branch past → saw = true) :
    Tracked K config branch (past ++ [input]) := by
  have coherent := coherent_after config past
  obtain ⟨updated, fresh, moves⟩ := (onInput_step coherent unfinished input).branchesMove coherent
  obtain ⟨next, nextState, move⟩ := moves.moves branch _ inState
  have stateAfter := moves.inState nextState notAgain
  rw [← after_concat] at stateAfter
  have cancelledNow : branch ∈ cancels (onInput K (after (onInput K) (.new config) past) input).2 →
      Tracked K config branch (past ++ [input]) := by
    intro cancelled
    left
    rw [emitted_concat, cancels_append]
    exact List.mem_append_right _ cancelled
  cases move with
  | stays _ passes _ =>
      obtain ⟨notCancel, trying⟩ := passes rfl
      refine .inr (.inr ⟨saw, owed, stateAfter, fun withdrawn => ?_, fun heard => ?_⟩)
      · exact ifWithdrawn (withdrawnLive_of_concat notCancel withdrawn)
      · exact ifHeard (heardLive_of_concat
          (fun response inputEq counted => counted.2 (trying response inputEq)) heard)
  | heard response _ inputEq _ _ _ =>
      refine .inr (.inr ⟨true, false, stateAfter, fun withdrawn => ?_, fun _ => rfl⟩)
      have before := withdrawnLive_of_concat (by simp [inputEq]) withdrawn
      exact absurd (ifWithdrawn before).1 Bool.false_ne_true
  | released _ _ _ _ _ cancelled => exact cancelledNow cancelled
  | concluded _ status settles _ =>
      have ends := ends_of_settles inState settles
      refine .inr (.inl ⟨happened_concat_iff.mpr (.inr ⟨launched, ends⟩), ?_⟩)
      rintro ⟨withdrawn, heard⟩
      have before := withdrawnLive_of_concat (by rintro rfl; exact ends) withdrawn
      have sign := heardLive_of_concat (fun response inputEq counted => by
        subst inputEq
        rw [IsForwardedProvisional, ends.2] at counted
        exact absurd counted.1 Bool.false_ne_true) heard
      have silent := (ifWithdrawn before).2
      rw [ifHeard sign] at silent
      contradiction
  | stopped _ _ cancelled => exact cancelledNow cancelled
  | withdrawn _ _ cancelled => exact cancelledNow cancelled
  | queued _ inputEq _ =>
      refine .inr (.inr ⟨false, true, stateAfter, fun _ => ⟨rfl, rfl⟩, fun heard => ?_⟩)
      exact ifHeard (heardLive_of_concat (by simp [inputEq]) heard)
  | overtaken _ _ _ _ _ _ _ _ cancelled => exact cancelledNow cancelled
  | dropped _ _ _ _ _ _ _ cancelled => exact cancelledNow cancelled

/-- One step of a branch that is not forwarded again while it is pending. -/
theorem Tracked.concat {past : List (Input K.Uri)} {input : Input K.Uri}
    (tracked : Tracked K config branch past)
    (launched : branch ∈ launches (emitted (onInput K) (.new config) past))
    (notAgain : NotAgain K branch (after (onInput K) (.new config) past) input) :
    Tracked K config branch (past ++ [input]) := by
  rcases tracked with cancelled | ⟨concluded, notBoth⟩ | ⟨saw, owed, inState, ifWithdrawn, ifHeard⟩
  · left
    rw [emitted_concat, cancels_append]
    exact List.mem_append_left _ cancelled
  · have gone : ¬ IsLive K config branch past := fun live => live.notConcluded concluded
    obtain ⟨notWithdrawn, notHeard⟩ := events_of_not_live IsForwardedProvisional input gone
    exact .inr (.inl ⟨happened_concat_iff.mpr (.inl concluded),
      fun both => notBoth ⟨notWithdrawn both.1, notHeard both.2⟩⟩)
  · cases finished : (after (onInput K) (.new config) past).finished with
    | true =>
        have gone : ¬ IsLive K config branch past := fun live => by
          have unfinished := live.unfinished
          rw [finished] at unfinished
          contradiction
        obtain ⟨notWithdrawn, notHeard⟩ := events_of_not_live IsForwardedProvisional input gone
        refine .inr (.inr ⟨saw, owed, ?_, fun withdrawn => ifWithdrawn (notWithdrawn withdrawn),
          fun heard => ifHeard (notHeard heard)⟩)
        rw [after_concat, onInput_finished finished]
        exact inState
    | false =>
        have pending := inState.mem_pendingBranchIds_iff.mpr rfl
        exact tracked_of_pending launched (notAgain pending) finished inState ifWithdrawn ifHeard

/-! ## Every run -/

theorem tracked_of_notAgain {inputs : List (Input K.Uri)}
    (notAgain : Along (onInput K) (NotAgain K branch) (.new config) inputs)
    (launched : branch ∈ launches (emitted (onInput K) (.new config) inputs)) :
    Tracked K config branch inputs := by
  refine (onInput K).history_induction
    (fun past => branch ∈ launches (emitted (onInput K) (.new config) past) →
      Tracked K config branch past)
    (fun launched => by contradiction) (fun past input earlier condition launched => ?_)
    notAgain launched
  by_cases before : branch ∈ launches (emitted (onInput K) (.new config) past)
  · exact (earlier before).concat before condition
  · rw [emitted_concat, launches_append, List.mem_append] at launched
    exact tracked_of_launched before (launched.resolve_left before)

/-- No CANCEL is lost: a branch that is live when the caller withdraws, and from
which a provisional other than a `100` is received while it is live, has been
cancelled by the later of the two. -/
theorem cancelReaches_of_notAgain (config : ProxyConfig) (inputs : List (Input K.Uri))
    (branch : BranchId) (notAgain : Along (onInput K) (NotAgain K branch) (.new config) inputs) :
    CancelReaches K IsForwardedProvisional config inputs branch := by
  intro withdrawn heard
  have launched := launched_of_happened (fun _ _ event => event.2.launched) withdrawn
  exact (tracked_of_notAgain notAgain launched).cancelled withdrawn heard

/-- A branch that was forwarded, and that no input could conclude, is live as long
as its context is not over. -/
theorem isLive_of_inputs {past : List (Input K.Uri)}
    (launched : branch ∈ launches (emitted (onInput K) (.new config) past))
    (unfinished : (after (onInput K) (.new config) past).finished = false)
    (harmless : ∀ input ∈ past, ∀ context, ¬ Ends K context branch input) :
    IsLive K config branch past where
  launched := launched
  notConcluded concluded := by
    obtain ⟨input, member, earlier, _, ends⟩ := Happened.exists_mem concluded
    exact harmless input member _ ends
  unfinished := unfinished

/-- The only copy of a call, forwarded. -/
theorem isLive_forwarded :
    IsLive Reference.kernel edge branchA
      [.upstream invite, .targetsResolved [phone "sip:bob@10.0.0.1" 1000]] :=
  isLive_of_inputs (by decide +kernel) (by decide +kernel) (by simp [Ends])

/-- The same after the caller withdrew. -/
theorem isLive_withdrawn :
    IsLive Reference.kernel edge branchA
      [.upstream invite, .targetsResolved [phone "sip:bob@10.0.0.1" 1000], .upstreamCancelled] :=
  isLive_of_inputs (by decide +kernel) (by decide +kernel) (by simp [Ends])

/-- The only provisional is a `100`: the CANCEL is owed and stays owed. -/
theorem not_cancelReaches_trying :
    ¬ CancelReaches Reference.kernel (fun status => status.isProvisional = true) edge
      [.upstream invite, .targetsResolved [phone "sip:bob@10.0.0.1" 1000], .upstreamCancelled,
        .branchResponse (reply ⟨100, by decide⟩ branchA) branchA] branchA := by
  intro reaches
  have cancelled := reaches ⟨_, _, [_], rfl, rfl, isLive_forwarded⟩
    ⟨_, _, [], rfl, _, rfl, by decide, isLive_withdrawn⟩
  revert cancelled
  decide +kernel

/-- A 180 releases the CANCEL that was queued. -/
theorem cancelReaches_ringing :
    branchA ∈ cancels (emitted (onInput Reference.kernel) (.new edge)
      [.upstream invite, .targetsResolved [phone "sip:bob@10.0.0.1" 1000], .upstreamCancelled,
        .branchResponse (reply ⟨180, by decide⟩ branchA) branchA]) :=
  cancelReaches_of_notAgain edge _ branchA (by decide +kernel)
    ⟨_, _, [_], rfl, rfl, isLive_forwarded⟩
    ⟨_, _, [], rfl, _, rfl, ⟨by decide, by decide⟩, isLive_withdrawn⟩

end SipxClstr.Proxy
