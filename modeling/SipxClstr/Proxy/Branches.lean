import SipxClstr.Proxy.Reachable

/-!
# How branches move

A step changes the branches a context holds by their ids alone, so the entries
of one id that agree keep agreeing.  This file lists what one step can do to the
state of a branch, and says when it cancels it.
-/

namespace SipxClstr.Proxy

open SipxClstr.Sip ResponseContext Reactive Reactive.Machine

/-! ## The state of a branch -/

/-- The branch is held, and every entry of its id is in this state. -/
structure InState (branches : List Branch) (branch : BranchId) (state : BranchState) : Prop where
  held : ∃ entry ∈ branches, entry.id = branch
  uniform : ∀ entry ∈ branches, entry.id = branch → entry.state = state

section States

variable {Uri : Type} {context : ResponseContext Uri} {branch : BranchId} {state : BranchState}

/-- Where ids differ, every entry tells the state of its branch. -/
theorem inState_of_nodup {branches : List Branch} (unique : (branches.map Branch.id).Nodup)
    {entry : Branch} (member : entry ∈ branches) : InState branches entry.id entry.state where
  held := ⟨entry, member, rfl⟩
  uniform other otherMember sameId := by
    rw [List.inj_on_of_nodup_map unique otherMember member sameId]

theorem InState.updateBranch (inState : InState context.branches branch state)
    (target : BranchId) (change : BranchState → BranchState) :
    InState (context.updateBranch target change).branches branch
      (if branch = target then change state else state) where
  held := by
    obtain ⟨entry, member, isBranch⟩ := inState.held
    refine ⟨_, List.mem_map_of_mem member, ?_⟩
    split <;> exact isBranch
  uniform entry member isBranch := by
    simp only [ResponseContext.updateBranch, List.mem_map] at member
    obtain ⟨before, beforeMember, rfl⟩ := member
    by_cases isTarget : before.id = target
    · simp only [isTarget, if_true] at isBranch ⊢
      rw [if_pos isBranch.symm, inState.uniform before beforeMember (isTarget.trans isBranch)]
    · simp only [isTarget, if_false] at isBranch ⊢
      rw [if_neg (fun same => isTarget (isBranch.trans same)),
        inState.uniform before beforeMember isBranch]

theorem InState.mem_pendingBranchIds_iff (inState : InState context.branches branch state) :
    branch ∈ context.pendingBranchIds ↔ state.isPending = true := by
  simp only [pendingBranchIds, List.mem_map, List.mem_filter]
  constructor
  · rintro ⟨entry, ⟨member, pending⟩, isBranch⟩
    rw [← inState.uniform entry member isBranch]
    exact pending
  · intro pending
    obtain ⟨entry, member, isBranch⟩ := inState.held
    refine ⟨entry, ⟨member, ?_⟩, isBranch⟩
    rw [inState.uniform entry member isBranch]
    exact pending

theorem InState.cancelPending (inState : InState context.branches branch state) :
    InState context.cancelPending.1.branches branch
      (if state.isPending then .cancelling else state) where
  held := by
    obtain ⟨entry, member, isBranch⟩ := inState.held
    refine ⟨_, List.mem_map_of_mem member, ?_⟩
    split <;> exact isBranch
  uniform entry member isBranch := by
    simp only [ResponseContext.cancelPending, List.mem_map] at member
    obtain ⟨before, beforeMember, rfl⟩ := member
    by_cases pending : before.id ∈ context.pendingBranchIds
    · simp only [pending, if_true] at isBranch ⊢
      rw [isBranch, inState.mem_pendingBranchIds_iff] at pending
      rw [if_pos pending]
    · simp only [pending, if_false] at isBranch ⊢
      rw [isBranch, inState.mem_pendingBranchIds_iff] at pending
      rw [if_neg pending, inState.uniform before beforeMember isBranch]

theorem InState.sawProvisional_eq_some_iff (inState : InState context.branches branch state)
    {saw : Bool} :
    context.sawProvisional branch = some saw ↔ ∃ owed, state = .pending saw owed := by
  constructor
  · intro pending
    obtain ⟨entry, member, isBranch, owed, entryPending⟩ := knows_of_sawProvisional pending
    exact ⟨owed, (inState.uniform entry member isBranch).symm.trans entryPending⟩
  · rintro ⟨owed, rfl⟩
    obtain ⟨entry, member, isBranch⟩ := inState.held
    cases found : context.sawProvisional branch with
    | none =>
        have absent := List.findSome?_eq_none_iff.mp found entry member
        simp [isBranch, inState.uniform entry member isBranch] at absent
    | some other =>
        obtain ⟨entry, member, isBranch, owed, pending⟩ := knows_of_sawProvisional found
        rw [inState.uniform entry member isBranch] at pending
        cases pending
        rfl

/-- The CANCEL owed once an entry in this state has been visited: its own, if it is
pending, and otherwise what was owed before. -/
def BranchState.owesAfter : BranchState → Bool → Bool
  | .pending _ owed, _ => owed
  | .concluded _, flag => flag
  | .cancelling, flag => flag

/-- Folding over entries that are passed by, except those of one branch, which all
act alike and once. -/
theorem foldl_of_uniform {branches : List Branch} {visit : Bool → Branch → Bool}
    (act : Bool → Bool) (once : ∀ flag, act (act flag) = act flag)
    (acts : ∀ entry ∈ branches, entry.id = branch → ∀ flag, visit flag entry = act flag)
    (passes : ∀ entry ∈ branches, entry.id ≠ branch → ∀ flag, visit flag entry = flag)
    (flag : Bool) :
    branches.foldl visit flag = if ∃ entry ∈ branches, entry.id = branch then act flag else flag := by
  induction branches generalizing flag with
  | nil => simp
  | cons entry rest ih =>
      rw [List.foldl_cons, ih (fun other member => acts other (List.mem_cons_of_mem _ member))
        fun other member => passes other (List.mem_cons_of_mem _ member)]
      by_cases isBranch : entry.id = branch
      · simp [acts entry List.mem_cons_self isBranch, isBranch, once]
      · simp [passes entry List.mem_cons_self isBranch, isBranch]

/-- Over entries that agree, the CANCEL owed is the one they all owe. -/
theorem InState.cancelOwed_iff (inState : InState context.branches branch state) :
    context.cancelOwed branch = true ↔ ∃ saw, state = .pending saw true := by
  rw [cancelOwed, foldl_of_uniform state.owesAfter (fun flag => ?_)
    (fun entry member isBranch flag => ?_) (fun entry _ isOther flag => ?_) false,
    if_pos inState.held]
  · cases state <;> simp [BranchState.owesAfter]
  · cases state <;> rfl
  · simp only [isBranch, if_true, inState.uniform entry member isBranch]
    cases state <;> rfl
  · exact if_neg isOther

/-- A withdrawal cancels the branches that have been heard from. -/
theorem InState.mem_pendingWithProvisional_iff
    (inState : InState context.branches branch state) (saw : Bool) :
    (branch, saw) ∈ context.pendingWithProvisional ↔ ∃ owed, state = .pending saw owed := by
  simp only [pendingWithProvisional, List.mem_filterMap]
  constructor
  · rintro ⟨entry, member, found⟩
    cases entryState : entry.state with
    | pending seen owed =>
        simp only [entryState, Option.some.injEq, Prod.mk.injEq] at found
        obtain ⟨isBranch, rfl⟩ := found
        exact ⟨owed, (inState.uniform entry member isBranch).symm.trans entryState⟩
    | concluded status => simp [entryState] at found
    | cancelling => simp [entryState] at found
  · rintro ⟨owed, rfl⟩
    obtain ⟨entry, member, isBranch⟩ := inState.held
    exact ⟨entry, member, by simp [inState.uniform entry member isBranch, isBranch]⟩

/-- Cancelling or queueing for branches listed with the same flag. -/
theorem InState.cancelOrQueue {pending : List (BranchId × Bool)} {saw : Bool}
    (inState : InState context.branches branch state)
    (flag : ∀ item ∈ pending, item.1 = branch → item.2 = saw) :
    InState (cancelOrQueue context pending).1.branches branch
      (if branch ∈ pending.map Prod.fst then
        if saw then .cancelling else state.queueCancel
      else state) := by
  induction pending generalizing context state with
  | nil => simpa [Proxy.cancelOrQueue] using inState
  | cons item rest ih =>
      obtain ⟨target, seen⟩ := item
      have flagRest : ∀ item ∈ rest, item.1 = branch → item.2 = saw :=
        fun item member => flag item (List.mem_cons_of_mem _ member)
      by_cases isBranch : branch = target
      · obtain rfl : seen = saw := flag (target, seen) List.mem_cons_self isBranch.symm
        cases seen with
        | true =>
            have next := ih (inState.updateBranch target fun _ => .cancelling) flagRest
            change InState (Proxy.cancelOrQueue (context.setCancelling target) rest).1.branches _ _
            simpa [isBranch, setCancelling] using next
        | false =>
            have next := ih (inState.updateBranch target .queueCancel) flagRest
            have twice : state.queueCancel.queueCancel = state.queueCancel := by
              cases state <;> rfl
            change InState (Proxy.cancelOrQueue (context.queueCancel target) rest).1.branches _ _
            simpa [isBranch, twice, ResponseContext.queueCancel] using next
      · cases seen with
        | true =>
            have next := ih (inState.updateBranch target fun _ => .cancelling) flagRest
            change InState (Proxy.cancelOrQueue (context.setCancelling target) rest).1.branches _ _
            simpa [isBranch, setCancelling] using next
        | false =>
            have next := ih (inState.updateBranch target .queueCancel) flagRest
            change InState (Proxy.cancelOrQueue (context.queueCancel target) rest).1.branches _ _
            simpa [isBranch, ResponseContext.queueCancel] using next

end States

/-! ## Moves -/

variable {K : Kernel}

/-- The inputs that conclude a branch: its final, its transport's failure, and
Timer C when it was never heard from. -/
inductive Settles (branch : BranchId) (state : BranchState) : Input K.Uri → Prop where
  | final (response : Response) (isFinal : response.status.isProvisional = false) :
      Settles branch state (.branchResponse response branch)
  | failed : Settles branch state (.branchTransportError branch)
  | silent (owed : Bool) (stateEq : state = .pending false owed) :
      Settles branch state (.timerFired .c (some branch))

/-- A final response that cancels the other branches: a 2xx to an `INVITE`, or a
6xx. -/
def Overtakes (context : ResponseContext K.Uri) (response : Response) : Prop :=
  (response.status.hundreds = 2 ∧ context.request.map Request.method = some .invite) ∨
    response.status.hundreds = 6

/-- The input is no concern of the branch: a pending one, it neither withdraws nor
lets be heard from. -/
def PassesBy (branch : BranchId) (state : BranchState) (input : Input K.Uri) : Prop :=
  state.isPending = true → input ≠ .upstreamCancelled ∧
    ∀ response, input = .branchResponse response branch → response.status.code = 100

/-- What a step does to the state of one branch, and whether it cancels it. -/
inductive BranchMove (context : ResponseContext K.Uri) (input : Input K.Uri)
    (outcome : Outcome K.Uri) (branch : BranchId) : BranchState → BranchState → Prop where
  | stays (state : BranchState) (passes : PassesBy branch state input)
      (kept : branch ∉ cancels outcome.2) :
      BranchMove context input outcome branch state state
  | heard (response : Response) (saw : Bool) (inputEq : input = .branchResponse response branch)
      (isProvisional : response.status.isProvisional = true)
      (notTrying : response.status.code ≠ 100) (kept : branch ∉ cancels outcome.2) :
      BranchMove context input outcome branch (.pending saw false) (.pending true false)
  | released (response : Response) (saw : Bool)
      (inputEq : input = .branchResponse response branch)
      (isProvisional : response.status.isProvisional = true)
      (notTrying : response.status.code ≠ 100) (cancelled : branch ∈ cancels outcome.2) :
      BranchMove context input outcome branch (.pending saw true) .cancelling
  | concluded (state : BranchState) (status : Nat) (settles : Settles branch state input)
      (kept : branch ∉ cancels outcome.2) :
      BranchMove context input outcome branch state (.concluded status)
  | stopped (owed : Bool) (inputEq : input = .timerFired .c (some branch))
      (cancelled : branch ∈ cancels outcome.2) :
      BranchMove context input outcome branch (.pending true owed) .cancelling
  | withdrawn (owed : Bool) (inputEq : input = .upstreamCancelled)
      (cancelled : branch ∈ cancels outcome.2) :
      BranchMove context input outcome branch (.pending true owed) .cancelling
  | queued (owed : Bool) (inputEq : input = .upstreamCancelled)
      (kept : branch ∉ cancels outcome.2) :
      BranchMove context input outcome branch (.pending false owed) (.pending false true)
  | overtaken (saw owed : Bool) (response : Response) (other : BranchId) (differs : branch ≠ other)
      (inputEq : input = .branchResponse response other) (known : context.knows other = true)
      (overtakes : Overtakes context response) (cancelled : branch ∈ cancels outcome.2) :
      BranchMove context input outcome branch (.pending saw owed) .cancelling
  | dropped (saw owed : Bool) {concluded : ResponseContext K.Uri} {status : Nat} {reason : Text}
      (request : Request K.Uri) (requestEq : context.request = some request)
      (concludes : Concludes K context input concluded status reason)
      (answered : (buildResponse K request status reason).isSome = true)
      (finished : outcome.1.finished = true) (cancelled : branch ∈ cancels outcome.2) :
      BranchMove context input outcome branch (.pending saw owed) (.pending saw owed)

/-- How a step takes the branches held, and adds those it forwards. -/
structure BranchesMove (context : ResponseContext K.Uri) (input : Input K.Uri)
    (outcome : Outcome K.Uri) (updated launched : List Branch) : Prop where
  branches : outcome.1.branches = updated ++ launched
  ids : updated.map Branch.id = context.branches.map Branch.id
  launches : launches outcome.2 = launched.map Branch.id
  fresh : ∀ entry ∈ launched, entry.state = .pending false false
  moves : ∀ branch state, InState context.branches branch state →
    ∃ next, InState updated branch next ∧ BranchMove context input outcome branch state next

variable {context : ResponseContext K.Uri} {input : Input K.Uri} {outcome : Outcome K.Uri}

/-- A step that only adds branches and cancels none moves none. -/
theorem branchesMove_of_passes {launched : List Branch}
    (branches : outcome.1.branches = context.branches ++ launched)
    (launchesEq : launches outcome.2 = launched.map Branch.id)
    (fresh : ∀ entry ∈ launched, entry.state = .pending false false)
    (kept : cancels outcome.2 = [])
    (passes : ∀ branch state, InState context.branches branch state →
      PassesBy branch state input) :
    BranchesMove context input outcome context.branches launched where
  branches := branches
  ids := rfl
  launches := launchesEq
  fresh := fresh
  moves branch state inState :=
    ⟨state, inState, .stays state (passes branch state inState) (by simp [kept])⟩

/-- Where a branch that is moved stands after the step: in its next state, beside
any copy forwarded on its id now. -/
theorem BranchesMove.state_cases {updated launched : List Branch} {branch : BranchId}
    {next : BranchState} (moves : BranchesMove context input outcome updated launched)
    (nextState : InState updated branch next) {later : Branch}
    (member : later ∈ outcome.1.branches) (isBranch : later.id = branch) :
    later.state = next ∨ later.state = .pending false false := by
  rw [moves.branches] at member
  rcases List.mem_append.mp member with kept | new
  · exact .inl (nextState.uniform later kept isBranch)
  · exact .inr (moves.fresh later new)

theorem BranchesMove.exists_later {updated launched : List Branch} {branch : BranchId}
    {next : BranchState} (moves : BranchesMove context input outcome updated launched)
    (nextState : InState updated branch next) :
    ∃ later ∈ outcome.1.branches, later.id = branch ∧ later.state = next := by
  obtain ⟨later, member, isBranch⟩ := nextState.held
  rw [moves.branches]
  exact ⟨later, List.mem_append_left _ member, isBranch, nextState.uniform later member isBranch⟩

/-- A branch that is not forwarded now is in its next state. -/
theorem BranchesMove.inState {updated launched : List Branch} {branch : BranchId}
    {next : BranchState} (moves : BranchesMove context input outcome updated launched)
    (nextState : InState updated branch next)
    (notLaunched : branch ∉ Proxy.launches outcome.2) : InState outcome.1.branches branch next where
  held := by
    obtain ⟨later, member, isBranch, _⟩ := moves.exists_later nextState
    exact ⟨later, member, isBranch⟩
  uniform later member isBranch := by
    rw [moves.launches] at notLaunched
    rw [moves.branches] at member
    rcases List.mem_append.mp member with kept | new
    · exact nextState.uniform later kept isBranch
    · exact absurd (List.mem_map.mpr ⟨later, new, isBranch⟩) notLaunched

theorem InState.knows {branch : BranchId} {state : BranchState}
    (inState : InState context.branches branch state) : context.knows branch = true := by
  obtain ⟨entry, member, isBranch⟩ := inState.held
  exact knows_iff.mpr (List.mem_map.mpr ⟨entry, member, isBranch⟩)

theorem passesBy_of_absorbs (absorbs : Absorbs K context input) (branch : BranchId)
    (state : BranchState) (inState : InState context.branches branch state) :
    PassesBy branch state input := by
  intro _
  constructor
  · rintro rfl
    exact absorbs
  · rintro response rfl
    rcases absorbs.2 with unknown | trying
    · rw [inState.knows] at unknown
      contradiction
    · exact trying

/-- An input that takes up targets is no concern of any branch. -/
theorem passesBy_of_takesTargets {targeted : ResponseContext K.Uri} {request : Request K.Uri}
    (takes : TakesTargets K context input targeted request) (branch : BranchId)
    (state : BranchState) : PassesBy branch state input := by
  intro _
  cases takes with
  | predetermined determines _ => cases determines <;> simp
  | resolved _ _ _ _ => simp

theorem provisional_branchesMove {request : Request K.Uri} {response : Response}
    {branch : BranchId} (notTrying : response.status.code ≠ 100)
    (isProvisional : response.status.isProvisional = true) :
    BranchesMove context (.branchResponse response branch)
      (forwardProvisional K context request response branch)
      (forwardProvisional K context request response branch).1.branches [] where
  branches := (List.append_nil _).symm
  ids := (sameButBranches_forwardProvisional context request response branch).ids
  launches := (forwardProvisional_effects context request response branch).2.2.1
  fresh := by simp
  moves other state inState := by
    have cancelsEq := (forwardProvisional_effects context request response branch).2.1
    have marked := inState.updateBranch branch .markProvisional
    rw [forwardProvisional_fst]
    by_cases isBranch : other = branch
    · subst isBranch
      rw [if_pos rfl] at marked
      by_cases owed : context.cancelOwed other = true
      · obtain ⟨saw, rfl⟩ := inState.cancelOwed_iff.mp owed
        have cancelling := marked.updateBranch other fun _ => .cancelling
        rw [if_pos rfl] at cancelling
        rw [if_pos owed] at cancelsEq ⊢
        exact ⟨_, cancelling, .released response saw rfl isProvisional notTrying
          (by rw [cancelsEq]; exact List.mem_singleton_self other)⟩
      · rw [if_neg owed] at cancelsEq ⊢
        have kept : other ∉ cancels (forwardProvisional K context request response other).2 := by
          simp [cancelsEq]
        refine ⟨_, marked, ?_⟩
        cases state with
        | pending saw queued =>
            cases queued with
            | true => exact absurd (inState.cancelOwed_iff.mpr ⟨saw, rfl⟩) owed
            | false => exact .heard response saw rfl isProvisional notTrying kept
        | concluded status => exact .stays _ (fun pending => by contradiction) kept
        | cancelling => exact .stays _ (fun pending => by contradiction) kept
    · rw [if_neg isBranch] at marked
      have kept : other ∉ cancels (forwardProvisional K context request response branch).2 := by
        rw [cancelsEq]
        split <;> simp [isBranch]
      have passes : PassesBy other state (.branchResponse response branch : Input K.Uri) :=
        fun _ => ⟨by simp, fun _ same => absurd (Input.branchResponse.inj same).2.symm isBranch⟩
      split
      · have cancelling := marked.updateBranch branch fun _ => .cancelling
        rw [if_neg isBranch] at cancelling
        exact ⟨state, cancelling, .stays state passes kept⟩
      · exact ⟨state, marked, .stays state passes kept⟩

/-- A final that overtakes the other branches concludes its own and cancels
those that are pending. -/
theorem overtaken_branchesMove {response : Response} {branch : BranchId}
    {concluded : ResponseContext K.Uri} (known : context.knows branch = true)
    (final : response.status.isProvisional = false) (overtakes : Overtakes context response)
    (concludedEq : concluded.branches =
      (context.concludeBranch branch response.status.code).branches)
    (branchesEq : outcome.1.branches = concluded.cancelPending.1.branches)
    (noLaunch : launches outcome.2 = []) (cancelsEq : cancels outcome.2 = concluded.pendingBranchIds) :
    BranchesMove context (.branchResponse response branch) outcome
      concluded.cancelPending.1.branches [] where
  branches := by rw [branchesEq, List.append_nil]
  ids := by
    rw [map_id_cancelPending, concludedEq]
    exact map_id_updateBranch context branch _
  launches := noLaunch
  fresh := by simp
  moves other state inState := by
    have recorded := inState.updateBranch branch fun _ => .concluded response.status.code
    rw [← concludeBranch, ← concludedEq] at recorded
    have cancelled := recorded.cancelPending
    have cancelledIff := recorded.mem_pendingBranchIds_iff
    rw [← cancelsEq] at cancelledIff
    by_cases isBranch : other = branch
    · subst isBranch
      rw [if_pos rfl] at cancelled cancelledIff
      exact ⟨_, cancelled, .concluded state _ (.final response final)
        fun member => Bool.false_ne_true (cancelledIff.mp member)⟩
    · rw [if_neg isBranch] at cancelled cancelledIff
      have passes : PassesBy other state (.branchResponse response branch : Input K.Uri) :=
        fun _ => ⟨by simp, fun _ same => absurd (Input.branchResponse.inj same).2.symm isBranch⟩
      refine ⟨_, cancelled, ?_⟩
      cases state with
      | pending saw owed =>
          exact .overtaken saw owed response branch isBranch rfl known overtakes
            (cancelledIff.mpr rfl)
      | concluded status =>
          exact .stays _ passes fun member => Bool.false_ne_true (cancelledIff.mp member)
      | cancelling =>
          exact .stays _ passes fun member => Bool.false_ne_true (cancelledIff.mp member)

theorem recorded_branchesMove {request : Request K.Uri} {branch : BranchId}
    {recorded : ResponseContext K.Uri} (records : Records K context request input branch recorded)
    (tail : Tail K recorded request outcome) :
    ∃ launched, BranchesMove context input outcome recorded.branches launched := by
  obtain ⟨launched, branchesEq, launchesEq, fresh⟩ := tail.branches_eq
  obtain ⟨status, final, recordedEq⟩ := records.frame
  refine ⟨launched, branchesEq, ?_, launchesEq, fresh, fun other state inState => ?_⟩
  · rw [recordedEq]
    exact map_id_updateBranch context branch fun _ => .concluded status
  have kept : other ∉ cancels outcome.2 := by simp [tail.cancels_eq_nil]
  have concluded := inState.updateBranch branch fun _ => .concluded status
  rw [recordedEq]
  by_cases isBranch : other = branch
  · subst isBranch
    rw [if_pos rfl] at concluded
    refine ⟨_, concluded, .concluded state status ?_ kept⟩
    cases records with
    | received response _ _ final _ _ _ => exact .final response final
    | unavailable response _ _ failed =>
        exact .final response (by simp [StatusCode.isProvisional, StatusCode.hundreds, failed])
    | failed _ _ => exact .failed
    | silent _ silent =>
        obtain ⟨owed, stateEq⟩ := inState.sawProvisional_eq_some_iff.mp silent
        exact .silent owed stateEq
  · rw [if_neg isBranch] at concluded
    refine ⟨state, concluded, .stays state (fun _ => ⟨?_, fun response same => ?_⟩) kept⟩
    · cases records <;> simp
    · subst same
      cases records <;> contradiction

theorem concluded_branchesMove {concluded : ResponseContext K.Uri} {request : Request K.Uri}
    {status : Nat} {reason : Text} (requestEq : context.request = some request)
    (concludes : Concludes K context input concluded status reason) :
    BranchesMove context input (respondAndFinish K concluded request status reason)
      context.branches [] where
  branches := by
    rw [respondAndFinish_fst, List.append_nil]
    exact concludes.frame.branches
  ids := rfl
  launches := launches_respondAndFinish _ _ _ _
  fresh := by simp
  moves branch state inState := by
    have cancelsEq := cancels_respondAndFinish concluded request status reason
    have sameIds : concluded.pendingBranchIds = context.pendingBranchIds := by
      simp [pendingBranchIds, concludes.frame.branches]
    have passes : PassesBy branch state input := fun _ => by cases concludes <;> simp
    refine ⟨state, inState, ?_⟩
    rw [sameIds] at cancelsEq
    by_cases built : (buildResponse K request status reason).isSome = true
    · rw [if_pos built] at cancelsEq
      have cancelledIff := inState.mem_pendingBranchIds_iff
      rw [← cancelsEq] at cancelledIff
      cases state with
      | pending saw owed =>
          exact .dropped saw owed request requestEq concludes built (by rw [respondAndFinish_fst])
            (cancelledIff.mpr rfl)
      | concluded code =>
          exact .stays _ passes fun member => Bool.false_ne_true (cancelledIff.mp member)
      | cancelling =>
          exact .stays _ passes fun member => Bool.false_ne_true (cancelledIff.mp member)
    · rw [if_neg built] at cancelsEq
      exact .stays state passes (by simp [cancelsEq])

theorem stopped_branchesMove {branch : BranchId} (stuck : context.sawProvisional branch = some true) :
    BranchesMove context (.timerFired .c (some branch))
      (context.setCancelling branch, [.cancelBranch branch])
      (context.setCancelling branch).branches [] where
  branches := (List.append_nil _).symm
  ids := map_id_updateBranch context branch _
  launches := rfl
  fresh := by simp
  moves other state inState := by
    have cancelling := inState.updateBranch branch fun _ => .cancelling
    by_cases isBranch : other = branch
    · subst isBranch
      obtain ⟨owed, rfl⟩ := inState.sawProvisional_eq_some_iff.mp stuck
      rw [if_pos rfl] at cancelling
      exact ⟨_, cancelling, .stopped owed rfl (by simp)⟩
    · rw [if_neg isBranch] at cancelling
      exact ⟨state, cancelling, .stays state (fun _ => by simp) (by simp [isBranch])⟩

/-- A withdrawal passes over a branch that is not pending. -/
theorem withdrawn_stays {branch : BranchId} {state : BranchState}
    (inState : InState context.concludeTargetSet.branches branch state)
    (settled : state.isPending = false)
    (cancelledIff : branch ∈ cancels (onUpstreamCancelled context).2 ↔
      ∃ owed, state = .pending true owed) :
    ∃ next, InState (onUpstreamCancelled context).1.branches branch next ∧
      BranchMove context .upstreamCancelled (onUpstreamCancelled context) branch state next := by
  have absent : ∀ item ∈ context.concludeTargetSet.pendingWithProvisional, item.1 ≠ branch := by
    rintro ⟨target, seen⟩ member rfl
    obtain ⟨owed, rfl⟩ := (inState.mem_pendingWithProvisional_iff seen).mp member
    contradiction
  have flag : ∀ item ∈ context.concludeTargetSet.pendingWithProvisional,
      item.1 = branch → item.2 = false :=
    fun item member isBranch => absurd isBranch (absent item member)
  have next := inState.cancelOrQueue flag
  have notListed : branch ∉ context.concludeTargetSet.pendingWithProvisional.map Prod.fst := by
    intro listed
    obtain ⟨item, member, isBranch⟩ := List.mem_map.mp listed
    exact absent item member isBranch
  rw [if_neg notListed] at next
  refine ⟨state, next, .stays state (fun pending => ?_) fun member => ?_⟩
  · rw [settled] at pending
    contradiction
  · obtain ⟨owed, rfl⟩ := cancelledIff.mp member
    contradiction

theorem withdrawn_branchesMove :
    BranchesMove context .upstreamCancelled (onUpstreamCancelled context)
      (onUpstreamCancelled context).1.branches [] where
  branches := (List.append_nil _).symm
  ids := (sameButBranches_onUpstreamCancelled context).ids
  launches := (onUpstreamCancelled_effects context).2.2.1
  fresh := by simp
  moves branch state inState := by
    have cancelsEq := (onUpstreamCancelled_effects context).2.1
    have cancelledIff : branch ∈ cancels (onUpstreamCancelled context).2 ↔
        ∃ owed, state = .pending true owed := by
      rw [← inState.mem_pendingWithProvisional_iff true, cancelsEq]
      simp
    have emptied : InState context.concludeTargetSet.branches branch state := inState
    cases state with
    | pending saw owed =>
        have flag : ∀ item ∈ context.concludeTargetSet.pendingWithProvisional,
            item.1 = branch → item.2 = saw := by
          rintro ⟨target, seen⟩ member rfl
          obtain ⟨queued, same⟩ := (emptied.mem_pendingWithProvisional_iff seen).mp member
          exact (BranchState.pending.inj same).1.symm
        have listed : branch ∈ context.concludeTargetSet.pendingWithProvisional.map Prod.fst :=
          List.mem_map.mpr ⟨_, (emptied.mem_pendingWithProvisional_iff saw).mpr ⟨owed, rfl⟩, rfl⟩
        have next := emptied.cancelOrQueue flag
        rw [if_pos listed] at next
        cases saw with
        | true => exact ⟨_, next, .withdrawn owed rfl (cancelledIff.mpr ⟨owed, rfl⟩)⟩
        | false => exact ⟨_, next, .queued owed rfl (by simp [cancelledIff])⟩
    | concluded status => exact withdrawn_stays emptied rfl cancelledIff
    | cancelling => exact withdrawn_stays emptied rfl cancelledIff

/-- Every step of a coherent context moves the branches it holds, one by one. -/
theorem Step.branchesMove (coherent : Coherent context) (step : Step K context input outcome) :
    ∃ updated launched, BranchesMove context input outcome updated launched := by
  have unmoved : outcome.1.branches = context.branches → launches outcome.2 = [] →
      cancels outcome.2 = [] →
      (∀ branch state, InState context.branches branch state → PassesBy branch state input) →
      ∃ updated launched, BranchesMove context input outcome updated launched :=
    fun branches noLaunch kept passes => ⟨context.branches, [],
      branchesMove_of_passes (by rw [branches, List.append_nil]) noLaunch (by simp) kept passes⟩
  cases step with
  | absorbed absorbs => exact unmoved rfl rfl rfl (passesBy_of_absorbs absorbs)
  | premature _ absent =>
      refine unmoved rfl rfl rfl fun branch state inState => ?_
      obtain ⟨entry, member, _⟩ := inState.held
      have held := coherent.branches (List.ne_nil_of_mem member)
      rw [absent] at held
      contradiction
  | minted _ => exact unmoved rfl rfl rfl fun _ _ _ _ => by simp
  | refused request refusal _ =>
      obtain ⟨_, noCancel, noLaunch, _⟩ := refuse_effects context request refusal
      exact unmoved (by rw [refuse_fst]) noLaunch noCancel fun _ _ _ _ => by simp
  | held _ _ _ _ _ => exact unmoved rfl rfl rfl fun _ _ _ _ => by simp
  | asked determines _ =>
      exact unmoved determines.frame.branches rfl rfl fun _ _ _ _ => by
        cases determines <;> simp
  | taken takes tail =>
      obtain ⟨launched, branchesEq, launchesEq, fresh⟩ := tail.branches_eq
      rw [takes.frame.branches] at branchesEq
      exact ⟨_, launched, branchesMove_of_passes branchesEq launchesEq fresh tail.cancels_eq_nil
        fun branch state _ => passesBy_of_takesTargets takes branch state⟩
  | concluded requestEq concludes => exact ⟨_, _, concluded_branchesMove requestEq concludes⟩
  | provisional response branch request _ _ notTrying isProvisional =>
      exact ⟨_, _, provisional_branchesMove notTrying isProvisional⟩
  | accepted response branch request requestEq known success isInvite =>
      have overtakes : Overtakes context response :=
        .inl ⟨success, by rw [requestEq, Option.map_some, isInvite]⟩
      have final : response.status.isProvisional = false := by
        simp [StatusCode.isProvisional, success]
      have concludedEq : (acceptedContext K context response branch).branches =
          (context.concludeBranch branch response.status.code).branches := rfl
      exact ⟨_, _, overtaken_branchesMove known final overtakes concludedEq rfl
        (by simp [cancelPending]) (by simp [cancelPending])⟩
  | rejected response branch request requestEq known global =>
      have final : response.status.isProvisional = false := by
        simp [StatusCode.isProvisional, global]
      rw [finishIfSettled_rejected]
      refine ⟨(rejectedContext K context response branch).cancelPending.1.branches, [],
        overtaken_branchesMove known final (.inr global) rfl ?_ ?_ ?_⟩
      · split <;> rfl
      · split <;> simp [cancelPending]
      · split <;> simp [cancelPending]
  | recorded _ records tail =>
      obtain ⟨launched, moves⟩ := recorded_branchesMove records tail
      exact ⟨_, launched, moves⟩
  | stopped branch stuck => exact ⟨_, _, stopped_branchesMove stuck⟩
  | withdrawn => exact ⟨_, _, withdrawn_branchesMove⟩

/-! ## What a step cancels -/

theorem pendingBranchIds_sublist {Uri : Type} (context : ResponseContext Uri) :
    context.pendingBranchIds.Sublist (context.branches.map Branch.id) :=
  List.filter_sublist.map _

theorem pendingWithProvisional_sublist {Uri : Type} (context : ResponseContext Uri) :
    ((context.pendingWithProvisional.filter Prod.snd).map Prod.fst).Sublist
      (context.branches.map Branch.id) := by
  refine (List.filter_sublist.map _).trans ?_
  rw [pendingWithProvisional, List.map_filterMap]
  induction context.branches with
  | nil => exact List.Sublist.slnil
  | cons entry rest ih =>
      cases state : entry.state with
      | pending saw owed => simpa [state] using ih
      | concluded status => simpa [state] using ih.cons entry.id
      | cancelling => simpa [state] using ih.cons entry.id

/-- A step cancels only branches it holds, each at most as often as it holds it. -/
theorem Step.cancels_sublist (step : Step K context input outcome) :
    (cancels outcome.2).Sublist (context.branches.map Branch.id) := by
  have overtaken : ∀ {concluded : ResponseContext K.Uri} {branch : BranchId} {status : Nat},
      concluded.branches = (context.concludeBranch branch status).branches →
        concluded.pendingBranchIds.Sublist (context.branches.map Branch.id) := by
    intro concluded branch status concludedEq
    have ids := pendingBranchIds_sublist concluded
    rwa [concludedEq, concludeBranch, map_id_updateBranch] at ids
  cases step with
  | absorbed _ => exact List.nil_sublist _
  | premature _ _ => exact List.nil_sublist _
  | minted _ => exact List.nil_sublist _
  | refused request refusal _ =>
      rw [(refuse_effects context request refusal).2.1]
      exact List.nil_sublist _
  | held _ _ _ _ _ => exact List.nil_sublist _
  | asked _ _ => exact List.nil_sublist _
  | taken _ tail =>
      rw [tail.cancels_eq_nil]
      exact List.nil_sublist _
  | concluded _ concludes =>
      rw [cancels_respondAndFinish]
      split
      · rw [← concludes.frame.branches]
        exact pendingBranchIds_sublist _
      · exact List.nil_sublist _
  | provisional response branch request _ known _ _ =>
      rw [(forwardProvisional_effects context request response branch).2.1]
      split
      · exact List.singleton_sublist.mpr (knows_iff.mp known)
      · exact List.nil_sublist _
  | accepted response branch _ _ _ _ _ =>
      have concludedEq : (acceptedContext K context response branch).branches =
          (context.concludeBranch branch response.status.code).branches := rfl
      simpa [cancelPending] using overtaken concludedEq
  | rejected response branch _ _ _ _ =>
      have concludedEq : (rejectedContext K context response branch).branches =
          (context.concludeBranch branch response.status.code).branches := rfl
      rw [finishIfSettled_rejected]
      split <;> simpa [cancelPending] using overtaken concludedEq
  | recorded _ _ tail =>
      rw [tail.cancels_eq_nil]
      exact List.nil_sublist _
  | stopped branch stuck =>
      obtain ⟨entry, member, isBranch, _⟩ := knows_of_sawProvisional stuck
      exact List.singleton_sublist.mpr (List.mem_map.mpr ⟨entry, member, isBranch⟩)
  | withdrawn =>
      rw [(onUpstreamCancelled_effects context).2.1]
      exact pendingWithProvisional_sublist context

end SipxClstr.Proxy
