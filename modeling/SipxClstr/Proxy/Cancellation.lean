import SipxClstr.Proxy.Branches

/-!
# Cancelling branches

A CANCEL should go out at most once per branch, only while the branch owes its
final, and only once the branch has been heard from.  A withdrawal and Timer C
see to that, and so does the release of a queued CANCEL.  The branches that a
final response overtakes are cancelled whether or not they have been heard from.
-/

namespace SipxClstr.Proxy

open SipxClstr.Sip ResponseContext Reactive Reactive.Machine

instance {K : Kernel} (context : ResponseContext K.Uri) (response : Response) :
    Decidable (Overtakes context response) :=
  inferInstanceAs (Decidable (_ ∨ _))

/-- Whether every pending branch, but for this one, has been heard from. -/
def othersHeard {Uri : Type} (context : ResponseContext Uri) (branch : Option BranchId) : Bool :=
  context.branches.all fun entry => match entry.state with
    | .pending false _ => branch = some entry.id
    | _ => true

variable (K : Kernel)

/-- Whether the request held can be answered with this status. -/
def canAnswer (context : ResponseContext K.Uri) (status : Nat) (reason : Text) : Bool :=
  context.request.any fun request => (buildResponse K request status reason).isSome

/-- Whether every pending branch that this input overtakes, by a final response
from another branch or by an answer built here, has been heard from. -/
def overtakesHeard (context : ResponseContext K.Uri) : Input K.Uri → Bool
  | .branchResponse response branch =>
      !context.knows branch || !decide (Overtakes context response) ||
        othersHeard context (some branch)
  | .targetsResolved targets =>
      !targets.isEmpty || !canAnswer K context 480 (text "Temporarily Unavailable") ||
        othersHeard context none
  | .targetsUnavailable =>
      !canAnswer K context 503 (text "Service Unavailable") || othersHeard context none
  | .tokenFact .invalid =>
      !context.awaitingVerdict || !canAnswer K context 403 (text "Forbidden") ||
        othersHeard context none
  | _ => true

/-- At this step an unfinished context holds no two branches of one id and
overtakes none it has not heard from. -/
def OvertakesHeard (context : ResponseContext K.Uri) (input : Input K.Uri) : Prop :=
  context.finished = false →
    (context.branches.map Branch.id).Nodup ∧ overtakesHeard K context input = true

instance (context : ResponseContext K.Uri) (input : Input K.Uri) :
    Decidable (OvertakesHeard K context input) :=
  inferInstanceAs (Decidable (_ → _ ∧ _))

/-- A provisional response has been received on the branch, after its copy was
forwarded. -/
def HeardFrom (config : ProxyConfig) (branch : BranchId) (inputs : List (Input K.Uri)) : Prop :=
  Happened (fun past input => ∃ response, input = .branchResponse response branch ∧
    response.status.isProvisional = true ∧
      branch ∈ launches (emitted (onInput K) (.new config) past)) inputs

/-- A branch is cancelled at most once, while it owes its final, and not before it
has been heard from. -/
structure CancelsSoundly (config : ProxyConfig) (inputs : List (Input K.Uri)) : Prop where
  once : (cancels (emitted (onInput K) (.new config) inputs)).Nodup
  outstanding : ∀ past input future, inputs = past ++ input :: future →
    ∀ branch ∈ cancels (onInput K (after (onInput K) (.new config) past) input).2,
      ∀ entry ∈ (after (onInput K) (.new config) past).branches ++
          (onInput K (after (onInput K) (.new config) past) input).1.branches,
        entry.id = branch → entry.state.isOutstanding = true
  heard : ∀ past input future, inputs = past ++ input :: future →
    ∀ branch ∈ cancels (onInput K (after (onInput K) (.new config) past) input).2,
      HeardFrom K config branch (past ++ [input])

variable {K}

/-! ## One step -/

theorem saw_of_othersHeard {Uri : Type} {context : ResponseContext Uri} {branch : Option BranchId}
    (heard : othersHeard context branch = true) {entry : Branch} (member : entry ∈ context.branches)
    (differs : branch ≠ some entry.id) {saw owed : Bool}
    (pending : entry.state = .pending saw owed) : saw = true := by
  have entryHeard := List.all_eq_true.mp heard entry member
  cases saw with
  | true => rfl
  | false => simp [pending, differs] at entryHeard

theorem canAnswer_of_built {context : ResponseContext K.Uri} {request : Request K.Uri}
    {status : Nat} {reason : Text} (requestEq : context.request = some request)
    (built : (buildResponse K request status reason).isSome = true) :
    canAnswer K context status reason = true := by
  rw [canAnswer, requestEq]
  exact built

/-- What is known of a branch a step cancels: it was pending, and it has been
heard from; it is pending no more, unless the context is over. -/
theorem Step.cancelled_cases {context : ResponseContext K.Uri} {input : Input K.Uri}
    {outcome : Outcome K.Uri} (step : Step K context input outcome) (coherent : Coherent context)
    (unique : (context.branches.map Branch.id).Nodup)
    (heard : overtakesHeard K context input = true) {branch : BranchId}
    (cancelled : branch ∈ cancels outcome.2) :
    ∃ entry ∈ context.branches, ∃ saw owed, entry.id = branch ∧ entry.state = .pending saw owed ∧
      (saw = true ∨ ∃ response, input = .branchResponse response branch ∧
        response.status.isProvisional = true) ∧
      (∀ later ∈ outcome.1.branches, later.id = branch → later.state.isOutstanding = true) ∧
      (outcome.1.finished = true ∨
        ∃ later ∈ outcome.1.branches, later.id = branch ∧ later.state.isPending = false) := by
  obtain ⟨entry, member, rfl⟩ := List.mem_map.mp (step.cancels_sublist.subset cancelled)
  obtain ⟨updated, launched, moves⟩ := step.branchesMove coherent
  obtain ⟨next, nextState, move⟩ := moves.moves _ _ (inState_of_nodup unique member)
  -- A branch that is now cancelling is outstanding, and pending no more.
  have toCancelling : next = .cancelling →
      (∀ later ∈ outcome.1.branches, later.id = entry.id → later.state.isOutstanding = true) ∧
        (outcome.1.finished = true ∨
          ∃ later ∈ outcome.1.branches, later.id = entry.id ∧ later.state.isPending = false) := by
    rintro rfl
    constructor
    · intro later laterMember isBranch
      rcases moves.state_cases nextState laterMember isBranch with cancelling | new
      · rw [cancelling]; rfl
      · rw [new]; rfl
    · obtain ⟨later, laterMember, isBranch, cancelling⟩ := moves.exists_later nextState
      exact .inr ⟨later, laterMember, isBranch, by rw [cancelling]; rfl⟩
  generalize entryState : entry.state = state at move
  cases move with
  | stays _ _ kept => exact absurd cancelled kept
  | heard _ _ _ _ _ kept => exact absurd cancelled kept
  | released response saw inputEq isProvisional _ _ =>
      exact ⟨entry, member, saw, true, rfl, entryState, .inr ⟨response, inputEq, isProvisional⟩,
        toCancelling rfl⟩
  | concluded _ _ _ kept => exact absurd cancelled kept
  | stopped owed _ _ =>
      exact ⟨entry, member, true, owed, rfl, entryState, .inl rfl, toCancelling rfl⟩
  | withdrawn owed _ _ =>
      exact ⟨entry, member, true, owed, rfl, entryState, .inl rfl, toCancelling rfl⟩
  | queued _ _ kept => exact absurd cancelled kept
  | overtaken saw owed response other differs inputEq known overtakes _ =>
      subst inputEq
      simp only [overtakesHeard, known, overtakes, Bool.not_true, decide_true, Bool.false_or]
        at heard
      have sawIt := saw_of_othersHeard heard member
        (fun same => differs (Option.some.inj same).symm) entryState
      exact ⟨entry, member, saw, owed, rfl, entryState, .inl sawIt, toCancelling rfl⟩
  | dropped saw owed request requestEq concludes built finished _ =>
      have answerable := canAnswer_of_built requestEq built
      have allHeard : othersHeard context none = true := by
        cases concludes with
        | noTargets => simpa [overtakesHeard, answerable] using heard
        | unavailable => simpa [overtakesHeard, answerable] using heard
        | rejected awaiting => simpa [overtakesHeard, answerable, awaiting] using heard
      refine ⟨entry, member, saw, owed, rfl, entryState,
        .inl (saw_of_othersHeard allHeard member (by simp) entryState), ?_, .inl finished⟩
      intro later laterMember isBranch
      rcases moves.state_cases nextState laterMember isBranch with same | new
      · rw [same]; rfl
      · rw [new]; rfl

/-- A pending branch marked as heard from was marked before, or is heard from
now. -/
theorem Step.saw_cases {context : ResponseContext K.Uri} {input : Input K.Uri}
    {outcome : Outcome K.Uri} (step : Step K context input outcome) (coherent : Coherent context)
    (unique : (context.branches.map Branch.id).Nodup) {later : Branch} {owed : Bool}
    (member : later ∈ outcome.1.branches) (laterState : later.state = .pending true owed) :
    later.id ∈ context.branches.map Branch.id ∧
      ((∃ entry ∈ context.branches, ∃ queued, entry.id = later.id ∧
          entry.state = .pending true queued) ∨
        ∃ response, input = .branchResponse response later.id ∧
          response.status.isProvisional = true) := by
  obtain ⟨updated, launched, moves⟩ := step.branchesMove coherent
  rw [moves.branches] at member
  rcases List.mem_append.mp member with kept | new
  · have held : later.id ∈ context.branches.map Branch.id := by
      rw [← moves.ids]
      exact List.mem_map_of_mem kept
    refine ⟨held, ?_⟩
    obtain ⟨entry, entryMember, isBranch⟩ := List.mem_map.mp held
    obtain ⟨next, nextState, move⟩ := moves.moves _ _ (inState_of_nodup unique entryMember)
    have nextEq : next = .pending true owed := by
      rw [← nextState.uniform later kept isBranch.symm, laterState]
    generalize entryState : entry.state = state at move
    cases move with
    | stays _ _ _ => exact .inl ⟨entry, entryMember, owed, isBranch, entryState.trans nextEq⟩
    | heard response _ inputEq isProvisional _ _ =>
        rw [isBranch] at inputEq
        exact .inr ⟨response, inputEq, isProvisional⟩
    | dropped saw queued _ _ _ _ _ _ =>
        exact .inl ⟨entry, entryMember, owed, isBranch, entryState.trans nextEq⟩
    | queued _ _ _ => simp at nextEq
    | concluded _ _ _ _ => contradiction
    | released _ _ _ _ _ _ => contradiction
    | stopped _ _ _ => contradiction
    | withdrawn _ _ _ => contradiction
    | overtaken _ _ _ _ _ _ _ _ _ => contradiction
  · rw [moves.fresh later new] at laterState
    exact absurd (BranchState.pending.inj laterState).1 Bool.false_ne_true

/-- A branch that is not pending does not become pending. -/
theorem Step.settled_stays {context : ResponseContext K.Uri} {input : Input K.Uri}
    {outcome : Outcome K.Uri} (step : Step K context input outcome) (coherent : Coherent context)
    (unique : (context.branches.map Branch.id).Nodup) {entry : Branch}
    (member : entry ∈ context.branches) (settled : entry.state.isPending = false) :
    ∃ later ∈ outcome.1.branches, later.id = entry.id ∧ later.state.isPending = false := by
  obtain ⟨updated, launched, moves⟩ := step.branchesMove coherent
  obtain ⟨next, nextState, move⟩ := moves.moves _ _ (inState_of_nodup unique member)
  have nextSettled : next.isPending = false := by
    generalize entry.state = state at move settled
    cases move <;> first | exact settled | rfl
  obtain ⟨later, laterMember, isBranch, laterState⟩ := moves.exists_later nextState
  exact ⟨later, laterMember, isBranch, by rw [laterState]; exact nextSettled⟩

/-! ## Every run -/

/-- What a run that overtakes only branches it has heard from keeps. -/
structure Traced (config : ProxyConfig) (past : List (Input K.Uri)) : Prop where
  heard : ∀ entry ∈ (after (onInput K) (.new config) past).branches, ∀ owed,
    entry.state = .pending true owed → HeardFrom K config entry.id past
  spent : ∀ branch ∈ cancels (emitted (onInput K) (.new config) past),
    (after (onInput K) (.new config) past).finished = true ∨
      ∃ entry ∈ (after (onInput K) (.new config) past).branches,
        entry.id = branch ∧ entry.state.isPending = false
  once : (cancels (emitted (onInput K) (.new config) past)).Nodup

/-- A provisional received on a branch that is held is heard from it. -/
theorem heardFrom_of_provisional {config : ProxyConfig} {past : List (Input K.Uri)}
    {response : Response} {branch : BranchId}
    (isProvisional : response.status.isProvisional = true)
    (held : branch ∈ (after (onInput K) (.new config) past).branches.map Branch.id) :
    HeardFrom K config branch (past ++ [.branchResponse response branch]) := by
  rw [ids_after] at held
  exact happened_concat_iff.mpr (.inr ⟨response, rfl, isProvisional, held⟩)

theorem HeardFrom.concat {config : ProxyConfig} {branch : BranchId} {past : List (Input K.Uri)}
    (heard : HeardFrom K config branch past) (input : Input K.Uri) :
    HeardFrom K config branch (past ++ [input]) :=
  happened_concat_iff.mpr (.inl heard)

/-- One more step of such a run. -/
theorem Traced.concat {config : ProxyConfig} {past : List (Input K.Uri)} {input : Input K.Uri}
    (traced : Traced config past)
    (condition : OvertakesHeard K (after (onInput K) (.new config) past) input) :
    Traced config (past ++ [input]) := by
  have coherent := coherent_after config past
  cases finished : (after (onInput K) (.new config) past).finished with
  | true =>
      constructor <;> simp only [after_concat, emitted_concat, onInput_finished finished,
        List.append_nil]
      · exact fun entry member owed pending => (traced.heard entry member owed pending).concat input
      · exact traced.spent
      · exact traced.once
  | false =>
      obtain ⟨unique, overtakes⟩ := condition finished
      have step := onInput_step coherent finished input
      have spent : ∀ branch ∈ cancels (emitted (onInput K) (.new config) past),
          ∃ entry ∈ (after (onInput K) (.new config) past).branches,
            entry.id = branch ∧ entry.state.isPending = false := by
        intro branch member
        rcases traced.spent branch member with ended | held
        · rw [finished] at ended
          contradiction
        · exact held
      constructor <;> simp only [after_concat, emitted_concat, cancels_append]
      · intro later member owed pending
        obtain ⟨held, ⟨entry, entryMember, queued, sameId, entryState⟩ | ⟨response, rfl, heard⟩⟩ :=
          step.saw_cases coherent unique member pending
        · rw [← sameId]
          exact (traced.heard entry entryMember queued entryState).concat input
        · exact heardFrom_of_provisional heard held
      · intro branch member
        rcases List.mem_append.mp member with earlier | now
        · obtain ⟨entry, entryMember, rfl, settled⟩ := spent branch earlier
          exact .inr (step.settled_stays coherent unique entryMember settled)
        · obtain ⟨_, _, _, _, _, _, _, _, ended⟩ :=
            step.cancelled_cases coherent unique overtakes now
          exact ended
      · refine List.nodup_append.mpr ⟨traced.once, step.cancels_sublist.nodup unique, ?_⟩
        rintro branch earlier _ now rfl
        obtain ⟨entry, entryMember, isBranch, settled⟩ := spent branch earlier
        obtain ⟨other, otherMember, saw, owed, sameBranch, pending, _⟩ :=
          step.cancelled_cases coherent unique overtakes now
        rw [List.inj_on_of_nodup_map unique entryMember otherMember
          (isBranch.trans sameBranch.symm), pending] at settled
        contradiction

theorem traced_of_overtakesHeard {config : ProxyConfig} {inputs : List (Input K.Uri)}
    (along : Along (onInput K) (OvertakesHeard K) (.new config) inputs) : Traced config inputs :=
  (onInput K).history_induction (Traced config)
    ⟨fun _ member => by contradiction, fun _ member => by contradiction, List.nodup_nil⟩
    (fun _ _ traced condition => traced.concat condition) along

/-- A run that holds no two branches of one id, and overtakes none it has not
heard from, cancels soundly. -/
theorem cancelsSoundly_of_overtakesHeard {config : ProxyConfig} {inputs : List (Input K.Uri)}
    (along : Along (onInput K) (OvertakesHeard K) (.new config) inputs) :
    CancelsSoundly K config inputs := by
  have eachStep : ∀ past input future, inputs = past ++ input :: future →
      ∀ branch ∈ cancels (onInput K (after (onInput K) (.new config) past) input).2,
        (∀ entry ∈ (after (onInput K) (.new config) past).branches ++
            (onInput K (after (onInput K) (.new config) past) input).1.branches,
          entry.id = branch → entry.state.isOutstanding = true) ∧
        HeardFrom K config branch (past ++ [input]) := by
    intro past input future split branch cancelled
    obtain ⟨before, condition⟩ := along.at_step split
    have traced := traced_of_overtakesHeard before
    have coherent := coherent_after config past
    cases finished : (after (onInput K) (.new config) past).finished with
    | true =>
        rw [onInput_finished finished] at cancelled
        contradiction
    | false =>
        obtain ⟨unique, overtakes⟩ := condition finished
        have step := onInput_step coherent finished input
        obtain ⟨entry, member, saw, owed, rfl, pending, heard, outstanding, _⟩ :=
          step.cancelled_cases coherent unique overtakes cancelled
        constructor
        · intro other otherMember sameBranch
          rcases List.mem_append.mp otherMember with held | later
          · rw [List.inj_on_of_nodup_map unique held member sameBranch, pending]
            rfl
          · exact outstanding other later sameBranch
        · rcases heard with rfl | ⟨response, rfl, isProvisional⟩
          · exact (traced.heard entry member owed pending).concat input
          · exact heardFrom_of_provisional isProvisional (List.mem_map_of_mem member)
  exact ⟨(traced_of_overtakesHeard along).once,
    fun past input future split branch cancelled =>
      (eachStep past input future split branch cancelled).1,
    fun past input future split branch cancelled =>
      (eachStep past input future split branch cancelled).2⟩

/-- A 200 on one branch while the other is silent. -/
theorem not_cancelsSoundly_silent_sibling :
    ¬ CancelsSoundly Reference.kernel edge
      [.upstream invite,
        .targetsResolved [phone "sip:bob@10.0.0.1" 1000, phone "sip:bob@10.0.0.2" 1000],
        .branchResponse (reply ⟨200, by decide⟩ branchA) branchA] := by
  intro sound
  have cancelled : branchB ∈ cancels (onInput Reference.kernel
      (after (onInput Reference.kernel) (.new edge)
        [.upstream invite,
          .targetsResolved [phone "sip:bob@10.0.0.1" 1000, phone "sip:bob@10.0.0.2" 1000]])
      (.branchResponse (reply ⟨200, by decide⟩ branchA) branchA)).2 := by
    decide +kernel
  have heard := sound.heard _ _ [] rfl branchB cancelled
  obtain ⟨past, input, future, split, response, rfl, isProvisional, -⟩ := heard
  have member : (.branchResponse response branchB : Input Reference.kernel.Uri) ∈
      past ++ .branchResponse response branchB :: future := by simp
  rw [← split] at member
  simp [branchA, branchB, text] at member

/-- The same after a 180 on the other branch. -/
theorem cancelsSoundly_ringing_sibling :
    CancelsSoundly Reference.kernel edge
      [.upstream invite,
        .targetsResolved [phone "sip:bob@10.0.0.1" 1000, phone "sip:bob@10.0.0.2" 1000],
        .branchResponse (reply ⟨180, by decide⟩ branchB) branchB,
        .branchResponse (reply ⟨200, by decide⟩ branchA) branchA] :=
  cancelsSoundly_of_overtakesHeard (by decide +kernel)

end SipxClstr.Proxy
