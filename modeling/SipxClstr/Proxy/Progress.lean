import SipxClstr.Proxy.Reachable

/-!
# Progress

A context that has sent no final response and is not over should have something
outstanding that will drive it on: a verdict, a lookup or a branch.  Forking
skips the targets no copy can be built for, so a group of which nothing goes out
leaves it with nothing.
-/

namespace SipxClstr.Proxy

open SipxClstr.Sip ResponseContext Reactive Reactive.Machine

/-- An effect that asks for the verdict on a token. -/
def AsksVerdict {Uri : Type} : Effect Uri → Prop
  | .verifyToken _ _ => True
  | _ => False

/-- An input that answers it. -/
def AnswersVerdict {Uri : Type} : Input Uri → Prop
  | .tokenFact _ => True
  | _ => False

/-- An effect that asks the location service for targets. -/
def AsksTargets {Uri : Type} : Effect Uri → Prop
  | .resolveTargets _ => True
  | _ => False

/-- An input that answers it. -/
def AnswersTargets {Uri : Type} : Input Uri → Prop
  | .targetsResolved _ => True
  | .targetsUnavailable => True
  | _ => False

instance {Uri : Type} : (effect : Effect Uri) → Decidable (AsksVerdict effect)
  | .verifyToken _ _ => .isTrue trivial
  | .respond _ | .forward _ _ _ _ | .cancelBranch _ | .answerCancel | .resolveTargets _
  | .setTimer _ _ _ | .clearTimer _ _ | .terminate => .isFalse id

variable (K : Kernel)

/-- Whether a copy can be built for some target of the next group. -/
def canForward (context : ResponseContext K.Uri) (request : Request K.Uri)
    (validated : Validated) : Bool :=
  let group := nextGroup K context validated
  group.zipIdx.any fun (target, offset) =>
    (forward K (forkPlan K context request validated group.length offset target)
      context.config).isOk

/-- Whether the next group, if this context forks one, keeps it moving: a copy
can be built, or a branch is outstanding anyway, or a verdict is, or the context
has answered, or nothing was ever forwarded and the group is the whole queue. -/
def groupMoves (context : ResponseContext K.Uri) (request : Request K.Uri) : Bool :=
  context.queued.isEmpty || context.hasPending || context.awaitingVerdict || context.answered ||
    context.validated.all fun validated =>
      canForward K context request validated ||
        (context.branches.isEmpty &&
          groupSize context.queued validated.maxBreadth = context.queued.length)

/-- Whether a group this step forks keeps the context moving. -/
def keepsMoving (context : ResponseContext K.Uri) (input : Input K.Uri) : Bool :=
  (targetedBy K context input).all (fun (targeted, request) => groupMoves K targeted request) &&
    context.request.all fun request =>
      (recordedBy K context request input).all fun recorded => groupMoves K recorded request

/-- At this step an unfinished context forks no group that would stall it. -/
def StaysMoving (context : ResponseContext K.Uri) (input : Input K.Uri) : Prop :=
  context.finished = false → keepsMoving K context input = true

instance (context : ResponseContext K.Uri) (input : Input K.Uri) :
    Decidable (StaysMoving K context input) :=
  inferInstanceAs (Decidable (_ → _))

/-- Once a request has arrived, the context is over, has sent a final response,
or has a verdict, a lookup or a branch outstanding. -/
def Driven (config : ProxyConfig) (inputs : List (Input K.Uri)) : Prop :=
  (∃ request, .upstream request ∈ inputs) →
    (after (onInput K) (.new config) inputs).finished = true ∨
      (∃ response ∈ answers (emitted (onInput K) (.new config) inputs),
        200 ≤ response.status.code) ∨
      Outstanding (onInput K) AsksVerdict AnswersVerdict (.new config) inputs ∨
      Outstanding (onInput K) AsksTargets AnswersTargets (.new config) inputs ∨
      (after (onInput K) (.new config) inputs).hasPending = true

variable {K}

/-! ## Forking a group of which something goes out -/

/-- A group launches nothing exactly when no copy of it can be built. -/
theorem launch_eq_nil_iff (config : ProxyConfig) (plan : Nat → Target → ForwardPlan K.Uri)
    (offset : Nat) (group : List Target) :
    (launch K config plan offset group).2 = [] ↔
      (group.zipIdx offset).any (fun (target, index) => (forward K (plan index target) config).isOk)
        = false := by
  induction group generalizing offset with
  | nil => simp [launch]
  | cons target rest ih =>
      unfold launch
      cases copy : forward K (plan offset target) config with
      | error refused => simpa [copy, Except.isOk, Except.toBool] using ih (offset + 1)
      | ok built => simp [copy, Except.isOk, Except.toBool]

/-- A group of which something goes out leaves a branch pending. -/
theorem hasPending_of_launched {context : ResponseContext K.Uri} {request : Request K.Uri}
    {validated : Validated} (launched : (launchGroup K context request validated).2 ≠ []) :
    (forkedContext K context request validated).hasPending = true := by
  obtain ⟨entry, member⟩ := List.exists_mem_of_ne_nil _ launched
  have pending := launch_pending _ _ _ _ entry member
  simp only [hasPending, List.any_eq_true]
  exact ⟨entry, List.mem_append_right _ member, by rw [pending]; rfl⟩

/-- A group that keeps its context moving leaves it driven: over, answered,
waiting for a verdict or with a branch outstanding. -/
theorem Tail.driven {context : ResponseContext K.Uri} {request : Request K.Uri}
    {outcome : Outcome K.Uri} (tail : Tail K context request outcome)
    (moves : groupMoves K context request = true) :
    outcome.1.finished = true ∨ outcome.1.answered = true ∨
      outcome.1.awaitingVerdict = true ∨ outcome.1.hasPending = true := by
  cases tail with
  | waits pending => exact .inr (.inr (.inr pending))
  | forks validated validatedEq queued inFlight =>
      have notEmpty : context.queued.isEmpty = false := by simpa using queued
      simp only [groupMoves, notEmpty, validatedEq, Option.all_some, Bool.false_or,
        Bool.or_eq_true] at moves
      rcases moves with ((pending | awaiting) | answered) | forwards | exhausted
      · refine .inr (.inr (.inr ?_))
        simp only [hasPending, List.any_eq_true] at pending ⊢
        obtain ⟨entry, member, outstanding⟩ := pending
        exact ⟨entry, List.mem_append_left _ member, outstanding⟩
      · exact .inr (.inr (.inl awaiting))
      · exact .inr (.inl answered)
      · -- Some copy is built, so some branch goes out, and it is pending.
        have launched : (launchGroup K context request validated).2 ≠ [] := by
          intro none_launched
          have none_built := (launch_eq_nil_iff _ _ _ _).mp none_launched
          rw [canForward] at forwards
          rw [none_built] at forwards
          contradiction
        exact .inr (.inr (.inr (hasPending_of_launched launched)))
      · -- Nothing was forwarded and nothing is left, so something went out now.
        simp only [Bool.and_eq_true, List.isEmpty_iff, decide_eq_true_eq] at exhausted
        have noTargets : (forkedContext K context request validated).queued = [] := by
          simp [forkedContext, exhausted.2]
        have launched : (launchGroup K context request validated).2 ≠ [] := by
          intro none_launched
          exact inFlight ⟨by simp [forkedContext, exhausted.1, none_launched], noTargets⟩
        exact .inr (.inr (.inr (hasPending_of_launched launched)))
  | exhausts _ _ _ => exact .inl (by rw [respondAndFinish_fst])
  | fails _ _ => exact .inl (by rw [respondAndFinish_fst])
  | selects _ _ _ _ _ _ _ _ => exact .inl rfl
  | ends _ _ => exact .inl rfl

/-! ## One step -/

/-- Something drives the context that its state alone shows: it is over, it has
answered, or a verdict or a branch is outstanding. -/
def IsActive {Uri : Type} (context : ResponseContext Uri) : Prop :=
  context.finished = true ∨ context.answered = true ∨ context.awaitingVerdict = true ∨
    context.hasPending = true

/-- A change that keeps a branch owing its final keeps the context active. -/
theorem hasPending_updateBranch {Uri : Type} {context : ResponseContext Uri} {branch : BranchId}
    {change : BranchState → BranchState}
    (owes : ∀ state, BranchState.isOutstanding state = true → (change state).isOutstanding = true)
    (pending : context.hasPending = true) :
    (context.updateBranch branch change).hasPending = true := by
  simp only [hasPending, List.any_eq_true] at pending ⊢
  obtain ⟨entry, member, outstanding⟩ := pending
  refine ⟨_, List.mem_map_of_mem member, ?_⟩
  split
  · exact owes entry.state outstanding
  · exact outstanding

theorem hasPending_cancelOrQueue {Uri : Type} (pending : List (BranchId × Bool))
    {context : ResponseContext Uri} (outstanding : context.hasPending = true) :
    (cancelOrQueue context pending).1.hasPending = true := by
  induction pending generalizing context with
  | nil => exact outstanding
  | cons entry rest ih =>
      obtain ⟨branch, saw⟩ := entry
      cases saw with
      | true => exact ih (hasPending_updateBranch (fun _ _ => rfl) outstanding)
      | false =>
          refine ih (hasPending_updateBranch (fun state owes => ?_) outstanding)
          cases state <;> exact owes

theorem hasPending_forwardProvisional {context : ResponseContext K.Uri} {request : Request K.Uri}
    {response : Response} {branch : BranchId} (pending : context.hasPending = true) :
    (forwardProvisional K context request response branch).1.hasPending = true := by
  have marked : (context.markProvisional branch).1.hasPending = true := by
    refine hasPending_updateBranch (fun state owes => ?_) pending
    cases state <;> exact owes
  rw [forwardProvisional_fst]
  split
  · exact hasPending_updateBranch (fun _ _ => rfl) marked
  · exact marked

/-- Whatever changes only branches, and keeps one owing its final, keeps the
context active. -/
theorem SameButBranches.isActive {Uri : Type} {before after : ResponseContext Uri}
    (same : SameButBranches before after)
    (pending : before.hasPending = true → after.hasPending = true) (active : IsActive before) :
    IsActive after := by
  rcases active with finished | answered | awaiting | outstanding
  · exact .inl (same.finished.trans finished)
  · exact .inr (.inl (same.answered.trans answered))
  · exact .inr (.inr (.inl (same.awaitingVerdict.trans awaiting)))
  · exact .inr (.inr (.inr (pending outstanding)))

/-- A step that keeps its context moving leaves it active, asks for targets, or
neither answers for targets nor brings a request and changes nothing that
drives it. -/
theorem Step.isActive {context : ResponseContext K.Uri} {input : Input K.Uri}
    {outcome : Outcome K.Uri} (step : Step K context input outcome)
    (moves : keepsMoving K context input = true) :
    IsActive outcome.1 ∨ (∃ effect ∈ outcome.2, AsksTargets effect) ∨
      (¬ AnswersTargets input ∧ (∀ request, input ≠ .upstream request) ∧
        (IsActive context → IsActive outcome.1)) := by
  simp only [keepsMoving, Bool.and_eq_true] at moves
  obtain ⟨targetsMove, recordsMove⟩ := moves
  cases step with
  | absorbed absorbs =>
      refine .inr (.inr ⟨?_, ?_, id⟩)
      · cases input <;> simp_all [Absorbs, AnswersTargets]
      · rintro request rfl
        exact absorbs
  | premature _ _ => exact .inl (.inl rfl)
  | minted _ => exact .inr (.inr ⟨id, by simp, id⟩)
  | refused _ _ _ => exact .inl (.inl (by rw [refuse_fst]))
  | held _ _ _ _ _ => exact .inl (.inr (.inr (.inl rfl)))
  | asked _ _ => exact .inr (.inl ⟨_, List.mem_singleton_self _, trivial⟩)
  | taken takes tail =>
      rw [takes.targetedBy_eq, Option.all_some] at targetsMove
      exact .inl (tail.driven targetsMove)
  | concluded _ _ => exact .inl (.inl (by rw [respondAndFinish_fst]))
  | provisional response branch request _ _ _ _ =>
      have same := sameButBranches_forwardProvisional context request response branch
      exact .inr (.inr ⟨id, by simp, same.isActive hasPending_forwardProvisional⟩)
  | accepted _ _ _ _ _ _ _ => exact .inl (.inr (.inl rfl))
  | rejected response branch _ _ _ _ =>
      rw [finishIfSettled_rejected]
      refine .inl (.inr (.inl ?_))
      split <;> rfl
  | recorded requestEq records tail =>
      rw [requestEq, Option.all_some, records.recordedBy_eq, Option.all_some] at recordsMove
      exact .inl (tail.driven recordsMove)
  | stopped branch _ =>
      have same : SameButBranches context (context.setCancelling branch) :=
        sameButBranches_updateBranch context branch _
      exact .inr (.inr ⟨id, by simp,
        same.isActive (hasPending_updateBranch fun _ _ => rfl)⟩)
  | withdrawn =>
      have same := sameButBranches_onUpstreamCancelled context
      refine .inr (.inr ⟨id, by simp, fun active => same.isActive ?_ active⟩)
      exact hasPending_cancelOrQueue _

theorem Tail.answered_cases {context : ResponseContext K.Uri} {request : Request K.Uri}
    {outcome : Outcome K.Uri} (tail : Tail K context request outcome)
    (answered : outcome.1.answered = true) :
    context.answered = true ∨ outcome.1.finished = true := by
  cases tail with
  | waits _ => exact .inl answered
  | forks _ _ _ _ => exact .inl answered
  | exhausts _ _ _ => exact .inr (by rw [respondAndFinish_fst])
  | fails _ _ => exact .inr (by rw [respondAndFinish_fst])
  | selects _ _ _ _ _ _ _ _ => exact .inr rfl
  | ends _ _ => exact .inr rfl

/-- A step that answers without ending the context sends a final response. -/
theorem Step.answered_cases {context : ResponseContext K.Uri} {input : Input K.Uri}
    {outcome : Outcome K.Uri} (step : Step K context input outcome)
    (answered : outcome.1.answered = true) :
    context.answered = true ∨ outcome.1.finished = true ∨
      ∃ response ∈ answers outcome.2, 200 ≤ response.status.code := by
  cases step with
  | absorbed _ => exact .inl answered
  | premature _ _ => exact .inl answered
  | minted _ => exact .inl answered
  | refused _ _ _ => exact .inr (.inl (by rw [refuse_fst]))
  | held _ _ _ _ _ => exact .inl answered
  | asked determines _ =>
      rw [determines.frame.answered] at answered
      exact .inl answered
  | taken takes tail =>
      rcases tail.answered_cases answered with before | ended
      · rw [takes.frame.answered] at before
        exact .inl before
      · exact .inr (.inl ended)
  | concluded _ _ => exact .inr (.inl (by rw [respondAndFinish_fst]))
  | provisional response branch request _ _ _ _ =>
      rw [(sameButBranches_forwardProvisional context request response branch).answered] at answered
      exact .inl answered
  | accepted response _ _ _ _ success _ =>
      refine .inr (.inr ⟨popVia response, by simp, ?_⟩)
      simp only [StatusCode.hundreds] at success
      show 200 ≤ response.status.code
      omega
  | rejected response _ _ _ _ global =>
      refine .inr (.inr ⟨popVia response, by simp, ?_⟩)
      simp only [StatusCode.hundreds] at global
      show 200 ≤ response.status.code
      omega
  | recorded _ records tail =>
      obtain ⟨status, final, recordedEq⟩ := records.frame
      rcases tail.answered_cases answered with before | ended
      · rw [recordedEq] at before
        exact .inl before
      · exact .inr (.inl ended)
  | stopped _ _ => exact .inl answered
  | withdrawn =>
      rw [(sameButBranches_onUpstreamCancelled context).answered] at answered
      exact .inl answered

/-- A step that leaves a context awaiting a verdict asks for it, or found it
awaiting one and did not bring it. -/
theorem Step.awaiting_cases {context : ResponseContext K.Uri} {input : Input K.Uri}
    {outcome : Outcome K.Uri} (step : Step K context input outcome)
    (unfinished : outcome.1.finished = false) (awaiting : outcome.1.awaitingVerdict = true) :
    (∃ effect ∈ outcome.2, AsksVerdict effect) ∨
      (context.awaitingVerdict = true ∧ ¬ AnswersVerdict input) := by
  have determined : ∀ {middle : ResponseContext K.Uri} {request : Request K.Uri},
      Determines K context input middle request → middle.awaitingVerdict = true →
        context.awaitingVerdict = true ∧ ¬ AnswersVerdict input := by
    intro middle request determines awaits
    cases determines with
    | arrival _ _ _ _ => exact ⟨awaits, id⟩
    | verdict _ _ _ _ => contradiction
  cases step with
  | absorbed absorbs =>
      refine .inr ⟨awaiting, fun answers => ?_⟩
      cases input <;> simp_all [AnswersVerdict, Absorbs]
  | premature needs _ => contradiction
  | minted _ => exact .inr ⟨awaiting, id⟩
  | refused _ _ _ =>
      rw [refuse_fst] at unfinished
      contradiction
  | held _ _ _ _ _ => exact .inl ⟨_, List.mem_singleton_self _, trivial⟩
  | asked determines _ => exact .inr (determined determines awaiting)
  | taken takes tail =>
      rw [tail.request_eq.2.2.2] at awaiting
      cases takes with
      | predetermined determines _ => exact .inr (determined determines awaiting)
      | resolved _ _ _ _ => exact .inr ⟨awaiting, id⟩
  | concluded _ _ =>
      rw [respondAndFinish_fst] at unfinished
      contradiction
  | provisional response branch request _ _ _ _ =>
      rw [(sameButBranches_forwardProvisional context request response branch).awaitingVerdict]
        at awaiting
      exact .inr ⟨awaiting, id⟩
  | accepted _ _ _ _ _ _ _ => exact .inr ⟨awaiting, id⟩
  | rejected response branch _ _ _ _ =>
      refine .inr ⟨?_, id⟩
      rw [finishIfSettled_rejected] at awaiting
      split at awaiting <;> exact awaiting
  | recorded _ records tail =>
      rw [tail.request_eq.2.2.2] at awaiting
      right
      cases records <;> exact ⟨awaiting, id⟩
  | stopped _ _ => exact .inr ⟨awaiting, id⟩
  | withdrawn =>
      rw [(sameButBranches_onUpstreamCancelled context).awaitingVerdict] at awaiting
      exact .inr ⟨awaiting, id⟩

/-! ## Every run -/

/-- An answered context is over or has sent a final response. -/
theorem final_of_answered (config : ProxyConfig) (inputs : List (Input K.Uri))
    (answered : (after (onInput K) (.new config) inputs).answered = true) :
    (after (onInput K) (.new config) inputs).finished = true ∨
      ∃ response ∈ answers (emitted (onInput K) (.new config) inputs),
        200 ≤ response.status.code := by
  revert answered
  refine step_induction (coherent_new config)
    (fun effects state => state.answered = true →
      state.finished = true ∨ ∃ response ∈ answers effects, 200 ≤ response.status.code)
    (fun answered => by contradiction)
    (fun effects state input outcome sent unfinished _ _ step answered => ?_)
    (along_of_forall (onInput K) (fun _ _ => trivial) _ inputs)
  rw [answers_append]
  rcases step.answered_cases answered with before | ended | ⟨response, member, final⟩
  · obtain ⟨response, member, final⟩ := (sent before).resolve_left (by simp [unfinished])
    exact .inr ⟨response, List.mem_append_left _ member, final⟩
  · exact .inl ended
  · exact .inr ⟨response, List.mem_append_right _ member, final⟩

/-- An unfinished context that awaits a verdict has asked for it. -/
theorem outstanding_of_awaiting (config : ProxyConfig) (inputs : List (Input K.Uri))
    (unfinished : (after (onInput K) (.new config) inputs).finished = false)
    (awaiting : (after (onInput K) (.new config) inputs).awaitingVerdict = true) :
    Outstanding (onInput K) AsksVerdict AnswersVerdict (.new config) inputs := by
  induction inputs using List.reverseRecOn with
  | nil => contradiction
  | append_singleton past input ih =>
      have coherent := coherent_after config past
      rw [after_concat] at unfinished awaiting
      cases finished : (after (onInput K) (.new config) past).finished with
      | true =>
          rw [onInput_finished finished, finished] at unfinished
          contradiction
      | false =>
          rcases (onInput_step coherent finished input).awaiting_cases unfinished awaiting with
            asked | ⟨before, unanswered⟩
          · exact (outstanding_concat_iff _).mpr (.inl asked)
          · exact (outstanding_concat_iff _).mpr (.inr ⟨ih finished before, unanswered⟩)

/-- Once a request has arrived, a run whose groups keep their contexts moving
leaves the context active or waiting for targets. -/
theorem isActive_after {config : ProxyConfig} {inputs : List (Input K.Uri)}
    (moves : Along (onInput K) (StaysMoving K) (.new config) inputs)
    (arrived : ∃ request, .upstream request ∈ inputs) :
    IsActive (after (onInput K) (.new config) inputs) ∨
      Outstanding (onInput K) AsksTargets AnswersTargets (.new config) inputs := by
  refine (onInput K).history_induction
    (fun past => (∃ request, .upstream request ∈ past) →
      IsActive (after (onInput K) (.new config) past) ∨
        Outstanding (onInput K) AsksTargets AnswersTargets (.new config) past)
    (fun ⟨_, member⟩ => by contradiction) (fun past input earlier keeps arrived => ?_) moves arrived
  have coherent := coherent_after config past
  rw [after_concat]
  cases finished : (after (onInput K) (.new config) past).finished with
  | true => exact .inl (.inl (by rw [onInput_finished finished, finished]))
  | false =>
      rcases (onInput_step coherent finished input).isActive (keeps finished) with
        active | asked | ⟨unanswered, notArrival, preserved⟩
      · exact .inl active
      · exact .inr ((outstanding_concat_iff _).mpr (.inl asked))
      · obtain ⟨request, member⟩ := arrived
        rcases List.mem_append.mp member with before | now
        · rcases earlier ⟨request, before⟩ with active | waiting
          · exact .inl (preserved active)
          · exact .inr ((outstanding_concat_iff _).mpr (.inr ⟨waiting, unanswered⟩))
        · exact absurd (List.mem_singleton.mp now).symm (notArrival request)

/-- A run whose groups keep their contexts moving never stalls. -/
theorem driven_of_staysMoving {config : ProxyConfig} {inputs : List (Input K.Uri)}
    (moves : Along (onInput K) (StaysMoving K) (.new config) inputs) :
    Driven K config inputs := by
  intro arrived
  rcases isActive_after moves arrived with (ended | answered | awaiting | pending) | waiting
  · exact .inl ended
  · rcases final_of_answered config inputs answered with ended | sent
    · exact .inl ended
    · exact .inr (.inl sent)
  · cases finished : (after (onInput K) (.new config) inputs).finished with
    | true => exact .inl rfl
    | false => exact .inr (.inr (.inl (outstanding_of_awaiting config inputs finished awaiting)))
  · exact .inr (.inr (.inr (.inr pending)))
  · exact .inr (.inr (.inr (.inl waiting)))

/-- The only target of the first group has no URI: nothing goes out, and the
second group waits for a branch that is not there. -/
theorem not_driven_unbuildable_group :
    ¬ Driven Reference.kernel edge
      [.upstream invite,
        .targetsResolved [phone "" 1000, phone "sip:bob@10.0.0.2" 500]] := by
  intro driven
  have silent : (onInput Reference.kernel
      (after (onInput Reference.kernel) (.new edge) [.upstream invite])
      (.targetsResolved [phone "" 1000, phone "sip:bob@10.0.0.2" 500])).2.isEmpty = true := by
    decide +kernel
  rcases driven ⟨invite, by simp⟩ with ended | sent | verdict | targets | pending
  · revert ended
    decide +kernel
  · revert sent
    decide +kernel
  · rcases (outstanding_concat_iff _).mp (show Outstanding _ _ _ _ ([_] ++ [_]) from verdict) with
      ⟨effect, member, _⟩ | ⟨asked, _⟩
    · rw [List.isEmpty_iff.mp silent] at member
      contradiction
    · rcases (outstanding_concat_iff _).mp (show Outstanding _ _ _ _ ([] ++ [_]) from asked) with
        asking | ⟨earlier, _⟩
      · revert asking
        decide +kernel
      · exact not_outstanding_nil _ _ _ _ earlier
  · rcases (outstanding_concat_iff _).mp (show Outstanding _ _ _ _ ([_] ++ [_]) from targets) with
      ⟨effect, member, _⟩ | ⟨_, unanswered⟩
    · rw [List.isEmpty_iff.mp silent] at member
      contradiction
    · exact unanswered trivial
  · revert pending
    decide +kernel

/-- A target that cannot be forwarded to beside one that can. -/
theorem driven_unbuildable_target :
    Driven Reference.kernel edge
      [.upstream invite,
        .targetsResolved [phone "" 1000, phone "sip:bob@10.0.0.1" 1000,
          phone "sip:bob@10.0.0.2" 500]] :=
  driven_of_staysMoving (by decide +kernel)

end SipxClstr.Proxy
