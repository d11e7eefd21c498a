import SipxClstr.Proxy.Reachable

/-!
# The return path of a response

The `Via` rows of a response are its way back to the caller.  A response from a
branch carries ours on top of the caller's and has it popped once; a response
built here starts from the caller's and must not be popped.  The finals hold
both kinds, and selection pops whichever it picks.
-/

namespace SipxClstr.Proxy

open SipxClstr.Sip ResponseContext Reactive Reactive.Machine

/-- The `Via` rows of a response. -/
def viaRows (headers : Headers) : Headers :=
  Headers.getAll headers .via

variable (K : Kernel)

/-- The responses the branches of a run deliver. -/
def delivered (inputs : List (Input K.Uri)) : List Response :=
  inputs.filterMap fun
    | .branchResponse response _ => some response
    | _ => none

/-- Whether selection, if this step comes to it, picks a response a branch
delivered: not an aggregated challenge, and not a timeout built here. -/
def selectsDelivered (inputs : List (Input K.Uri)) (context : ResponseContext K.Uri)
    (input : Input K.Uri) : Bool :=
  match context.request.bind fun request => recordedBy K context request input with
  | none => true
  | some recorded =>
      context.finished || recorded.hasPending || recorded.mayForkNextGroup ||
        recorded.answered ||
          match recorded.bestFinal with
          | none => true
          | some best =>
              best = 503 || (best ≠ 401 && best ≠ 407 &&
                (recorded.finals.find? fun final => final.status.code = best).all fun final =>
                  final ∈ delivered K inputs)

variable {K}

theorem mem_delivered {inputs : List (Input K.Uri)} {response : Response} :
    response ∈ delivered K inputs ↔ ∃ branch, .branchResponse response branch ∈ inputs := by
  simp only [delivered, List.mem_filterMap]
  constructor
  · rintro ⟨input, member, found⟩
    cases input with
    | branchResponse received branch =>
        rw [Option.some.injEq] at found
        exact ⟨branch, found ▸ member⟩
    | _ => contradiction
  · rintro ⟨branch, member⟩
    exact ⟨_, member, rfl⟩

/-! ## One pop, and none -/

/-- Popping the topmost `Via` of a branch's response leaves the caller's. -/
theorem viaRows_popVia {response : Response} {own : Header} {caller : Headers}
    (returned : viaRows response.headers = own :: caller) :
    viaRows (popVia response).headers = caller := by
  simp only [viaRows, popVia, Headers.getAll_removeFirst]
  rw [show Headers.getAll response.headers .via = own :: caller from returned, List.tail_cons]

/-- A response built here has the `Via` rows of the request it answers. -/
theorem viaRows_buildResponse (responds : K.Responds) {request : Request K.Uri} {status : Nat}
    {reason : Text} {response : Response}
    (built : buildResponse K request status reason = some response) :
    viaRows response.headers = viaRows request.headers := by
  obtain ⟨code, -, answered⟩ := buildResponse_eq_some built
  exact responds.via request code reason response answered

theorem viaRows_refusalResponse (responds : K.Responds) {request : Request K.Uri}
    {refusal : Refusal} {response : Response}
    (refused : refusalResponse K request refusal = some response) :
    viaRows response.headers = viaRows request.headers := by
  simp only [refusalResponse, Option.bind_eq_bind, Option.bind_eq_some_iff, Option.pure_def,
    Option.some.injEq] at refused
  obtain ⟨status, -, base, built, extended⟩ := refused
  rw [← extended, ← viaRows_buildResponse responds built]
  -- V6 adds an `Unsupported` row and no other.
  unfold withUnsupported
  split
  · split
    · next tags header named =>
        have different : header.name ≠ .via := by
          rw [Header.build_name named]
          decide
        exact Headers.getAll_push_of_ne base.headers different
    · rfl
  · rfl

theorem viaRows_preprocess (request : Request K.Uri) (config : ProxyConfig) :
    viaRows (preprocess K request config).1.headers = viaRows request.headers :=
  getAll_preprocess (by decide) request config

/-! ## One step -/

/-- Whatever a tail sends has the request's `Via` rows, if what selection picks
has one more on top. -/
theorem Tail.viaRows_answers (responds : K.Responds) {context : ResponseContext K.Uri}
    {request : Request K.Uri} {outcome : Outcome K.Uri}
    (tail : Tail K context request outcome)
    (selected : ∀ best response, context.hasPending = false → context.mayForkNextGroup = false →
      context.answered = false → context.bestFinal = some best → best ≠ 503 →
        chosenFinal K context request best = some response →
          ∃ own, viaRows response.headers = own :: viaRows request.headers) :
    ∀ response ∈ answers outcome.2, viaRows response.headers = viaRows request.headers := by
  intro response sent
  cases tail with
  | waits _ => simp at sent
  | forks _ _ _ _ => simp at sent
  | exhausts _ _ _ =>
      rw [answers_respondAndFinish, Option.mem_toList] at sent
      exact viaRows_buildResponse responds sent
  | fails _ _ =>
      rw [answers_respondAndFinish, Option.mem_toList] at sent
      exact viaRows_buildResponse responds sent
  | selects best chosen settled noFork unanswered bestEq forwardable chosenEq =>
      have sentIs : response = popVia chosen := by simpa using sent
      obtain ⟨own, returned⟩ :=
        selected best chosen settled noFork unanswered bestEq forwardable chosenEq
      rw [sentIs]
      exact viaRows_popVia returned
  | ends _ _ => simp at sent

/-- The request a target set is taken up for is the caller's, `Via` rows and all. -/
theorem TakesTargets.viaRows_request {context targeted : ResponseContext K.Uri}
    {input : Input K.Uri} {request : Request K.Uri} {caller : Headers}
    (takes : TakesTargets K context input targeted request)
    (held : ∀ request, context.request = some request → viaRows request.headers = caller)
    (arrives : ∀ request, input = .upstream request → viaRows request.headers = caller) :
    viaRows request.headers = caller := by
  cases takes with
  | predetermined determines _ =>
      cases determines with
      | arrival arrived _ _ _ => rw [viaRows_preprocess]; exact arrives arrived rfl
      | verdict _ _ _ requestEq => exact held _ requestEq
  | resolved _ _ requestEq _ => exact held _ requestEq

/-- Everything a step sends carries exactly the caller's `Via` rows, if the step
does not select a final built here. -/
theorem Step.viaRows_answers (responds : K.Responds) {context : ResponseContext K.Uri}
    {input : Input K.Uri} {outcome : Outcome K.Uri} {caller : Headers}
    {inputs : List (Input K.Uri)} (step : Step K context input outcome)
    (unfinished : context.finished = false)
    (held : ∀ request, context.request = some request → viaRows request.headers = caller)
    (arrives : ∀ request, input = .upstream request → viaRows request.headers = caller)
    (returns : ∀ response ∈ delivered K inputs, ∃ own, viaRows response.headers = own :: caller)
    (member : input ∈ inputs) (selects : selectsDelivered K inputs context input = true) :
    ∀ response ∈ answers outcome.2, viaRows response.headers = caller := by
  intro response sent
  have popped : ∀ {received branch}, input = .branchResponse received branch →
      response = popVia received → viaRows response.headers = caller := by
    intro received branch inputEq sentIs
    obtain ⟨own, returned⟩ := returns received (mem_delivered.mpr ⟨branch, inputEq ▸ member⟩)
    rw [sentIs]
    exact viaRows_popVia returned
  cases step with
  | absorbed _ => simp at sent
  | premature _ _ => simp [terminate] at sent
  | minted _ => simp at sent
  | refused request refusal _ =>
      rw [(refuse_effects context request refusal).1, Option.mem_toList] at sent
      rw [viaRows_refusalResponse responds sent]
      exact arrives request rfl
  | held _ _ _ _ _ => simp at sent
  | asked _ _ => simp at sent
  | taken takes tail =>
      rw [← takes.viaRows_request held arrives]
      refine tail.viaRows_answers responds ?_ response sent
      -- A target set that was just taken up is forked, never selected over.
      intro best chosen _ noFork unanswered _ _ _
      have finished := takes.frame.finished.trans unfinished
      simp [mayForkNextGroup, unanswered, finished, takes.queued_ne_nil] at noFork
  | concluded requestEq _ =>
      rw [answers_respondAndFinish, Option.mem_toList] at sent
      rw [viaRows_buildResponse responds sent]
      exact held _ requestEq
  | provisional received branch request _ _ _ _ =>
      rw [(forwardProvisional_effects context request received branch).1,
        List.mem_singleton] at sent
      exact popped rfl sent
  | accepted received branch _ _ _ _ _ =>
      exact popped rfl (by simpa [cancelPending] using sent)
  | rejected received branch _ _ _ _ =>
      rw [finishIfSettled_rejected] at sent
      apply popped rfl
      split at sent <;> simpa [cancelPending] using sent
  | recorded requestEq records tail =>
      rw [← held _ requestEq]
      refine tail.viaRows_answers responds ?_ response sent
      intro best chosen settled noFork unanswered bestEq forwardable chosenEq
      simp only [selectsDelivered, requestEq, Option.bind_some, records.recordedBy_eq, unfinished,
        settled, noFork, unanswered, bestEq, Bool.false_or, Bool.or_eq_true, decide_eq_true_eq,
        forwardable, false_or, Bool.and_eq_true, ne_eq] at selects
      obtain ⟨⟨notUnauthorized, notProxy⟩, fromBranch⟩ := selects
      rw [chosenFinal, if_neg (by simp [notUnauthorized, notProxy])] at chosenEq
      rw [chosenEq] at fromBranch
      obtain ⟨own, returned⟩ := returns chosen (by simpa using fromBranch)
      exact ⟨own, by rw [returned, held _ requestEq]⟩
  | stopped _ _ => simp at sent
  | withdrawn => simp [(onUpstreamCancelled_effects context).1] at sent

/-! ## Every run -/

/-- In a run whose requests carry the caller's `Via` rows and whose branches
answer with ours on top of them, every response sent carries exactly the
caller's, as long as selection only picks responses that branches delivered. -/
theorem viaRows_answers_of_delivered (responds : K.Responds) (config : ProxyConfig)
    (inputs : List (Input K.Uri)) (caller : Headers)
    (arrives : ∀ request, .upstream request ∈ inputs → viaRows request.headers = caller)
    (returns : ∀ response ∈ delivered K inputs, ∃ own, viaRows response.headers = own :: caller)
    (selects : Along (onInput K) (fun context input =>
      selectsDelivered K inputs context input = true) (.new config) inputs) :
    ∀ response ∈ answers (emitted (onInput K) (.new config) inputs),
      viaRows response.headers = caller := by
  have invariant := step_induction (coherent_new config)
    (fun effects state =>
      (∀ request, state.request = some request → viaRows request.headers = caller) ∧
        ∀ response ∈ answers effects, viaRows response.headers = caller)
    ⟨by simp [ResponseContext.new], by simp⟩
    (fun effects state input outcome holds unfinished _
        (condition : selectsDelivered K inputs state input = true ∧ input ∈ inputs) step => by
      obtain ⟨held, sentEarlier⟩ := holds
      have arrivesNow : ∀ request, input = .upstream request →
          viaRows request.headers = caller := by
        intro request inputEq
        exact arrives request (inputEq ▸ condition.2)
      constructor
      · intro request heldNext
        rcases step.request_cases with same | ⟨arrived, inputEq, arrivedEq⟩
        · exact held request (same ▸ heldNext)
        · rw [arrivedEq, Option.some.injEq] at heldNext
          rw [← heldNext, viaRows_preprocess]
          exact arrivesNow arrived inputEq
      · intro response sent
        rw [answers_append, List.mem_append] at sent
        rcases sent with earlier | now
        · exact sentEarlier response earlier
        · exact step.viaRows_answers responds unfinished held arrivesNow returns condition.2
            condition.1 response now)
    (selects.and (along_of_inputs (onInput K) _ fun _ member => member))
  exact invariant.2

/-- The `408` that concludes a silent branch is built from the caller's request,
and popping its topmost `Via` takes the caller's own. -/
theorem not_viaRows_timeout :
    ¬ ∀ response ∈ answers (emitted (onInput Reference.kernel) (.new edge)
        [.upstream invite, .targetsResolved [phone "sip:bob@10.0.0.1" 1000],
          .timerFired .c (some branchA)]),
      viaRows response.headers = [callerVia] := by
  decide +kernel

/-- A busy first phone and a second one that fails: the `486` is selected and
returns to the caller. -/
theorem viaRows_busy :
    (answers (emitted (onInput Reference.kernel) (.new edge)
        [.upstream invite,
          .targetsResolved [phone "sip:bob@10.0.0.1" 1000, phone "sip:bob@10.0.0.2" 1000],
          .branchResponse (reply ⟨486, by decide⟩ branchA) branchA,
          .branchTransportError branchB])).map (fun response => viaRows response.headers) =
      List.replicate 1 [callerVia] := by
  rw [List.eq_replicate_iff]
  constructor
  · decide +kernel
  · intro rows member
    obtain ⟨response, sent, rfl⟩ := List.mem_map.mp member
    refine viaRows_answers_of_delivered Reference.kernel_responds edge _ [callerVia]
      ?_ ?_ ?_ response sent
    · intro request arrived
      simp only [List.mem_cons, Input.upstream.injEq, reduceCtorEq, List.not_mem_nil,
        or_false] at arrived
      rw [arrived]
      decide
    · intro final received
      have isBusy : final = reply ⟨486, by decide⟩ branchA := by
        simpa [delivered] using received
      rw [isBusy]
      exact ⟨_, rfl⟩
    · decide +kernel

end SipxClstr.Proxy
