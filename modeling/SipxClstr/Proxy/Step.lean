import SipxClstr.Proxy.Outcome

/-!
# What one step can do

Every step of a coherent, unfinished context is one of the moves listed here,
with the guards under which the source takes it.
-/

namespace SipxClstr.Proxy

open SipxClstr.Sip ResponseContext

/-- What a context remembers of its request, it remembers together. -/
structure Coherent {Uri : Type} (context : ResponseContext Uri) : Prop where
  validated : context.request.isSome = context.validated.isSome
  awaiting : context.awaitingVerdict = true → context.request.isSome = true
  branches : context.branches ≠ [] → context.request.isSome = true

theorem coherent_new {Uri : Type} (config : ProxyConfig) :
    Coherent (ResponseContext.new config : ResponseContext Uri) := by
  constructor <;> simp [ResponseContext.new]

theorem Coherent.exists_validated {Uri : Type} {context : ResponseContext Uri}
    (coherent : Coherent context) {request : Request Uri}
    (requestEq : context.request = some request) :
    ∃ validated, context.validated = some validated := by
  rw [← Option.isSome_iff_exists, ← coherent.validated, requestEq]
  rfl

/-! ## Moves -/

variable (K : Kernel)

/-- Whether the target set of a request is its Request-URI alone: it is within
a dialog, or a `Route` set survived preprocessing. -/
def isPredetermined (request : Request K.Uri) : Bool :=
  isInDialog K request || routeSetSurvived K request

/-- The context after a request is accepted and preprocessed. -/
def arrivedContext (context : ResponseContext K.Uri) (request : Request K.Uri)
    (validated : Validated) : ResponseContext K.Uri :=
  { context with
    request := some (preprocess K request context.config).1
    validated := some validated }

/-- Inputs that act on the request, and end a context that has none. -/
def NeedsRequest : Input K.Uri → Prop
  | .targetsResolved _ => True
  | .targetsUnavailable => True
  | .branchResponse _ _ => True
  | .branchTransportError _ => True
  | _ => False

/-- Inputs the source absorbs: a response or failure of a branch it does not
know, a `100`, a verdict nobody asked for, and a Timer C with no pending
branch. -/
def Absorbs (context : ResponseContext K.Uri) : Input K.Uri → Prop
  | .branchResponse response branch =>
      context.request.isSome = true ∧ (context.knows branch = false ∨ response.status.code = 100)
  | .branchTransportError branch => context.request.isSome = true ∧ context.knows branch = false
  | .tokenFact _ => context.awaitingVerdict = false
  | .timerFired .c branch => branch.bind context.sawProvisional = none
  | _ => False

/-- Target determination begins: the request arrived without a token, or the
verdict on its token is `Valid`. -/
inductive Determines (context : ResponseContext K.Uri) :
    Input K.Uri → ResponseContext K.Uri → Request K.Uri → Prop where
  | arrival (request : Request K.Uri) (validated : Validated)
      (accepted : validate K request context.config = .ok validated)
      (untokened : (preprocess K request context.config).2 = none) :
      Determines context (.upstream request) (arrivedContext K context request validated)
        (preprocess K request context.config).1
  | verdict (request : Request K.Uri) (tenant : Text)
      (awaiting : context.awaitingVerdict = true) (requestEq : context.request = some request) :
      Determines context (.tokenFact (.valid tenant)) { context with awaitingVerdict := false }
        request

/-- A target set is taken up: its first group is forked from this context. -/
inductive TakesTargets (context : ResponseContext K.Uri) :
    Input K.Uri → ResponseContext K.Uri → Request K.Uri → Prop where
  | predetermined {input : Input K.Uri} {determined : ResponseContext K.Uri}
      {request : Request K.Uri} (determines : Determines K context input determined request)
      (isPredetermined : isPredetermined K request = true) :
      TakesTargets context input
        { determined with queued := [predeterminedTarget K request] } request
  | resolved (request : Request K.Uri) (targets : List Target)
      (requestEq : context.request = some request) (nonempty : targets ≠ []) :
      TakesTargets context (.targetsResolved targets)
        { context with queued := orderByQ targets } request

/-- The context is concluded by an answer built here. -/
inductive Concludes (context : ResponseContext K.Uri) :
    Input K.Uri → ResponseContext K.Uri → Nat → Text → Prop where
  | noTargets : Concludes context (.targetsResolved []) context 480 (text "Temporarily Unavailable")
  | unavailable : Concludes context .targetsUnavailable context 503 (text "Service Unavailable")
  | rejected (awaiting : context.awaitingVerdict = true) :
      Concludes context (.tokenFact .invalid) { context with awaitingVerdict := false } 403
        (text "Forbidden")

/-- A branch's final is recorded, received or built here. -/
inductive Records (context : ResponseContext K.Uri) (request : Request K.Uri) :
    Input K.Uri → BranchId → ResponseContext K.Uri → Prop where
  | received (response : Response) (branch : BranchId) (known : context.knows branch = true)
      (final : response.status.isProvisional = false) (forwardable : response.status.code ≠ 503)
      (notAccepted : ¬ (response.status.hundreds = 2 ∧ request.method = .invite))
      (notRejected : response.status.hundreds ≠ 6) :
      Records context request (.branchResponse response branch) branch
        { context.concludeBranch branch response.status.code with
          finals := context.finals ++ [response] }
  | unavailable (response : Response) (branch : BranchId) (known : context.knows branch = true)
      (failed : response.status.code = 503) :
      Records context request (.branchResponse response branch) branch
        (recordBuilt K context request branch 503 (text "Service Unavailable"))
  | failed (branch : BranchId) (known : context.knows branch = true) :
      Records context request (.branchTransportError branch) branch
        (recordBuilt K context request branch 503 (text "Service Unavailable"))
  | silent (branch : BranchId) (silent : context.sawProvisional branch = some false) :
      Records context request (.timerFired .c (some branch)) branch
        (recordBuilt K context request branch 408 (text "Request Timeout"))

/-- The context a target set is taken up in, and the request it is taken up for,
if this input brings one. -/
def targetedBy (context : ResponseContext K.Uri) :
    Input K.Uri → Option (ResponseContext K.Uri × Request K.Uri)
  | .targetsResolved targets =>
      if targets.isEmpty then none
      else context.request.map fun request => ({ context with queued := orderByQ targets }, request)
  | .upstream request =>
      match validate K request context.config with
      | .error _ => none
      | .ok validated =>
          let preprocessed := (preprocess K request context.config).1
          if (preprocess K request context.config).2.isNone && isPredetermined K preprocessed then
            some ({ arrivedContext K context request validated with
              queued := [predeterminedTarget K preprocessed] }, preprocessed)
          else
            none
  | .tokenFact (.valid _) =>
      (context.request.filter fun request => context.awaitingVerdict && isPredetermined K request).map
        fun request =>
          ({ context with awaitingVerdict := false, queued := [predeterminedTarget K request] },
            request)
  | _ => none

/-- The context with the branch's final recorded, if this input brings one that
selection takes up. -/
def recordedBy (context : ResponseContext K.Uri) (request : Request K.Uri) :
    Input K.Uri → Option (ResponseContext K.Uri)
  | .branchResponse response branch =>
      if !context.knows branch || response.status.isProvisional then none
      else if response.status.code = 503 then
        some (recordBuilt K context request branch 503 (text "Service Unavailable"))
      else if response.status.hundreds = 2 ∧ request.method = .invite then none
      else if response.status.hundreds = 6 then none
      else some { context.concludeBranch branch response.status.code with
        finals := context.finals ++ [response] }
  | .branchTransportError branch =>
      if context.knows branch then
        some (recordBuilt K context request branch 503 (text "Service Unavailable"))
      else none
  | .timerFired .c (some branch) =>
      if context.sawProvisional branch = some false then
        some (recordBuilt K context request branch 408 (text "Request Timeout"))
      else none
  | _ => none

/-- R5: the branch is concluded, the context answered and its target set over. -/
def acceptedContext (context : ResponseContext K.Uri) (response : Response) (branch : BranchId) :
    ResponseContext K.Uri :=
  { context.concludeBranch branch response.status.code with answered := true, queued := [] }

/-- R6: the same, with the response among the finals. -/
def rejectedContext (context : ResponseContext K.Uri) (response : Response) (branch : BranchId) :
    ResponseContext K.Uri :=
  { context.concludeBranch branch response.status.code with
    finals := context.finals ++ [response]
    answered := true
    queued := [] }

variable {K} in
/-- After a 6xx nothing is queued, so the context ends unless a branch it cancelled
is outstanding. -/
theorem finishIfSettled_rejected (context : ResponseContext K.Uri) (response : Response)
    (branch : BranchId) :
    (rejectedContext K context response branch).cancelPending.1.finishIfSettled =
      if (rejectedContext K context response branch).cancelPending.1.hasPending then
        ((rejectedContext K context response branch).cancelPending.1, [])
      else
        ({ (rejectedContext K context response branch).cancelPending.1 with finished := true },
          [.terminate]) :=
  finishIfSettled_of_queued_nil rfl

/-- One step of an unfinished context. -/
inductive Step (context : ResponseContext K.Uri) : Input K.Uri → Outcome K.Uri → Prop where
  | absorbed {input : Input K.Uri} (absorbs : Absorbs K context input) :
      Step context input (context, [])
  | premature {input : Input K.Uri} (needs : NeedsRequest K input)
      (absent : context.request = none) :
      Step context input context.terminate
  | minted (tokens : RecordRouteTokens) :
      Step context (.tokensMinted tokens) ({ context with tokens := some tokens }, [])
  | refused (request : Request K.Uri) (refusal : Refusal)
      (rejected : validate K request context.config = .error refusal) :
      Step context (.upstream request) (refuse K context request refusal)
  | held (request : Request K.Uri) (validated : Validated) (carriage : TokenCarriage)
      (accepted : validate K request context.config = .ok validated)
      (tokened : (preprocess K request context.config).2 = some carriage) :
      Step context (.upstream request)
        ({ arrivedContext K context request validated with awaitingVerdict := true },
          [.verifyToken carriage.token carriage.partner])
  | asked {input : Input K.Uri} {determined : ResponseContext K.Uri} {request : Request K.Uri}
      (determines : Determines K context input determined request)
      (open_ : isPredetermined K request = false) :
      Step context input (determined, [.resolveTargets (aorQuery K request)])
  | taken {input : Input K.Uri} {targeted : ResponseContext K.Uri} {request : Request K.Uri}
      {outcome : Outcome K.Uri} (takes : TakesTargets K context input targeted request)
      (tail : Tail K targeted request outcome) :
      Step context input outcome
  | concluded {input : Input K.Uri} {concluded : ResponseContext K.Uri} {request : Request K.Uri}
      {status : Nat} {reason : Text} (requestEq : context.request = some request)
      (concludes : Concludes K context input concluded status reason) :
      Step context input (respondAndFinish K concluded request status reason)
  | provisional (response : Response) (branch : BranchId) (request : Request K.Uri)
      (requestEq : context.request = some request) (known : context.knows branch = true)
      (notTrying : response.status.code ≠ 100)
      (isProvisional : response.status.isProvisional = true) :
      Step context (.branchResponse response branch)
        (forwardProvisional K context request response branch)
  | accepted (response : Response) (branch : BranchId) (request : Request K.Uri)
      (requestEq : context.request = some request) (known : context.knows branch = true)
      (success : response.status.hundreds = 2) (isInvite : request.method = .invite) :
      Step context (.branchResponse response branch)
        ((acceptedContext K context response branch).cancelPending.1,
          .respond (popVia response) ::
            (acceptedContext K context response branch).cancelPending.2)
  | rejected (response : Response) (branch : BranchId) (request : Request K.Uri)
      (requestEq : context.request = some request) (known : context.knows branch = true)
      (global : response.status.hundreds = 6) :
      Step context (.branchResponse response branch)
        ((rejectedContext K context response branch).cancelPending.1.finishIfSettled.1,
          .respond (popVia response) ::
            (rejectedContext K context response branch).cancelPending.2 ++
              (rejectedContext K context response branch).cancelPending.1.finishIfSettled.2)
  | recorded {input : Input K.Uri} {branch : BranchId} {recorded : ResponseContext K.Uri}
      {request : Request K.Uri} {outcome : Outcome K.Uri}
      (requestEq : context.request = some request)
      (records : Records K context request input branch recorded)
      (tail : Tail K recorded request outcome) :
      Step context input outcome
  | stopped (branch : BranchId) (stuck : context.sawProvisional branch = some true) :
      Step context (.timerFired .c (some branch))
        (context.setCancelling branch, [.cancelBranch branch])
  | withdrawn : Step context .upstreamCancelled (onUpstreamCancelled context)

variable {K}

/-! ## Every step is a move -/

/-- What every way of taking up or dropping a request leaves as it is. -/
structure Frame (before after : ResponseContext K.Uri) : Prop where
  config : after.config = before.config
  branches : after.branches = before.branches
  finals : after.finals = before.finals
  answered : after.answered = before.answered
  finished : after.finished = before.finished

theorem Determines.frame {context determined : ResponseContext K.Uri} {input : Input K.Uri}
    {request : Request K.Uri} (determines : Determines K context input determined request) :
    Frame context determined := by
  cases determines <;> exact ⟨rfl, rfl, rfl, rfl, rfl⟩

theorem Determines.request_eq {context determined : ResponseContext K.Uri} {input : Input K.Uri}
    {request : Request K.Uri} (determines : Determines K context input determined request) :
    determined.request = some request := by
  cases determines with
  | arrival _ _ _ _ => rfl
  | verdict _ _ _ requestEq => exact requestEq

theorem Determines.exists_validated {context determined : ResponseContext K.Uri}
    {input : Input K.Uri} {request : Request K.Uri} (coherent : Coherent context)
    (determines : Determines K context input determined request) :
    ∃ validated, determined.validated = some validated := by
  cases determines with
  | arrival _ validated _ _ => exact ⟨validated, rfl⟩
  | verdict _ _ _ requestEq => exact coherent.exists_validated requestEq

theorem TakesTargets.frame {context targeted : ResponseContext K.Uri} {input : Input K.Uri}
    {request : Request K.Uri} (takes : TakesTargets K context input targeted request) :
    Frame context targeted := by
  cases takes with
  | predetermined determines _ =>
      have frame := determines.frame
      exact ⟨frame.config, frame.branches, frame.finals, frame.answered, frame.finished⟩
  | resolved _ _ _ _ => exact ⟨rfl, rfl, rfl, rfl, rfl⟩

theorem TakesTargets.request_eq {context targeted : ResponseContext K.Uri} {input : Input K.Uri}
    {request : Request K.Uri} (takes : TakesTargets K context input targeted request) :
    targeted.request = some request := by
  cases takes with
  | predetermined determines _ => exact determines.request_eq
  | resolved _ _ requestEq _ => exact requestEq

/-- A target set that is taken up is not empty. -/
theorem TakesTargets.queued_ne_nil {context targeted : ResponseContext K.Uri} {input : Input K.Uri}
    {request : Request K.Uri} (takes : TakesTargets K context input targeted request) :
    targeted.queued ≠ [] := by
  cases takes with
  | predetermined _ _ => exact List.cons_ne_nil _ _
  | resolved _ targets _ nonempty =>
      intro empty
      have length := List.length_insertionSort (fun first second => second.q ≤ first.q) targets
      rw [show targets.insertionSort (fun first second => second.q ≤ first.q) = [] from empty]
        at length
      exact nonempty (List.length_eq_zero_iff.mp length.symm)

theorem TakesTargets.exists_validated {context targeted : ResponseContext K.Uri}
    {input : Input K.Uri} {request : Request K.Uri} (coherent : Coherent context)
    (takes : TakesTargets K context input targeted request) :
    ∃ validated, targeted.validated = some validated := by
  cases takes with
  | predetermined determines _ =>
      obtain ⟨validated, validatedEq⟩ := determines.exists_validated coherent
      exact ⟨validated, validatedEq⟩
  | resolved _ _ requestEq _ => exact coherent.exists_validated requestEq

theorem Concludes.frame {context concluded : ResponseContext K.Uri} {input : Input K.Uri}
    {status : Nat} {reason : Text} (concludes : Concludes K context input concluded status reason) :
    Frame context concluded := by
  cases concludes <;> exact ⟨rfl, rfl, rfl, rfl, rfl⟩

/-- Recording a final concludes its branch and touches nothing but the branches
and the finals. -/
theorem Records.frame {context recorded : ResponseContext K.Uri} {request : Request K.Uri}
    {input : Input K.Uri} {branch : BranchId}
    (records : Records K context request input branch recorded) :
    ∃ status final, recorded =
      { context.concludeBranch branch status with finals := context.finals ++ final } := by
  cases records with
  | received response _ _ _ _ _ _ => exact ⟨_, _, rfl⟩
  | unavailable _ _ _ _ => exact ⟨_, _, rfl⟩
  | failed _ _ => exact ⟨_, _, rfl⟩
  | silent _ _ => exact ⟨_, _, rfl⟩

theorem TakesTargets.targetedBy_eq {context targeted : ResponseContext K.Uri}
    {input : Input K.Uri} {request : Request K.Uri}
    (takes : TakesTargets K context input targeted request) :
    targetedBy K context input = some (targeted, request) := by
  cases takes with
  | predetermined determines isPredetermined =>
      cases determines with
      | arrival arrived validated accepted untokened =>
          simp [targetedBy, accepted, untokened, isPredetermined]
      | verdict _ tenant awaiting requestEq =>
          simp [targetedBy, awaiting, requestEq, isPredetermined]
  | resolved _ targets requestEq nonempty => simp [targetedBy, requestEq, nonempty]

theorem Records.recordedBy_eq {context recorded : ResponseContext K.Uri} {request : Request K.Uri}
    {input : Input K.Uri} {branch : BranchId}
    (records : Records K context request input branch recorded) :
    recordedBy K context request input = some recorded := by
  cases records with
  | received response _ known final forwardable notAccepted notRejected =>
      simp [recordedBy, known, final, forwardable, notAccepted, notRejected]
  | unavailable response _ known failed =>
      have final : response.status.isProvisional = false := by
        simp [StatusCode.isProvisional, StatusCode.hundreds, failed]
      simp [recordedBy, known, final, failed]
  | failed _ known => simp [recordedBy, known]
  | silent _ silent => simp [recordedBy, silent]

/-- Taking up a target set forks its first group or answers. -/
theorem TakesTargets.step {context targeted : ResponseContext K.Uri} {input : Input K.Uri}
    {request : Request K.Uri} (coherent : Coherent context)
    (takes : TakesTargets K context input targeted request) :
    Step K context input (forkNextGroup K targeted) := by
  obtain ⟨validated, validatedEq⟩ := takes.exists_validated coherent
  exact .taken takes (forkNextGroup_tail takes.request_eq validatedEq takes.queued_ne_nil)

/-- A recorded final is followed by the shared tail. -/
theorem Records.step {context recorded : ResponseContext K.Uri} {request : Request K.Uri}
    {input : Input K.Uri} {branch : BranchId} (coherent : Coherent context)
    (requestEq : context.request = some request)
    (records : Records K context request input branch recorded) :
    Step K context input (continueSelection K recorded request) := by
  obtain ⟨validated, validatedEq⟩ := coherent.exists_validated requestEq
  obtain ⟨status, final, recordedEq⟩ := records.frame
  have sameRequest : recorded.request = some request := by rw [recordedEq]; exact requestEq
  have sameValidated : recorded.validated = some validated := by rw [recordedEq]; exact validatedEq
  exact .recorded requestEq records (continueSelection_tail sameRequest sameValidated)

theorem routeIt_step {context determined : ResponseContext K.Uri} {input : Input K.Uri}
    {request : Request K.Uri} (coherent : Coherent context)
    (determines : Determines K context input determined request) :
    Step K context input (routeIt K determined) := by
  have requestEq := determines.request_eq
  by_cases predetermined : isPredetermined K request = true
  · have routed : routeIt K determined =
        forkNextGroup K { determined with queued := [predeterminedTarget K request] } := by
      have sorted : orderByQ [predeterminedTarget K request] = [predeterminedTarget K request] := by
        simp [orderByQ]
      have taken : onTargets K determined [predeterminedTarget K request] =
          forkNextGroup K { determined with queued := [predeterminedTarget K request] } := by
        simp [onTargets, requestEq, sorted]
      rcases Bool.or_eq_true_iff.mp predetermined with inDialog | routes
      · simp only [routeIt, requestEq, inDialog, if_true, taken]
      · simp only [routeIt, requestEq, routes, if_true, taken, ite_self]
    rw [routed]
    exact TakesTargets.step coherent (.predetermined determines predetermined)
  · have open_ : isPredetermined K request = false := by simpa using predetermined
    have notBoth := open_
    simp only [isPredetermined, Bool.or_eq_false_iff] at notBoth
    have routed : routeIt K determined =
        (determined, [.resolveTargets (aorQuery K request)]) := by
      simp [routeIt, requestEq, notBoth.1, notBoth.2]
    rw [routed]
    exact .asked determines open_

theorem onUpstream_step {context : ResponseContext K.Uri} (coherent : Coherent context)
    (request : Request K.Uri) :
    Step K context (.upstream request) (onUpstream K context request) := by
  unfold onUpstream
  cases verdict : validate K request context.config with
  | error refusal => exact .refused request refusal verdict
  | ok validated =>
      simp only
      cases carried : (preprocess K request context.config).2 with
      | none => exact routeIt_step coherent (.arrival request validated verdict carried)
      | some carriage => exact .held request validated carriage verdict carried

theorem onToken_step {context : ResponseContext K.Uri} (coherent : Coherent context)
    (verdict : TokenVerdict) :
    Step K context (.tokenFact verdict) (onToken K context verdict) := by
  unfold onToken
  cases awaiting : context.awaitingVerdict with
  | false => exact .absorbed awaiting
  | true =>
      obtain ⟨request, requestEq⟩ :=
        Option.isSome_iff_exists.mp (coherent.awaiting awaiting)
      cases verdict with
      | valid tenant => exact routeIt_step coherent (.verdict request tenant awaiting requestEq)
      | invalid =>
          have rejected : rejectToken K { context with awaitingVerdict := false } =
              respondAndFinish K { context with awaitingVerdict := false } request 403
                (text "Forbidden") := by
            simp [rejectToken, requestEq]
          simp only [Bool.not_true, Bool.false_eq_true, if_false, rejected]
          exact .concluded requestEq (.rejected awaiting)

theorem onTargets_step {context : ResponseContext K.Uri} (coherent : Coherent context)
    (targets : List Target) :
    Step K context (.targetsResolved targets) (onTargets K context targets) := by
  cases requestEq : context.request with
  | none =>
      have ended : onTargets K context targets = context.terminate := by
        simp [onTargets, requestEq]
      rw [ended]
      exact .premature trivial requestEq
  | some request =>
      cases targets with
      | nil =>
          have answered : onTargets K context [] = respondAndFinish K context request 480
              (text "Temporarily Unavailable") := by
            simp [onTargets, requestEq]
          rw [answered]
          exact .concluded requestEq .noTargets
      | cons target rest =>
          have forked : onTargets K context (target :: rest) =
              forkNextGroup K { context with queued := orderByQ (target :: rest) } := by
            simp [onTargets, requestEq]
          rw [forked]
          exact TakesTargets.step coherent
            (.resolved request (target :: rest) requestEq (List.cons_ne_nil _ _))

theorem onTargetsUnavailable_step (context : ResponseContext K.Uri) :
    Step K context .targetsUnavailable (onTargetsUnavailable K context) := by
  unfold onTargetsUnavailable
  cases requestEq : context.request with
  | none => exact .premature trivial requestEq
  | some request => exact .concluded requestEq .unavailable

theorem onBranchFailure_step {context : ResponseContext K.Uri} (coherent : Coherent context)
    (branch : BranchId) :
    Step K context (.branchTransportError branch) (onBranchFailure K context branch) := by
  unfold onBranchFailure
  cases requestEq : context.request with
  | none => exact .premature trivial requestEq
  | some request =>
      cases known : context.knows branch with
      | false => exact .absorbed ⟨by simp [requestEq], known⟩
      | true => exact Records.step coherent requestEq (.failed branch known)

theorem onBranchResponse_step {context : ResponseContext K.Uri} (coherent : Coherent context)
    (response : Response) (branch : BranchId) :
    Step K context (.branchResponse response branch)
      (onBranchResponse K context response branch) := by
  unfold onBranchResponse
  cases requestEq : context.request with
  | none => exact .premature trivial requestEq
  | some request =>
      have some_ : context.request.isSome = true := by simp [requestEq]
      cases known : context.knows branch with
      | false => exact .absorbed ⟨some_, .inl known⟩
      | true =>
          simp only [Bool.not_true, Bool.false_eq_true, if_false]
          by_cases trying : response.status.code = 100
          · rw [if_pos trying]
            exact .absorbed ⟨some_, .inr trying⟩
          rw [if_neg trying]
          cases isProvisional : response.status.isProvisional with
          | true =>
              exact .provisional response branch request requestEq known trying isProvisional
          | false =>
              simp only [Bool.false_eq_true, if_false]
              by_cases failed : response.status.code = 503
              · have failure : onBranchFailure K context branch = continueSelection K
                    (recordBuilt K context request branch 503 (text "Service Unavailable"))
                    request := by
                  simp [onBranchFailure, requestEq, known]
                rw [if_pos failed, failure]
                exact Records.step coherent requestEq (.unavailable response branch known failed)
              rw [if_neg failed]
              by_cases success : response.status.hundreds = 2 ∧ request.method = .invite
              · rw [if_pos success]
                exact .accepted response branch request requestEq known success.1 success.2
              rw [if_neg success]
              by_cases global : response.status.hundreds = 6
              · rw [if_pos global]
                exact .rejected response branch request requestEq known global
              · rw [if_neg global]
                exact Records.step coherent requestEq
                  (.received response branch known isProvisional failed success global)

theorem knows_of_sawProvisional {Uri : Type} {context : ResponseContext Uri} {branch : BranchId}
    {saw : Bool} (pending : context.sawProvisional branch = some saw) :
    ∃ entry ∈ context.branches, entry.id = branch ∧ ∃ owed, entry.state = .pending saw owed := by
  obtain ⟨entry, member, found⟩ := List.exists_of_findSome?_eq_some pending
  split at found
  · next isBranch =>
      refine ⟨entry, member, isBranch, ?_⟩
      cases state : entry.state with
      | pending seen owed =>
          rw [state] at found
          exact ⟨owed, by rw [Option.some.inj found]⟩
      | concluded status =>
          rw [state] at found
          contradiction
      | cancelling =>
          rw [state] at found
          contradiction
  · contradiction

theorem onTimerC_step {context : ResponseContext K.Uri} (coherent : Coherent context)
    (branch : Option BranchId) :
    Step K context (.timerFired .c branch) (onTimerC K context branch) := by
  cases branch with
  | none => exact .absorbed rfl
  | some branch =>
      unfold onTimerC
      simp only
      cases pending : context.sawProvisional branch with
      | none => exact .absorbed pending
      | some saw =>
          cases saw with
          | true => exact .stopped branch pending
          | false =>
              obtain ⟨entry, member, -⟩ := knows_of_sawProvisional pending
              obtain ⟨request, requestEq⟩ :=
                Option.isSome_iff_exists.mp (coherent.branches (List.ne_nil_of_mem member))
              simp only [concludeAsTimeout, requestEq]
              exact Records.step coherent requestEq (.silent branch pending)

/-- Every step of a coherent, unfinished context is one of the moves. -/
theorem onInput_step {context : ResponseContext K.Uri} (coherent : Coherent context)
    (unfinished : context.finished = false) (input : Input K.Uri) :
    Step K context input (onInput K context input) := by
  have notFinished : ¬ context.finished = true := by simp [unfinished]
  unfold onInput
  rw [if_neg notFinished]
  cases input with
  | upstream request => exact onUpstream_step coherent request
  | branchResponse response branch => exact onBranchResponse_step coherent response branch
  | branchTransportError branch => exact onBranchFailure_step coherent branch
  | targetsResolved targets => exact onTargets_step coherent targets
  | targetsUnavailable => exact onTargetsUnavailable_step context
  | tokenFact verdict => exact onToken_step coherent verdict
  | tokensMinted tokens => exact .minted tokens
  | timerFired timer branch => exact onTimerC_step coherent branch
  | upstreamCancelled => exact .withdrawn

/-- A finished context takes nothing in. -/
theorem onInput_finished {context : ResponseContext K.Uri} (finished : context.finished = true)
    (input : Input K.Uri) : onInput K context input = (context, []) := by
  simp [onInput, finished]

end SipxClstr.Proxy
