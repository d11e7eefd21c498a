import SipxClstr.Proxy.Forward
import SipxClstr.Reactive.Run
import Mathlib.Data.List.MinMax
import Mathlib.Data.List.Sort
import Mathlib.Data.Prod.Lex

/-!
# The response context

One server transaction and its branches: a state machine with inputs in and
ordered effects out.  Each handler takes the context and returns the context it
leaves together with the effects to perform.
-/

namespace SipxClstr.Proxy

open SipxClstr.Sip

/-- How one branch is doing. -/
inductive BranchState where
  /-- Forwarded, nothing final yet.  `sawProvisional` says whether any 101–199
  has arrived; `cancelQueued` that a CANCEL is owed but cannot be sent yet. -/
  | pending (sawProvisional cancelQueued : Bool)
  /-- Concluded with this final status. -/
  | concluded (status : Nat)
  /-- Cancelled by us, waiting for its `487`. -/
  | cancelling
  deriving DecidableEq, Repr

namespace BranchState

/-- Forwarded and neither concluded nor cancelled. -/
def isPending : BranchState → Bool
  | .pending _ _ => true
  | _ => false

/-- A CANCEL becomes owed, if the branch is pending. -/
def queueCancel : BranchState → BranchState
  | .pending sawProvisional _ => .pending sawProvisional true
  | state => state

/-- A provisional arrived, if the branch is pending; nothing is owed any more. -/
def markProvisional : BranchState → BranchState
  | .pending _ _ => .pending true false
  | state => state

/-- Still owing a final: pending or cancelling. -/
def isOutstanding : BranchState → Bool
  | .pending _ _ => true
  | .cancelling => true
  | .concluded _ => false

end BranchState

/-- One forwarded copy, in the order the copies were forwarded. -/
structure Branch where
  id : BranchId
  state : BranchState
  target : Target
  deriving DecidableEq

/-- One proxied request, from arrival to the response that concludes it. -/
structure ResponseContext (Uri : Type) where
  config : ProxyConfig
  request : Option (Request Uri)
  validated : Option Validated
  branches : List Branch
  /-- Targets not yet tried. -/
  queued : List Target
  /-- Every final response a branch produced. -/
  finals : List Response
  answered : Bool
  finished : Bool
  tokens : Option RecordRouteTokens
  /-- Set while the verdict on a carried token is outstanding. -/
  awaitingVerdict : Bool

/-- The context a handler leaves, and the effects it emits. -/
abbrev Outcome (Uri : Type) := ResponseContext Uri × List (Effect Uri)

namespace ResponseContext

variable {Uri : Type}

/-- A context for a proxy with this configuration. -/
def new (config : ProxyConfig) : ResponseContext Uri where
  config := config
  request := none
  validated := none
  branches := []
  queued := []
  finals := []
  answered := false
  finished := false
  tokens := none
  awaitingVerdict := false

/-! ## Branches -/

/-- Whether a branch of this id was forwarded. -/
def knows (context : ResponseContext Uri) (branch : BranchId) : Bool :=
  context.branches.any fun entry => entry.id = branch

/-- The ids of the pending branches, in order. -/
def pendingBranchIds (context : ResponseContext Uri) : List BranchId :=
  (context.branches.filter fun entry => entry.state.isPending).map Branch.id

/-- Whether any branch still owes a final. -/
def hasPending (context : ResponseContext Uri) : Bool :=
  context.branches.any fun entry => entry.state.isOutstanding

/-- Change the state of every branch of an id. -/
def updateBranch (context : ResponseContext Uri) (branch : BranchId)
    (change : BranchState → BranchState) : ResponseContext Uri :=
  { context with
    branches := context.branches.map fun entry =>
      if entry.id = branch then { entry with state := change entry.state } else entry }

def concludeBranch (context : ResponseContext Uri) (branch : BranchId) (status : Nat) :
    ResponseContext Uri :=
  context.updateBranch branch fun _ => .concluded status

def setCancelling (context : ResponseContext Uri) (branch : BranchId) : ResponseContext Uri :=
  context.updateBranch branch fun _ => .cancelling

/-- A CANCEL becomes owed to a pending branch. -/
def queueCancel (context : ResponseContext Uri) (branch : BranchId) : ResponseContext Uri :=
  context.updateBranch branch .queueCancel

/-- Whether a CANCEL is owed to the branch: what `mark_provisional` releases. -/
def cancelOwed (context : ResponseContext Uri) (branch : BranchId) : Bool :=
  context.branches.foldl (fun release entry =>
    if entry.id = branch then
      match entry.state with
      | .pending _ cancelQueued => cancelQueued
      | _ => release
    else
      release) false

/-- Record that a branch produced a provisional, and whether a queued CANCEL is
now sendable. -/
def markProvisional (context : ResponseContext Uri) (branch : BranchId) :
    ResponseContext Uri × Bool :=
  (context.updateBranch branch .markProvisional, context.cancelOwed branch)

/-- Whether the first pending branch of this id saw a provisional; `none` when
no branch of this id is pending. -/
def sawProvisional (context : ResponseContext Uri) (branch : BranchId) : Option Bool :=
  context.branches.findSome? fun entry =>
    if entry.id = branch then
      match entry.state with
      | .pending saw _ => some saw
      | _ => none
    else
      none

/-- R11: forwarding the chosen final cancels every still-pending branch. -/
def cancelPending (context : ResponseContext Uri) : Outcome Uri :=
  let ids := context.pendingBranchIds
  ({ context with
      branches := context.branches.map fun entry =>
        if entry.id ∈ ids then { entry with state := .cancelling } else entry },
    ids.map Effect.cancelBranch)

/-! ## Concluding -/

/-- R12/C7: the target set is over. -/
def concludeTargetSet (context : ResponseContext Uri) : ResponseContext Uri :=
  { context with queued := [] }

/-- Whether a queued group may still go out. -/
def mayForkNextGroup (context : ResponseContext Uri) : Bool :=
  !context.queued.isEmpty && !context.answered && !context.finished

def terminate (context : ResponseContext Uri) : Outcome Uri :=
  ({ context with finished := true }, [.terminate])

def finishIfSettled (context : ResponseContext Uri) : Outcome Uri :=
  if context.hasPending || context.mayForkNextGroup then
    (context, [])
  else
    ({ context with finished := true }, [.terminate])

end ResponseContext

open ResponseContext

variable (K : Kernel)

/-- A response built here rather than received from a branch. -/
def buildResponse (request : Request K.Uri) (status : Nat) (reason : Text) : Option Response := do
  let status ← StatusCode.new status
  K.toRequest request status reason

/-- R2: pop the topmost `Via`, which is ours. -/
def popVia (response : Response) : Response :=
  { response with headers := Headers.removeFirst response.headers .via }

/-- §8.1's within-class rank: lower is preferred. -/
def withinClassRank (status : Nat) : Nat :=
  match status with
  | 401 | 407 | 415 | 420 | 484 => 1
  | 480 | 486 => 2
  | _ => 3

/-- R7's order: the class, then the within-class rank, then the code. -/
def rankKey (status : Nat) : Nat ×ₗ Nat ×ₗ Nat :=
  toLex (status / 100, toLex (withinClassRank status, status))

/-- The status of least rank; the first of several that tie. -/
def bestStatus (statuses : List Nat) : Option Nat :=
  statuses.argmin rankKey

/-- The status R7 selects among the finals received. -/
def ResponseContext.bestFinal {Uri : Type} (context : ResponseContext Uri) : Option Nat :=
  bestStatus (context.finals.map fun response => response.status.code)

/-- Whether a request would establish a dialog. -/
def isDialogForming (request : Request K.Uri) : Bool :=
  request.method = .invite && !isInDialog K request

/-- V6's refusal names the offending tags. -/
def withUnsupported (response : Response) : Refusal → Response
  | .badExtension tags =>
      match Header.build K .unsupported (utf8 (List.intercalate (text ", ") tags)) with
      | some header => { response with headers := Headers.push response.headers header }
      | none => response
  | _ => response

/-- What answers a refused request: nothing when it is unanswerable. -/
def refusalResponse (request : Request K.Uri) (refusal : Refusal) : Option Response := do
  let status ← refusal.status
  let response ← buildResponse K request status refusal.reason
  return withUnsupported K response refusal

def refuse (context : ResponseContext K.Uri) (request : Request K.Uri) (refusal : Refusal) :
    Outcome K.Uri :=
  let finished := { context with finished := true }
  match refusalResponse K request refusal with
  | some response => (finished, [.respond response, .terminate])
  | none => (finished, [.terminate])

def respondAndFinish (context : ResponseContext K.Uri) (request : Request K.Uri)
    (status : Nat) (reason : Text) : Outcome K.Uri :=
  let concluded := { context with answered := true, finished := true }
  match buildResponse K request status reason with
  | some response =>
      (concluded,
        .respond response :: concluded.pendingBranchIds.map .cancelBranch ++ [.terminate])
  | none => (concluded, [.terminate])

/-! ## Forwarding -/

/-- Build and record one copy for each target of a group.  `offset` counts the
targets tried, whether or not their copy could be built. -/
def launch (config : ProxyConfig) (plan : Nat → Target → ForwardPlan K.Uri) :
    Nat → List Target → List (Effect K.Uri) × List Branch
  | _, [] => ([], [])
  | offset, target :: rest =>
      let later := launch config plan (offset + 1) rest
      match forward K (plan offset target) config with
      | .error _ => later
      | .ok (branch, forwarded, nextHop) =>
          -- Timer C guards INVITE branches, and is armed after its Forward.
          let timer :=
            if (plan offset target).original.method = .invite then
              [.setTimer .c (some branch) config.effectiveTimerC]
            else []
          (.forward branch forwarded target nextHop :: timer ++ later.1,
            { id := branch, state := .pending false false, target } :: later.2)

/-- How many targets of the queue go out together: the leading `q` group, capped
by `Max-Breadth`. -/
def groupSize (queued : List Target) (maxBreadth : Nat) : Nat :=
  let leadingQ := (queued.head?.map Target.q).getD 0
  min (queued.findIdx fun target => target.q ≠ leadingQ) (max maxBreadth 1)

/-- What each copy of a group is built from. -/
def forkPlan (context : ResponseContext K.Uri) (request : Request K.Uri) (validated : Validated)
    (parallel : Nat) (offset : Nat) (target : Target) : ForwardPlan K.Uri where
  original := request
  validated := validated
  target := target
  index := context.branches.length + offset
  parallelBranches := min parallel u32Max
  recordRoute := isDialogForming K request
  tokens := context.tokens

/-- Forward the next `q` group in parallel. -/
def forkNextGroup (context : ResponseContext K.Uri) : Outcome K.Uri :=
  match context.request, context.validated with
  | some request, some validated =>
      if context.queued.isEmpty then
        (context, [])
      else
        let split := groupSize context.queued validated.maxBreadth
        let group := context.queued.take split
        let (effects, launched) :=
          launch K context.config (forkPlan K context request validated group.length) 0 group
        let forked := { context with
          queued := context.queued.drop split
          branches := context.branches ++ launched }
        if forked.branches.isEmpty && forked.queued.isEmpty then
          respondAndFinish K forked request 480 (text "Temporarily Unavailable")
        else
          (forked, effects)
  | _, _ => context.terminate

/-- Descending `q`, ties in the order they arrived. -/
def orderByQ (targets : List Target) : List Target :=
  targets.insertionSort fun first second => second.q ≤ first.q

def onTargets (context : ResponseContext K.Uri) (targets : List Target) : Outcome K.Uri :=
  match context.request with
  | none => context.terminate
  | some request =>
      if targets.isEmpty then
        respondAndFinish K context request 480 (text "Temporarily Unavailable")
      else
        forkNextGroup K { context with queued := orderByQ targets }

/-- The location service could not answer, which is not an empty target set. -/
def onTargetsUnavailable (context : ResponseContext K.Uri) : Outcome K.Uri :=
  match context.request with
  | none => context.terminate
  | some request => respondAndFinish K context request 503 (text "Service Unavailable")

/-! ## Arrival and the token verdict -/

/-- Target determination, once nothing is outstanding that could forbid it. -/
def routeIt (context : ResponseContext K.Uri) : Outcome K.Uri :=
  match context.request with
  | none => context.terminate
  | some request =>
      if isInDialog K request then
        onTargets K context [predeterminedTarget K request]
      else if routeSetSurvived K request then
        onTargets K context [predeterminedTarget K request]
      else
        (context, [.resolveTargets (aorQuery K request)])

def onUpstream (context : ResponseContext K.Uri) (request : Request K.Uri) : Outcome K.Uri :=
  match validate K request context.config with
  | .error refusal => refuse K context request refusal
  | .ok validated =>
      let (preprocessed, carriage) := preprocess K request context.config
      let arrived := { context with request := some preprocessed, validated := some validated }
      match carriage with
      | some { token, partner } =>
          ({ arrived with awaitingVerdict := true }, [.verifyToken token partner])
      | none => routeIt K arrived

/-- P3's answer: a hard reject. -/
def rejectToken (context : ResponseContext K.Uri) : Outcome K.Uri :=
  match context.request with
  | none => context.terminate
  | some request => respondAndFinish K context request 403 (text "Forbidden")

def onToken (context : ResponseContext K.Uri) (verdict : TokenVerdict) : Outcome K.Uri :=
  if !context.awaitingVerdict then
    (context, [])
  else
    let decided := { context with awaitingVerdict := false }
    match verdict with
    | .valid _ => routeIt K decided
    | .invalid => rejectToken K decided

/-! ## Responses from branches -/

/-- One response carrying every challenge of every branch that answered `status`. -/
def aggregateChallenges (context : ResponseContext K.Uri) (request : Request K.Uri)
    (status : Nat) : Option Response := do
  let name : HeaderName := if status = 401 then .wwwAuthenticate else .proxyAuthenticate
  let reason := if status = 401 then text "Unauthorized" else text "Proxy Authentication Required"
  let response ← buildResponse K request status reason
  let challenges := (context.finals.filter fun final => final.status.code = status).flatMap
    fun final => Headers.getAll final.headers name
  return { response with headers := response.headers ++ challenges }

/-- The response R7 sends for the best status. -/
def chosenFinal (context : ResponseContext K.Uri) (request : Request K.Uri) (best : Nat) :
    Option Response :=
  if best = 401 ∨ best = 407 then
    aggregateChallenges K context request best
  else
    context.finals.find? fun final => final.status.code = best

/-- R7 and R8: pick the best final and send it. -/
def selectAndAnswer (context : ResponseContext K.Uri) (request : Request K.Uri) :
    Outcome K.Uri :=
  if context.answered then
    context.finishIfSettled
  else match context.bestFinal with
    | none => respondAndFinish K context request 500 (text "Server Internal Error")
    | some best =>
        if best = 503 then
          respondAndFinish K context request 500 (text "Server Internal Error")
        else match chosenFinal K context request best with
          | some response =>
              let (cancelled, cancels) := { context with answered := true }.cancelPending
              let (settled, endings) := cancelled.finishIfSettled
              (settled, .respond (popVia response) :: cancels ++ endings)
          | none => respondAndFinish K context request 500 (text "Server Internal Error")

/-- The tail three handlers share once a branch's final is recorded: wait for
the other branches, then fork the next group, then select. -/
def continueSelection (context : ResponseContext K.Uri) (request : Request K.Uri) :
    Outcome K.Uri :=
  if context.hasPending then
    (context, [])
  else if context.mayForkNextGroup then
    forkNextGroup K context
  else
    selectAndAnswer K context request

/-- Record a final built here on a branch's behalf. -/
def recordBuilt (context : ResponseContext K.Uri) (request : Request K.Uri) (branch : BranchId)
    (status : Nat) (reason : Text) : ResponseContext K.Uri :=
  let concluded := context.concludeBranch branch status
  { concluded with finals := concluded.finals ++ (buildResponse K request status reason).toList }

/-- R9: conclude a branch as `408`, then continue selection. -/
def concludeAsTimeout (context : ResponseContext K.Uri) (branch : BranchId) : Outcome K.Uri :=
  match context.request with
  | none => context.terminate
  | some request =>
      continueSelection K (recordBuilt K context request branch 408 (text "Request Timeout")) request

/-- R9/R10: a branch whose transport failed behaves as `503` from that branch. -/
def onBranchFailure (context : ResponseContext K.Uri) (branch : BranchId) : Outcome K.Uri :=
  match context.request with
  | none => context.terminate
  | some request =>
      if !context.knows branch then
        (context, [])
      else
        continueSelection K
          (recordBuilt K context request branch 503 (text "Service Unavailable")) request

/-- R4: forward a provisional, reset Timer C and release a queued CANCEL. -/
def forwardProvisional (context : ResponseContext K.Uri) (request : Request K.Uri)
    (response : Response) (branch : BranchId) : Outcome K.Uri :=
  let (marked, cancelNowSendable) := context.markProvisional branch
  let timer :=
    if request.method = .invite then
      [.setTimer .c (some branch) context.config.effectiveTimerC]
    else []
  if cancelNowSendable then
    (marked.setCancelling branch, .respond (popVia response) :: timer ++ [.cancelBranch branch])
  else
    (marked, .respond (popVia response) :: timer)

def onBranchResponse (context : ResponseContext K.Uri) (response : Response)
    (branch : BranchId) : Outcome K.Uri :=
  match context.request with
  | none => context.terminate
  | some request =>
      -- R1
      if !context.knows branch then
        (context, [])
      -- R3
      else if response.status.code = 100 then
        (context, [])
      else if response.status.isProvisional then
        forwardProvisional K context request response branch
      -- R10/R8
      else if response.status.code = 503 then
        onBranchFailure K context branch
      else
        let concluded := context.concludeBranch branch response.status.code
        -- R5
        if response.status.hundreds = 2 ∧ request.method = .invite then
          let (cancelled, cancels) := { concluded with answered := true }.concludeTargetSet.cancelPending
          (cancelled, .respond (popVia response) :: cancels)
        -- R6
        else if response.status.hundreds = 6 then
          let (cancelled, cancels) := { concluded with
            finals := concluded.finals ++ [response]
            answered := true }.concludeTargetSet.cancelPending
          let (settled, endings) := cancelled.finishIfSettled
          (settled, .respond (popVia response) :: cancels ++ endings)
        else
          continueSelection K { concluded with finals := concluded.finals ++ [response] } request

/-! ## CANCEL and Timer C -/

/-- C2 for the pending branches listed: cancel those that have answered, queue
a CANCEL for those that have not. -/
def cancelOrQueue {Uri : Type} (context : ResponseContext Uri) :
    List (BranchId × Bool) → Outcome Uri
  | [] => (context, [])
  | (branch, true) :: rest =>
      let (cancelled, effects) := cancelOrQueue (context.setCancelling branch) rest
      (cancelled, .cancelBranch branch :: effects)
  | (branch, false) :: rest => cancelOrQueue (context.queueCancel branch) rest

/-- The pending branches, each with whether it saw a provisional. -/
def ResponseContext.pendingWithProvisional {Uri : Type} (context : ResponseContext Uri) :
    List (BranchId × Bool) :=
  context.branches.filterMap fun entry =>
    match entry.state with
    | .pending saw _ => some (entry.id, saw)
    | _ => none

/-- C1–C3 and C7: a CANCEL matched our server transaction. -/
def onUpstreamCancelled {Uri : Type} (context : ResponseContext Uri) : Outcome Uri :=
  let withdrawn := context.concludeTargetSet
  let (cancelled, effects) := cancelOrQueue withdrawn withdrawn.pendingWithProvisional
  (cancelled, .answerCancel :: effects)

/-- C5/C6: Timer C fired for a branch. -/
def onTimerC (context : ResponseContext K.Uri) : Option BranchId → Outcome K.Uri
  | none => (context, [])
  | some branch =>
      match context.sawProvisional branch with
      | some true => (context.setCancelling branch, [.cancelBranch branch])
      | some false => concludeAsTimeout K context branch
      | none => (context, [])

/-- Feed one input; get the effects to perform, in order. -/
def onInput : Reactive.Machine (ResponseContext K.Uri) (Input K.Uri) (Effect K.Uri) :=
  fun context input =>
    if context.finished then
      (context, [])
    else match input with
      | .upstream request => onUpstream K context request
      | .targetsResolved targets => onTargets K context targets
      | .targetsUnavailable => onTargetsUnavailable K context
      | .branchResponse response branch => onBranchResponse K context response branch
      | .branchTransportError branch => onBranchFailure K context branch
      | .tokenFact verdict => onToken K context verdict
      | .tokensMinted tokens => ({ context with tokens := some tokens }, [])
      | .timerFired .c branch => onTimerC K context branch
      | .upstreamCancelled => onUpstreamCancelled context

end SipxClstr.Proxy
