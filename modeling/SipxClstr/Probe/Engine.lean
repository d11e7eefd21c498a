import SipxClstr.Sip.Kernel
import SipxClstr.Reactive.Run

/-!
# The probe engine

A probe run registers, calls the echo, hangs up and removes its registration.
The engine is a state machine and nothing else: inputs in, ordered effects out.
Time enters as the instant of each input and as fired timers.
-/

namespace SipxClstr.Probe

open SipxClstr.Sip

/-- `std::time::Duration`, in nanoseconds. -/
abbrev Duration := Nat

/-- `Duration::from_secs`. -/
def fromSecs (seconds : Nat) : Duration :=
  seconds * 1000000000

/-- The largest `u64`. -/
def u64Max : Nat := 18446744073709551615

/-! ## Verdicts -/

/-- One step of the probe plan. -/
inductive Step where
  | resolve
  | register
  | invite
  | bye
  deriving DecidableEq, Repr

/-- Why a step the platform is responsible for did not succeed. -/
inductive Cause where
  | timeout
  | rejected (status : Nat)
  | markerMismatch
  | unreachable
  | resolutionFailed
  | shed (retryAfter : Option Duration)
  deriving DecidableEq, Repr

/-- The probe's own fault. -/
inductive ProbeFault where
  | badCredentials
  | misconfigured
  | noLocalResource
  | clockSkew
  | cancelled
  | internal
  deriving DecidableEq, Repr

/-- What a run concluded. -/
inductive Verdict where
  | pass
  | fail (step : Step) (cause : Cause)
  | inconclusive (fault : ProbeFault)
  deriving DecidableEq, Repr

/-- What one step did, and how long it took. -/
structure StepOutcome where
  step : Step
  succeeded : Bool
  elapsed : Duration
  deriving DecidableEq, Repr

/-! ## The marker -/

/-- A run-unique opaque token. -/
structure Marker where
  token : Text
  deriving DecidableEq, Repr

/-- `HeaderName::Subject`, which carries the marker. -/
def markerHeader : HeaderName :=
  .other (text "subject")

/-- What makes a `Subject` recognisably ours. -/
def markerPrefix : Text :=
  text "sipx-probe/"

/-- The full header value, `sipx-probe/<token>`. -/
def Marker.headerValue (marker : Marker) : Text :=
  markerPrefix ++ marker.token

/-- Read a marker out of a message's headers, if they carry one of ours. -/
def Marker.of (headers : Headers) : Option Marker := do
  let value ← Headers.value headers markerHeader
  let token ← (Sip.trim (fromUtf8Lossy value)).dropPrefix? markerPrefix
  if token.isEmpty then none else some ⟨token⟩

/-! ## Configuration, inputs and effects -/

/-- Where a probe dials, and how. -/
structure Target where
  address : Text
  transport : Text
  zone : Text
  deriving DecidableEq, Repr

/-- What a probe needs to know before it can run. -/
structure ProbeConfig where
  probeAor : Text
  echoAor : Text
  contact : Text
  target : Target
  timeouts : Vector Duration 4
  sentBy : Text
  /-- Whether the probe has a credential it can offer to a challenge. -/
  hasCredentials : Bool

namespace ProbeConfig

def timeout (config : ProbeConfig) : Step → Duration
  | .resolve => config.timeouts[0]
  | .register => config.timeouts[1]
  | .invite => config.timeouts[2]
  | .bye => config.timeouts[3]

/-- Whether this configuration can produce a valid run at all. -/
def isUsable (config : ProbeConfig) : Bool :=
  !config.probeAor.isEmpty && !config.echoAor.isEmpty && !config.contact.isEmpty &&
    !config.target.address.isEmpty

end ProbeConfig

/-- Something that happened to a run. -/
inductive Input where
  | start
  | resolved (outcome : Except Unit Unit)
  | response (response : Response)
  | transportError
  | timerFired (step : Step)
  | cancelled
  | localResourceUnavailable

/-- A completed run. -/
structure ProbeRun where
  marker : Marker
  target : Target
  /-- Every step attempted, in order, the failed one included. -/
  steps : List StepOutcome
  verdict : Verdict
  cleanupFailed : Bool
  deriving DecidableEq, Repr

/-- Something the driver must do. -/
inductive Effect (Uri : Type) where
  | resolve (target : Target)
  | send (request : Request Uri)
  | setTimer (step : Step) (after : Duration)
  | clearTimer (step : Step)
  | finish (run : ProbeRun)

/-! ## State -/

/-- Something the run must undo before it may finish. -/
inductive Obligation where
  | endDialog
  | deregister
  deriving DecidableEq, Repr

/-- What a run still owes, and what it has learned. -/
structure RunState where
  owed : List Obligation
  cleanupFailed : Bool
  finished : Bool
  /-- A challenge has been answered once. -/
  answeredChallenge : Bool

namespace RunState

def owes (state : RunState) (obligation : Obligation) : Bool :=
  state.owed.contains obligation

def owe (state : RunState) (obligation : Obligation) : RunState :=
  if state.owes obligation then state else { state with owed := state.owed ++ [obligation] }

def forget (state : RunState) (obligation : Obligation) : RunState :=
  { state with owed := state.owed.filter fun owed => owed ≠ obligation }

end RunState

/-- What the engine is waiting for. -/
inductive Waiting where
  | nothing
  | step (step : Step)
  /-- Cleanup, after the verdict is decided. -/
  | cleanup (step : Step)
  deriving DecidableEq, Repr

/-- One probe run. -/
structure ProbeEngine where
  config : ProbeConfig
  marker : Marker
  waiting : Waiting
  steps : List StepOutcome
  stepStarted : Duration
  now : Duration
  decided : Option Verdict
  state : RunState
  cseq : Nat
  /-- The `CSeq` number of the request the engine is waiting on. -/
  outstandingCseq : Option Nat

/-- A run of `config`, with `marker` planted in every request. -/
def ProbeEngine.new (config : ProbeConfig) (marker : Marker) : ProbeEngine where
  config := config
  marker := marker
  waiting := .nothing
  steps := []
  stepStarted := 0
  now := 0
  decided := none
  state := ⟨[], false, false, false⟩
  cseq := 0
  outstandingCseq := none

/-! ## Reading responses -/

/-- A 2xx status. -/
def isSuccess (status : StatusCode) : Bool :=
  status.hundreds = 2

/-- The `CSeq` number of a message's headers. -/
def cseqNumber (headers : Headers) : Option Nat := do
  let value ← Headers.value headers .cSeq
  let word ← firstWord (fromUtf8Lossy value)
  parseUnsigned u32Max word

/-- `Retry-After`, if the response states one under a name of its own.  A parser that knows the
header reads it as `HeaderName.retryAfter`, which is not looked up. -/
def retryAfterOf (response : Response) : Option Duration := do
  let value ← Headers.value response.headers (.other (text "retry-after"))
  let seconds := Sip.trim ((Sip.trim (fromUtf8Lossy value)).takeWhile (· ≠ ';'))
  (parseUnsigned u64Max seconds).map fromSecs

/-! ## Requests -/

section Requests

variable (K : Kernel) [Inhabited K.Uri]

/-- A URI, or a syntactically valid placeholder.  The default stands for the
recursion that has no end should the kernel refuse the placeholder. -/
def uriOrPlaceholder (value : Text) : K.Uri :=
  (K.parseUri (utf8 value)).getD ((K.parseUri (bytes "sip:invalid.invalid")).getD default)

/-- A request of these header rows, or a bare one when the kernel refuses any
row.  `Max-Forwards` comes last. -/
def buildRequest (method : Method) (uri : K.Uri) (rows : List (HeaderName × Text)) :
    Request K.Uri :=
  if rows.all fun row => K.acceptsValue row.1 (utf8 row.2) then
    { method := method
      uri := uri
      headers := Headers.push (rows.map fun row => ⟨row.1, utf8 row.2⟩)
        ⟨.maxForwards, utf8 (decimal 70)⟩
      body := [] }
  else
    { method := method, uri := uri, headers := [], body := [] }

end Requests

/-- `HeaderName::Contact`. -/
def contactHeader : HeaderName :=
  .other (text "contact")

/-- The `Contact` of a registration of this lifetime. -/
def contactValue (config : ProbeConfig) (expires : Nat) : Text :=
  text "<" ++ config.contact ++ text ">;expires=" ++ decimal expires

namespace ProbeEngine

/-- The `Via` for the request about to go out.  Its branch is derived from the
marker and the sequence number. -/
def via (engine : ProbeEngine) : Text :=
  text "SIP/2.0/" ++ engine.config.target.transport ++ text " " ++ engine.config.sentBy ++
    text ";branch=z9hG4bK-probe-" ++ engine.marker.token ++ text "-" ++ decimal engine.cseq

/-- The rows of a REGISTER, at the engine's current sequence number. -/
def registerRows (engine : ProbeEngine) (expires : Nat) : List (HeaderName × Text) :=
  [(.callId, text "probe-" ++ engine.marker.token),
    (.cSeq, decimal engine.cseq ++ text " " ++ Method.register.token),
    (.fromHeader, text "<" ++ engine.config.probeAor ++ text ">;tag=probe"),
    (.toHeader, text "<" ++ engine.config.probeAor ++ text ">"),
    (contactHeader, contactValue engine.config expires),
    (markerHeader, engine.marker.headerValue),
    (.via, engine.via)]

/-- The rows of any other request, at the engine's current sequence number. -/
def simpleRows (engine : ProbeEngine) (method : Method) (recipient : Text) :
    List (HeaderName × Text) :=
  [(.callId, text "probe-" ++ engine.marker.token),
    (.cSeq, decimal engine.cseq ++ text " " ++ method.token),
    (.fromHeader, text "<" ++ engine.config.probeAor ++ text ">;tag=probe"),
    (.toHeader, text "<" ++ recipient ++ text ">"),
    (markerHeader, engine.marker.headerValue),
    (.via, engine.via)]

/-- The next sequence number, awaited. -/
def awaitNext (engine : ProbeEngine) : ProbeEngine :=
  { engine with cseq := engine.cseq + 1, outstandingCseq := some (engine.cseq + 1) }

/-- The next sequence number, for a request nothing answers. -/
def skipNext (engine : ProbeEngine) : ProbeEngine :=
  { engine with cseq := engine.cseq + 1 }

section Handlers

variable (K : Kernel) [Inhabited K.Uri]

def registerRequest (engine : ProbeEngine) (expires : Nat) : ProbeEngine × Request K.Uri :=
  let engine := engine.awaitNext
  (engine, buildRequest K .register
    (uriOrPlaceholder K (text "sip:" ++ engine.config.target.address))
    (engine.registerRows expires))

/-- The ACK is not a request anything answers, so it does not become what the
engine waits on. -/
def simpleRequest (engine : ProbeEngine) (method : Method) (recipient : Text) :
    ProbeEngine × Request K.Uri :=
  let engine := if method ≠ .ack then engine.awaitNext else engine.skipNext
  (engine,
    buildRequest K method (uriOrPlaceholder K recipient) (engine.simpleRows method recipient))

def inviteRequest (engine : ProbeEngine) : ProbeEngine × Request K.Uri :=
  engine.simpleRequest K .invite engine.config.echoAor

/-! ## Bookkeeping -/

def begin (engine : ProbeEngine) (step : Step) : ProbeEngine :=
  { engine with waiting := .step step, stepStarted := engine.now }

def concludeStep (engine : ProbeEngine) (succeeded : Bool) : ProbeEngine :=
  match engine.waiting with
  | .step step =>
      { engine with
        steps := engine.steps ++ [⟨step, succeeded, engine.now - engine.stepStarted⟩]
        waiting := .nothing }
  | _ => { engine with waiting := .nothing }

def decide (engine : ProbeEngine) (verdict : Verdict) : ProbeEngine :=
  if engine.decided.isNone then { engine with decided := some verdict } else engine

/-! ## Conclusion -/

def finish (engine : ProbeEngine) : ProbeEngine × List (Effect K.Uri) :=
  ({ engine with
      state := { engine.state with finished := true }
      waiting := .nothing
      steps := [] },
    [.finish
      { marker := engine.marker
        target := engine.config.target
        steps := engine.steps
        verdict := engine.decided.getD (.inconclusive .internal)
        cleanupFailed := engine.state.cleanupFailed }])

/-- Always attempt to clean up, whatever the verdict: the dialog first, then the
registration. -/
def cleanup (engine : ProbeEngine) : ProbeEngine × List (Effect K.Uri) :=
  if engine.state.owes .endDialog then
    let engine :=
      { engine with state := engine.state.forget .endDialog, waiting := .cleanup .bye }
    let (engine, bye) := engine.simpleRequest K .bye engine.config.echoAor
    (engine, [.send bye, .setTimer .bye (engine.config.timeout .bye)])
  else if engine.state.owes .deregister then
    let engine :=
      { engine with state := engine.state.forget .deregister, waiting := .cleanup .register }
    let (engine, deregister) := engine.registerRequest K 0
    (engine, [.send deregister, .setTimer .register (engine.config.timeout .register)])
  else
    engine.finish K

def afterCleanup (engine : ProbeEngine) (step : Step) : ProbeEngine × List (Effect K.Uri) :=
  let (engine, effects) := { engine with waiting := .nothing }.cleanup K
  (engine, .clearTimer step :: effects)

/-- The verdict of a failed step.  When the failing step is the BYE, the dialog's
end has been attempted already. -/
def failed (engine : ProbeEngine) (step : Step) (cause : Cause) : ProbeEngine :=
  let engine := engine.decide (.fail step cause)
  if step = .bye then { engine with state := engine.state.forget .endDialog } else engine

/-- Decide the verdict, then clean up. -/
def fail (engine : ProbeEngine) (step : Step) (cause : Cause) :
    ProbeEngine × List (Effect K.Uri) :=
  let (engine, effects) := (engine.failed step cause).cleanup K
  (engine, .clearTimer step :: effects)

/-- Abandon the run as the probe's own fault. -/
def abandon (engine : ProbeEngine) (fault : ProbeFault) : ProbeEngine × List (Effect K.Uri) :=
  let engine := engine.decide (.inconclusive fault)
  match engine.waiting with
  | .step step =>
      let (engine, effects) := (engine.concludeStep false).cleanup K
      (engine, .clearTimer step :: effects)
  | _ => engine.cleanup K

/-- A cleanup step that failed is recorded, and never changes the verdict. -/
def cleanupFailed (engine : ProbeEngine) : ProbeEngine :=
  { engine with state := { engine.state with cleanupFailed := true } }

/-! ## The plan -/

def start (engine : ProbeEngine) : ProbeEngine × List (Effect K.Uri) :=
  if !engine.config.isUsable then
    engine.abandon K .misconfigured
  else
    (engine.begin .resolve,
      [.resolve engine.config.target, .setTimer .resolve (engine.config.timeout .resolve)])

def sendRegister (engine : ProbeEngine) : ProbeEngine × List (Effect K.Uri) :=
  let (engine, request) := (engine.begin .register).registerRequest K 3600
  (engine,
    [.clearTimer .resolve, .send request, .setTimer .register (engine.config.timeout .register)])

def onResolved (engine : ProbeEngine) (outcome : Except Unit Unit) :
    ProbeEngine × List (Effect K.Uri) :=
  if engine.waiting ≠ .step .resolve then
    (engine, [])
  else
    match outcome with
    | .error _ => (engine.concludeStep false).fail K .resolve .resolutionFailed
    | .ok _ => (engine.concludeStep true).sendRegister K

def sendInvite (engine : ProbeEngine) : ProbeEngine × List (Effect K.Uri) :=
  let (engine, request) := (engine.begin .invite).inviteRequest K
  (engine,
    [.clearTimer .register, .send request, .setTimer .invite (engine.config.timeout .invite)])

/-- The ACK precedes the BYE. -/
def sendBye (engine : ProbeEngine) : ProbeEngine × List (Effect K.Uri) :=
  let engine := engine.begin .bye
  let (engine, ack) := engine.simpleRequest K .ack engine.config.echoAor
  let (engine, bye) := engine.simpleRequest K .bye engine.config.echoAor
  (engine,
    [.clearTimer .invite, .send ack, .send bye, .setTimer .bye (engine.config.timeout .bye)])

/-- Re-send the challenged request for a step, keeping its timer running.
Resolution sends nothing. -/
def retryChallenged (engine : ProbeEngine) : Step → ProbeEngine × List (Effect K.Uri)
  | .register =>
      let (engine, request) := engine.registerRequest K 3600
      (engine, [.send request])
  | .invite =>
      let (engine, request) := engine.inviteRequest K
      (engine, [.send request])
  | .bye =>
      let (engine, request) := engine.simpleRequest K .bye engine.config.echoAor
      (engine, [.send request])
  | .resolve => (engine, [])

/-- A 2xx to a step's request. -/
def onStepSuccess (engine : ProbeEngine) (step : Step) (response : Response) :
    ProbeEngine × List (Effect K.Uri) :=
  let engine := engine.concludeStep true
  match step with
  | .register =>
      { engine with state := engine.state.owe .deregister }.sendInvite K
  | .invite =>
      let engine := { engine with state := engine.state.owe .endDialog }
      if Marker.of response.headers ≠ some engine.marker then
        -- The dialog exists, so it is still owed a BYE.
        engine.fail K .invite .markerMismatch
      else
        engine.sendBye K
  | .bye =>
      { engine with
        state := engine.state.forget .endDialog
        decided := some .pass }.cleanup K
  | .resolve => (engine, [])

def onStepResponse (engine : ProbeEngine) (step : Step) (status : Nat) (response : Response) :
    ProbeEngine × List (Effect K.Uri) :=
  if status = 401 ∨ status = 407 then
    if !engine.config.hasCredentials then
      engine.abandon K .badCredentials
    else if engine.state.answeredChallenge then
      (engine.concludeStep false).fail K step (.rejected status)
    else
      let state := { engine.state with answeredChallenge := true }
      { engine with state := state }.retryChallenged K step
  else if status = 503 ∧ (retryAfterOf response).isSome then
    (engine.concludeStep false).fail K step (.shed (retryAfterOf response))
  else if !isSuccess response.status then
    (engine.concludeStep false).fail K step (.rejected status)
  else
    engine.onStepSuccess K step response

/-- A response whose `CSeq` is not the outstanding request's belongs to an earlier
step. -/
def correlates (engine : ProbeEngine) (response : Response) : Bool :=
  match engine.outstandingCseq with
  | some expected => cseqNumber response.headers = some expected
  | none => true

def onResponse (engine : ProbeEngine) (response : Response) :
    ProbeEngine × List (Effect K.Uri) :=
  if response.status.isProvisional then
    (engine, [])
  else if !engine.correlates response then
    (engine, [])
  else
    match engine.waiting with
    | .nothing => (engine, [])
    | .cleanup step =>
        if !isSuccess response.status then
          engine.cleanupFailed.afterCleanup K step
        else
          engine.afterCleanup K step
    | .step step => engine.onStepResponse K step response.status.code response

/-- A late timer for a step that already concluded is stale, not an event. -/
def onTimeout (engine : ProbeEngine) (step : Step) : ProbeEngine × List (Effect K.Uri) :=
  if engine.waiting = .step step then
    (engine.concludeStep false).fail K step .timeout
  else if engine.waiting = .cleanup step then
    engine.cleanupFailed.afterCleanup K step
  else
    (engine, [])

def onTransportError (engine : ProbeEngine) : ProbeEngine × List (Effect K.Uri) :=
  match engine.waiting with
  | .step step => (engine.concludeStep false).fail K step .unreachable
  | .cleanup step => engine.cleanupFailed.afterCleanup K step
  | .nothing => (engine, [])

/-- Feed one input at virtual time `now`; get the effects to perform, in order. -/
def onInput (engine : ProbeEngine) (now : Duration) (input : Input) :
    ProbeEngine × List (Effect K.Uri) :=
  if engine.state.finished then
    (engine, [])
  else
    let engine := { engine with now := now }
    match input with
    | .start => engine.start K
    | .resolved outcome => engine.onResolved K outcome
    | .response response => engine.onResponse K response
    | .transportError => engine.onTransportError K
    | .timerFired step => engine.onTimeout K step
    | .cancelled => engine.abandon K .cancelled
    | .localResourceUnavailable => engine.abandon K .noLocalResource

/-- The engine as a machine whose inputs carry the instant they arrive at. -/
def machine : Reactive.Machine ProbeEngine (Duration × Input) (Effect K.Uri) :=
  fun engine input => engine.onInput K input.1 input.2

end Handlers

end ProbeEngine

end SipxClstr.Probe
