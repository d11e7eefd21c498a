import SipxClstr.Probe.Echo
import SipxClstr.Probe.Verdict
import SipxClstr.Proxy.Relay
import SipxClstr.Reactive.Network

/-!
# The probe call, end to end

A probe, the echo and any number of proxies exchange messages, which may be lost, repeated and
reordered on the way.  Strangers send what they like, except that they do not know the run's marker.
A run that passes was answered by the echo, for a copy of the INVITE the run sent.
-/

namespace SipxClstr.Probe

open SipxClstr.Sip Reactive

/-! ## The parties -/

/-- What is on the way. -/
inductive Message (Uri : Type) where
  | request (request : Request Uri)
  | response (response : Response)

/-- Who takes part in the call. -/
inductive Place where
  | probe
  | echo
  | element (number : Nat)
  deriving DecidableEq

/-- How everybody who takes part is configured. -/
structure Setting where
  probe : ProbeConfig
  marker : Marker
  echo : Echo.EchoConfig
  element : Nat → Proxy.ProxyConfig

def Input.message? {Uri : Type} (input : Duration × Input) : Option (Message Uri) :=
  input.2.answer.map .response

def Effect.message? {Uri : Type} (effect : Effect Uri) : Option (Message Uri) :=
  effect.request.map .request

def Echo.Input.message? {Uri : Type} : Echo.Input Uri → Option (Message Uri)
  | .request arrived => some (.request arrived)
  | _ => none

def Echo.Effect.message? {Uri : Type} : Echo.Effect Uri → Option (Message Uri)
  | .send request => some (.request request)
  | .respond response => some (.response response)
  | _ => none

/-- The message an element takes in. -/
def arrival? {Uri : Type} : Proxy.Input Uri → Option (Message Uri)
  | .upstream request => some (.request request)
  | .branchResponse response _ => some (.response response)
  | _ => none

/-- The message an element puts on a transaction. -/
def departure? {Uri : Type} : Proxy.Effect Uri → Option (Message Uri)
  | .respond response => some (.response response)
  | .forward _ request _ _ => some (.request request)
  | _ => none

section Parties

variable (K : Kernel) [Inhabited K.Uri]

def probeParty (config : ProbeConfig) (marker : Marker) : Party (Message K.Uri) where
  State := ProbeEngine
  Input := Duration × Input
  Effect := Effect K.Uri
  machine := ProbeEngine.machine K
  start := .new config marker
  brings := Input.message?
  sends := Effect.message?

omit [Inhabited K.Uri] in
def echoParty (config : Echo.EchoConfig) : Party (Message K.Uri) where
  State := Echo.EchoEndpoint
  Input := Echo.Input K.Uri
  Effect := Echo.Effect K.Uri
  machine := Echo.onInput K
  start := .new config
  brings := Echo.Input.message?
  sends := Echo.Effect.message?

omit [Inhabited K.Uri] in
def elementParty (config : Proxy.ProxyConfig) : Party (Message K.Uri) where
  State := Proxy.ResponseContext K.Uri
  Input := Proxy.Input K.Uri
  Effect := Proxy.Effect K.Uri
  machine := Proxy.onInput K
  start := .new config
  brings := arrival?
  sends := departure?

def parties (setting : Setting) : Place → Party (Message K.Uri)
  | .probe => probeParty K setting.probe setting.marker
  | .echo => echoParty K setting.echo
  | .element number => elementParty K (setting.element number)

end Parties

/-- What a stranger sends calls nobody in the run's name and reflects nothing of it. -/
def Strange {Uri : Type} (marker : Marker) : Message Uri → Prop
  | .request request => request.method = .invite → Marker.of request.headers ≠ some marker
  | .response response => Marker.of response.headers ≠ some marker

/-! ## What is kept on the way -/

/-- The request received is the one sent, as any number of elements relayed it. -/
structure Relays {Uri : Type} (sent received : Request Uri) : Prop where
  method : received.method = sent.method
  body : received.body = sent.body
  others : received.headers.filter (fun header => !Proxy.isEdited header.name) =
    sent.headers.filter fun header => !Proxy.isEdited header.name
  rows : ∀ name, Proxy.isEdited name = false →
    Headers.getAll received.headers name = Headers.getAll sent.headers name
  via : Headers.getAll sent.headers .via <:+ Headers.getAll received.headers .via

/-- The response received is the one sent, with any number of `Via` rows popped. -/
structure Returns (sent received : Response) : Prop where
  status : received.status = sent.status
  reason : received.reason = sent.reason
  body : received.body = sent.body
  others : received.headers.filter (fun header => header.name ≠ .via) =
    sent.headers.filter fun header => header.name ≠ .via
  rows : ∀ name, name ≠ .via →
    Headers.getAll received.headers name = Headers.getAll sent.headers name
  via : Headers.getAll received.headers .via <:+ Headers.getAll sent.headers .via

theorem Relays.refl {Uri : Type} (request : Request Uri) : Relays request request :=
  ⟨rfl, rfl, rfl, fun _ _ => rfl, List.suffix_refl _⟩

theorem Relays.copied {Uri : Type} {sent arrived copy : Request Uri} (relays : Relays sent arrived)
    (transparent : Proxy.Transparent arrived copy) : Relays sent copy where
  method := transparent.method.trans relays.method
  body := transparent.body.trans relays.body
  others := transparent.others.trans relays.others
  rows name unedited := (transparent.rows name unedited).trans (relays.rows name unedited)
  via := by
    obtain ⟨own, via⟩ := transparent.via
    rw [via]
    exact relays.via.trans (List.suffix_cons _ _)

theorem Returns.refl (response : Response) : Returns response response :=
  ⟨rfl, rfl, rfl, rfl, fun _ _ => rfl, List.suffix_refl _⟩

theorem Returns.popped {sent arrived received : Response} (returns : Returns sent arrived)
    (without : Proxy.WithoutTopVia arrived received) : Returns sent received where
  status := without.status.trans returns.status
  reason := without.reason.trans returns.reason
  body := without.body.trans returns.body
  others := without.others.trans returns.others
  rows name notVia := (without.rows name notVia).trans (returns.rows name notVia)
  via := by
    rw [without.via]
    exact (List.tail_suffix _).trans returns.via

theorem Marker.of_congr {first second : Headers}
    (same : Headers.getAll first markerHeader = Headers.getAll second markerHeader) :
    Marker.of first = Marker.of second := by
  simp [Marker.of, Headers.value, Headers.get, same]

/-! ## What the probe passes on -/

namespace ProbeEngine

section Vouched

variable {K : Kernel} [Inhabited K.Uri] {engine : ProbeEngine} {marker : Marker} {happened : Prop}

/-- The run keeps its marker, and has decided that it passes only if this has happened. -/
structure Steady (marker : Marker) (happened : Prop) (engine : ProbeEngine) : Prop where
  isMarker : engine.marker = marker
  pass : engine.decided = some .pass → happened

/-- The run goes on to the BYE, or passes, only if this has happened. -/
structure Vouched (marker : Marker) (happened : Prop)
    (outcome : ProbeEngine × List (Effect K.Uri)) : Prop where
  steady : Steady marker happened outcome.1
  bye : outcome.1.waiting = .step .bye → happened
  finished : ∀ run, .finish run ∈ outcome.2 → run.verdict = .pass → happened

omit [Inhabited K.Uri] in
theorem Vouched.clears {outcome : ProbeEngine × List (Effect K.Uri)}
    (vouched : Vouched marker happened outcome) (step : Step) :
    Vouched marker happened (outcome.1, .clearTimer step :: outcome.2) where
  steady := vouched.steady
  bye := vouched.bye
  finished run member := by
    rcases List.mem_cons.mp member with same | later
    · contradiction
    · exact vouched.finished run later

omit [Inhabited K.Uri] in
/-- A turn that finishes nothing. -/
theorem vouched_of_unfinished {outcome : ProbeEngine × List (Effect K.Uri)}
    (steady : Steady marker happened outcome.1) (bye : outcome.1.waiting = .step .bye → happened)
    (unfinished : ∀ run, .finish run ∉ outcome.2) : Vouched marker happened outcome :=
  ⟨steady, bye, fun run member => absurd member (unfinished run)⟩

theorem Steady.concludeStep (steady : Steady marker happened engine) (succeeded : Bool) :
    Steady marker happened (engine.concludeStep succeeded) := by
  constructor
  · rw [marker_concludeStep]
    exact steady.isMarker
  · rw [decided_concludeStep]
    exact steady.pass

theorem Steady.decide (steady : Steady marker happened engine) {verdict : Verdict}
    (fails : verdict ≠ .pass) : Steady marker happened (engine.decide verdict) := by
  constructor
  · rw [marker_decide]
    exact steady.isMarker
  · unfold ProbeEngine.decide
    split
    · exact fun passes => absurd (Option.some.inj passes) fails
    · exact steady.pass

theorem Steady.cleanup (steady : Steady marker happened engine) :
    Vouched marker happened (engine.cleanup K) := by
  unfold ProbeEngine.cleanup
  split
  · exact vouched_of_unfinished ⟨steady.isMarker, steady.pass⟩ (fun waiting => by cases waiting)
      (by simp)
  · split
    · exact vouched_of_unfinished ⟨steady.isMarker, steady.pass⟩ (fun waiting => by cases waiting)
        (by simp)
    · constructor
      · exact ⟨steady.isMarker, steady.pass⟩
      · exact fun waiting => by cases waiting
      · intro run member passed
        apply steady.pass
        simp only [finish, List.mem_singleton, Effect.finish.injEq] at member
        rw [member] at passed
        cases decided : engine.decided with
        | none => simp [decided] at passed
        | some verdict => simpa [decided] using passed

theorem Steady.fail (steady : Steady marker happened engine) (step : Step) (cause : Cause) :
    Vouched marker happened (engine.fail K step cause) := by
  have decides : Steady marker happened (engine.decide (.fail step cause)) :=
    steady.decide (by simp)
  apply Vouched.clears
  apply Steady.cleanup
  unfold failed
  split
  · exact ⟨decides.isMarker, decides.pass⟩
  · exact decides

theorem Steady.failStep (steady : Steady marker happened engine) (step : Step) (cause : Cause) :
    Vouched marker happened ((engine.concludeStep false).fail K step cause) :=
  (steady.concludeStep false).fail step cause

theorem Steady.abandon (steady : Steady marker happened engine) (fault : ProbeFault) :
    Vouched marker happened (engine.abandon K fault) := by
  have decides : Steady marker happened (engine.decide (.inconclusive fault)) :=
    steady.decide (by simp)
  simp only [ProbeEngine.abandon]
  split
  · apply Vouched.clears
    exact (decides.concludeStep false).cleanup
  · exact decides.cleanup

theorem Steady.afterCleanup (steady : Steady marker happened engine) (step : Step) :
    Vouched marker happened (engine.afterCleanup K step) := by
  apply Vouched.clears
  apply Steady.cleanup
  exact ⟨steady.isMarker, steady.pass⟩

theorem Steady.retryChallenged (steady : Steady marker happened engine)
    (bye : engine.waiting = .step .bye → happened) (step : Step) :
    Vouched marker happened (engine.retryChallenged K step) := by
  have kept : ∀ next : ProbeEngine, next.marker = engine.marker → next.decided = engine.decided →
      Steady marker happened next :=
    fun next sameMarker sameDecided => ⟨sameMarker.trans steady.isMarker, sameDecided ▸ steady.pass⟩
  cases step <;> exact vouched_of_unfinished (kept _ rfl rfl) bye (by simp [ProbeEngine.retryChallenged])

/-- A 2xx takes the run to the BYE only when it answers the INVITE and carries the marker. -/
theorem Steady.onStepSuccess (steady : Steady marker happened engine) {step : Step}
    {response : Response} (bye : step = .bye → happened)
    (marked : step = .invite → Marker.of response.headers = some marker → happened) :
    Vouched marker happened (engine.onStepSuccess K step response) := by
  have kept := steady.concludeStep true
  cases step with
  | resolve =>
      apply vouched_of_unfinished kept _ (by simp [ProbeEngine.onStepSuccess])
      intro waiting
      have idle : (engine.concludeStep true).waiting = .step .bye := waiting
      unfold ProbeEngine.concludeStep at idle
      split at idle <;> cases idle
  | register =>
      apply vouched_of_unfinished ⟨kept.isMarker, kept.pass⟩ _
        (by simp [ProbeEngine.onStepSuccess, sendInvite])
      intro waiting
      have isInvite : Waiting.step .invite = .step .bye := waiting
      contradiction
  | invite =>
      simp only [ProbeEngine.onStepSuccess]
      split
      · apply Steady.fail
        exact ⟨kept.isMarker, kept.pass⟩
      · next same =>
          have isMarker : Marker.of response.headers = some marker := by
            rw [← kept.isMarker]
            exact Decidable.not_not.mp same
          exact vouched_of_unfinished ⟨kept.isMarker, kept.pass⟩ (fun _ => marked rfl isMarker)
            (by simp [sendBye])
  | bye =>
      apply Steady.cleanup
      exact ⟨kept.isMarker, fun _ => bye rfl⟩

theorem Steady.onStepResponse (steady : Steady marker happened engine) {step : Step} {status : Nat}
    {response : Response} (waiting : engine.waiting = .step step)
    (bye : engine.waiting = .step .bye → happened)
    (marked : step = .invite → isSuccess response.status = true →
      Marker.of response.headers = some marker → happened) :
    Vouched marker happened (engine.onStepResponse K step status response) := by
  unfold ProbeEngine.onStepResponse
  split
  · split
    · exact steady.abandon _
    · split
      · exact steady.failStep _ _
      · apply Steady.retryChallenged
        · exact ⟨steady.isMarker, steady.pass⟩
        · exact bye
  · split
    · exact steady.failStep _ _
    · split
      · exact steady.failStep _ _
      · next success =>
          apply steady.onStepSuccess
          · rintro rfl
            exact bye waiting
          · exact fun isInvite => marked isInvite (by simpa using success)

/-- Whatever arrives, the run goes on to the BYE and passes only on the marker. -/
theorem Steady.onInput (steady : Steady marker happened engine)
    (bye : engine.waiting = .step .bye → happened) (now : Duration) (input : Input)
    (marked : engine.waiting = .step .invite → ∀ response ∈ input.answer,
      engine.correlates response = true → isSuccess response.status = true →
        Marker.of response.headers = some marker → happened) :
    Vouched marker happened (engine.onInput K now input) := by
  have kept : Steady marker happened ({ engine with now := now } : ProbeEngine) :=
    ⟨steady.isMarker, steady.pass⟩
  have keptBye : ({ engine with now := now } : ProbeEngine).waiting = .step .bye → happened := bye
  have keptMarked : ({ engine with now := now } : ProbeEngine).waiting = .step .invite →
      ∀ response ∈ input.answer,
        ({ engine with now := now } : ProbeEngine).correlates response = true →
          isSuccess response.status = true → Marker.of response.headers = some marker →
            happened := marked
  unfold ProbeEngine.onInput
  split
  · exact vouched_of_unfinished steady bye (by simp)
  · simp only
    generalize ({ engine with now := now } : ProbeEngine) = clocked at kept keptBye keptMarked ⊢
    have still : Vouched marker happened ((clocked, []) : ProbeEngine × List (Effect K.Uri)) :=
      vouched_of_unfinished kept keptBye (by simp)
    cases input with
    | start =>
        simp only [start]
        split
        · exact kept.abandon _
        · exact vouched_of_unfinished ⟨kept.isMarker, kept.pass⟩ (fun waiting => by cases waiting)
            (by simp)
    | resolved outcome =>
        simp only [onResolved]
        split
        · exact still
        · split
          · exact kept.failStep _ _
          · have concluded := kept.concludeStep true
            exact vouched_of_unfinished ⟨concluded.isMarker, concluded.pass⟩
              (fun waiting => by cases waiting) (by simp [sendRegister])
    | response response =>
        simp only [onResponse]
        split
        · exact still
        · split
          · exact still
          · next correlated =>
              split
              · exact still
              · split <;>
                  · apply Steady.afterCleanup
                    exact ⟨kept.isMarker, kept.pass⟩
              · next step waiting =>
                  apply kept.onStepResponse waiting keptBye
                  rintro rfl
                  exact keptMarked waiting response rfl (by simpa using correlated)
    | transportError =>
        simp only [onTransportError]
        split
        · exact kept.failStep _ _
        · apply Steady.afterCleanup
          exact ⟨kept.isMarker, kept.pass⟩
        · exact still
    | timerFired step =>
        simp only [onTimeout]
        split
        · exact kept.failStep _ _
        · split
          · apply Steady.afterCleanup
            exact ⟨kept.isMarker, kept.pass⟩
          · exact still
    | cancelled => exact kept.abandon _
    | localResourceUnavailable => exact kept.abandon _

/-- A run that passes took an answer to its INVITE that carried the marker. -/
theorem marked_of_pass (config : ProbeConfig) (marker : Marker) (inputs : List (Duration × Input))
    {run : ProbeRun} (finishes : .finish run ∈ (machine K).emitted (new config marker) inputs)
    (passes : run.verdict = .pass) : Machine.Happened (Marked K config marker) inputs := by
  have vouched : Vouched marker (Machine.Happened (Marked K config marker) inputs)
      ((machine K).after (new config marker) inputs,
        (machine K).emitted (new config marker) inputs) := by
    clear finishes
    induction inputs using List.reverseRecOn with
    | nil =>
        constructor
        · exact ⟨rfl, fun decided => by cases decided⟩
        · exact fun waiting => by cases waiting
        · exact fun run member => absurd member List.not_mem_nil
    | append_singleton past input ih =>
        have later : Machine.Happened (Marked K config marker) past →
            Machine.Happened (Marked K config marker) (past ++ [input]) :=
          fun happened => Machine.happened_concat_iff.mpr (.inl happened)
        have turn : Vouched marker (Machine.Happened (Marked K config marker) (past ++ [input]))
            (machine K ((machine K).after (new config marker) past) input) := by
          refine Steady.onInput ⟨ih.steady.isMarker, fun passed => later (ih.steady.pass passed)⟩
            (fun waiting => later (ih.bye waiting)) _ _ ?_
          intro waiting response isAnswer correlates success marked
          exact Machine.happened_concat_iff.mpr
            (.inr ⟨waiting, response, isAnswer, correlates, success, marked⟩)
        rw [Machine.after_concat, Machine.emitted_concat]
        constructor
        · exact turn.steady
        · exact turn.bye
        · intro run member passed
          rcases List.mem_append.mp member with earlier | now
          · exact later (ih.finished run earlier passed)
          · exact turn.finished run now passed
  exact vouched.finished run finishes passes

end Vouched

end ProbeEngine

/-! ## The call -/

section Calls

variable (K : Kernel) [Inhabited K.Uri]

/-- What the probe has taken in. -/
def probeInputs (setting : Setting) (world : World (parties K setting)) : List (Duration × Input) :=
  world.history .probe

/-- What the echo has taken in. -/
def echoInputs (setting : Setting) (world : World (parties K setting)) : List (Echo.Input K.Uri) :=
  world.history .echo

/-- The effects of the probe's run so far. -/
def probeEffects (setting : Setting) (world : World (parties K setting)) : List (Effect K.Uri) :=
  (ProbeEngine.machine K).emitted (.new setting.probe setting.marker) (probeInputs K setting world)

/-- The echo took this call, and answered it like this. -/
def Answered (setting : Setting) (world : World (parties K setting)) (call : Request K.Uri)
    (answer : Response) : Prop :=
  ∃ past later, echoInputs K setting world = past ++ .request call :: later ∧
    answer ∈ Echo.responsesIn
      (Echo.onInput K ((Echo.onInput K).after (.new setting.echo) past) (.request call)).2

/-- How a call of the run went, from the INVITE sent to the answer heard. -/
structure Completed (setting : Setting) (world : World (parties K setting))
    (invite call : Request K.Uri) (answer heard : Response) : Prop where
  sent : invite ∈ requestsOf (probeEffects K setting world)
  isInvite : invite.method = .invite
  relayed : Relays invite call
  answered : Answered K setting world call answer
  returned : Returns answer heard
  taken : heard ∈ responsesOf (probeInputs K setting world)
  success : isSuccess heard.status = true
  marked : Marker.of heard.headers = some setting.marker

/-- A marked call was relayed from the probe, and a marked response was returned by the echo. -/
def Sourced (setting : Setting) (world : World (parties K setting)) : Message K.Uri → Prop
  | .request request =>
      request.method = .invite → Marker.of request.headers = some setting.marker →
        ∃ invite ∈ requestsOf (probeEffects K setting world), Relays invite request
  | .response response =>
      Marker.of response.headers = some setting.marker →
        ∃ call answer, Answered K setting world call answer ∧ call.method = .invite ∧
          Marker.of call.headers = some setting.marker ∧ Returns answer response

variable {K} {setting : Setting} {world : World (parties K setting)}

theorem sourced_of_strange {message : Message K.Uri} (strange : Strange setting.marker message) :
    Sourced K setting world message := by
  cases message with
  | request request => exact fun isInvite marked => absurd marked (strange isInvite)
  | response response => exact fun marked => absurd marked strange

theorem sourced_probe {history : List (Duration × Input)}
    (isPrefix : history <+: probeInputs K setting world) :
    ∀ message ∈ (probeParty K setting.probe setting.marker).sent history,
      Sourced K setting world message := by
  intro message member
  have inWorld := (Party.sent_prefix isPrefix).subset member
  obtain ⟨effect, emitted, sends⟩ := List.mem_filterMap.mp inWorld
  obtain ⟨request, isRequest, rfl⟩ := Option.map_eq_some_iff.mp sends
  exact fun _ _ => ⟨request, List.mem_filterMap.mpr ⟨effect, emitted, isRequest⟩, .refl request⟩

omit [Inhabited K.Uri] in
theorem responsesIn_register (echo : Echo.EchoEndpoint) :
    Echo.responsesIn (Echo.register K echo).2 = [] := by
  unfold Echo.register
  simp only
  split <;> rfl

omit [Inhabited K.Uri] in
/-- What the echo sends out of its own accord is a REGISTER. -/
theorem method_of_echo {echo : Echo.EchoEndpoint} {input : Echo.Input K.Uri} {request : Request K.Uri}
    (member : request ∈ Echo.requestsIn (Echo.onInput K echo input).2) :
    request.method = .register := by
  have registers : request ∈ Echo.requestsIn (Echo.register K echo).2 → request.method = .register := by
    intro registering
    unfold Echo.register at registering
    simp only at registering
    split at registering
    · exact absurd registering List.not_mem_nil
    · next built isBuilt =>
        rw [List.mem_singleton.mp (show request ∈ [built] from registering)]
        obtain ⟨target, -, accepted⟩ := Option.bind_eq_some_iff.mp isBuilt
        split at accepted
        · rw [← Option.some.inj accepted]
          exact ProbeEngine.method_buildRequest _ _ _
        · contradiction
  cases input with
  | start => exact registers member
  | refreshDue => exact registers member
  | request arrived =>
      change request ∈ Echo.requestsIn (Echo.onRequest K echo arrived).2 at member
      rw [(Echo.requestsIn_onRequest echo arrived).1] at member
      exact absurd member List.not_mem_nil

theorem sourced_echo (responds : K.Responds) (leaves : Echo.LeavesSubject K)
    {history : List (Echo.Input K.Uri)} (isPrefix : history <+: echoInputs K setting world) :
    ∀ message ∈ (echoParty K setting.echo).sent history, Sourced K setting world message := by
  intro message member
  have turn : ∃ (past : List (Echo.Input K.Uri)) (input : Echo.Input K.Uri)
      (later : List (Echo.Input K.Uri)), history = past ++ input :: later ∧
        message ∈ (Echo.onInput K ((Echo.onInput K).after (.new setting.echo) past) input).2.filterMap
          Echo.Effect.message? := Party.exists_turn member
  obtain ⟨past, input, later, rfl, sent⟩ := turn
  obtain ⟨effect, emitted, sends⟩ := List.mem_filterMap.mp sent
  cases message with
  | request request =>
      have isRequest : effect.request? = some request := by
        cases effect <;> cases sends
        rfl
      have registers := method_of_echo (List.mem_filterMap.mpr ⟨effect, emitted, isRequest⟩)
      intro isInvite
      rw [registers] at isInvite
      contradiction
  | response response =>
      have isResponse : effect.response? = some response := by
        cases effect <;> cases sends
        rfl
      have answers := List.mem_filterMap.mpr ⟨effect, emitted, isResponse⟩
      intro marked
      cases input with
      | start | refreshDue =>
          change response ∈ Echo.responsesIn (Echo.register K _).2 at answers
          rw [responsesIn_register] at answers
          exact absurd answers List.not_mem_nil
      | request call =>
          obtain ⟨rest, split⟩ := isPrefix
          have guarded := (Echo.guarded_onRequest responds leaves _ call answers).2 _ marked
          exact ⟨call, response, ⟨past, later ++ rest, by rw [← split]; simp, answers⟩, guarded.1,
            guarded.2, .refl response⟩

theorem sourced_element (accepts : Proxy.AcceptsNumbers K) (leaves : Echo.LeavesSubject K)
    (number : Nat) {history : List (Proxy.Input K.Uri)}
    (arrived : ∀ message ∈ (elementParty K (setting.element number)).taken history,
      Sourced K setting world message) :
    ∀ message ∈ (elementParty K (setting.element number)).sent history,
      Sourced K setting world message := by
  intro message member
  obtain ⟨effect, emitted, sends⟩ := List.mem_filterMap.mp member
  cases message with
  | request request =>
      obtain ⟨copy, isCopy, rfl⟩ : ∃ copy, effect.copy? = some copy ∧ copy.request = request := by
        cases effect <;> cases sends
        exact ⟨_, rfl, rfl⟩
      obtain ⟨source, taken, transparent⟩ := Proxy.exists_transparent accepts
        (setting.element number) history (List.mem_filterMap.mpr ⟨effect, emitted, isCopy⟩)
      have sourced := arrived _ (List.mem_filterMap.mpr ⟨_, taken, rfl⟩)
      intro isInvite marked
      have sameMarker : Marker.of copy.request.headers = Marker.of source.headers :=
        Marker.of_congr (transparent.rows markerHeader (by decide))
      obtain ⟨invite, sent, relays⟩ :=
        sourced (transparent.method.symm.trans isInvite) (sameMarker.symm.trans marked)
      exact ⟨invite, sent, relays.copied transparent⟩
  | response response =>
      have isAnswer : effect.answer? = some response := by
        cases effect <;> cases sends
        rfl
      intro marked
      rcases Proxy.answers_after (setting.element number) history response
          (List.mem_filterMap.mpr ⟨effect, emitted, isAnswer⟩) with ⟨source, delivered, without⟩ | made
      · obtain ⟨branch, taken⟩ := Proxy.mem_delivered.mp delivered
        have sourced := arrived _ (List.mem_filterMap.mpr ⟨_, taken, rfl⟩)
        have sameMarker : Marker.of response.headers = Marker.of source.headers :=
          Marker.of_congr (without.rows markerHeader (by decide))
        obtain ⟨call, answer, answered, isInvite, called, returns⟩ :=
          sourced (sameMarker.symm.trans marked)
        exact ⟨call, answer, answered, isInvite, called, returns.popped without⟩
      · have unmarked := made.getAll leaves (by decide)
        simp [Marker.of, Headers.value, Headers.get, unmarked] at marked

theorem carried_probe (reached : world.Reached (Strange setting.marker)) {input : Duration × Input}
    (member : input ∈ probeInputs K setting world) {response : Response}
    (isAnswer : response ∈ input.2.answer) : world.Carries (.response response) := by
  have taken : Message.response response ∈
      (parties K setting .probe).taken (world.history .probe) :=
    List.mem_filterMap.mpr ⟨input, member, Option.map_eq_some_iff.mpr ⟨response, isAnswer, rfl⟩⟩
  exact reached.carried taken

theorem carried_echo (reached : world.Reached (Strange setting.marker)) {call : Request K.Uri}
    (member : .request call ∈ echoInputs K setting world) : world.Carries (.request call) := by
  have taken : Message.request call ∈ (parties K setting .echo).taken (world.history .echo) :=
    List.mem_filterMap.mpr ⟨_, member, rfl⟩
  exact reached.carried taken

/-- Whatever the probe sends is on the way. -/
theorem carries_probed {request : Request K.Uri}
    (member : request ∈ requestsOf (probeEffects K setting world)) :
    world.Carries (.request request) := by
  obtain ⟨effect, emitted, isRequest⟩ := List.mem_filterMap.mp member
  exact .inr ⟨.probe, List.mem_filterMap.mpr
    ⟨effect, emitted, Option.map_eq_some_iff.mpr ⟨request, isRequest, rfl⟩⟩⟩

/-- Whatever the echo answers is on the way. -/
theorem carries_echoed {response : Response}
    (member : response ∈ Echo.responsesIn
      ((Echo.onInput K).emitted (.new setting.echo) (echoInputs K setting world))) :
    world.Carries (.response response) := by
  obtain ⟨effect, emitted, isResponse⟩ := List.mem_filterMap.mp member
  refine .inr ⟨.echo, List.mem_filterMap.mpr ⟨effect, emitted, ?_⟩⟩
  cases effect <;> cases isResponse
  rfl

/-- Whatever an element forwards or answers is on the way. -/
theorem carries_relayed (number : Nat) {history : List (Proxy.Input K.Uri)}
    (isHistory : world.history (.element number) = history) :
    (∀ copy ∈ Proxy.copies ((Proxy.onInput K).emitted (.new (setting.element number)) history),
      world.Carries (.request copy.request)) ∧
      ∀ response ∈ Proxy.answers ((Proxy.onInput K).emitted (.new (setting.element number)) history),
        world.Carries (.response response) := by
  subst isHistory
  constructor
  · intro copy member
    obtain ⟨effect, emitted, isCopy⟩ := List.mem_filterMap.mp member
    refine .inr ⟨.element number, List.mem_filterMap.mpr ⟨effect, emitted, ?_⟩⟩
    cases effect <;> cases isCopy
    rfl
  · intro response member
    obtain ⟨effect, emitted, isAnswer⟩ := List.mem_filterMap.mp member
    refine .inr ⟨.element number, List.mem_filterMap.mpr ⟨effect, emitted, ?_⟩⟩
    cases effect <;> cases isAnswer
    rfl

/-- A run that passes had its INVITE relayed to the echo, answered there, and the answer returned. -/
theorem completed_of_pass (accepts : Proxy.AcceptsNumbers K) (responds : K.Responds)
    (leaves : Echo.LeavesSubject K) (reached : world.Reached (Strange setting.marker))
    {run : ProbeRun} (finishes : .finish run ∈ probeEffects K setting world)
    (passes : run.verdict = .pass) :
    ∃ invite call answer heard, Completed K setting world invite call answer heard := by
  have sourced : ∀ message, world.Carries message → Sourced K setting world message := by
    apply reached.carries_of fun message strange => sourced_of_strange strange
    intro place history isPrefix arrived
    cases place with
    | probe => exact sourced_probe isPrefix
    | echo => exact sourced_echo responds leaves isPrefix
    | element number => exact sourced_element accepts leaves number arrived
  obtain ⟨past, input, later, split, -, heard, isAnswer, -, success, marked⟩ :=
    ProbeEngine.marked_of_pass setting.probe setting.marker _ finishes passes
  have taken : input ∈ probeInputs K setting world := by
    rw [split]
    simp
  obtain ⟨call, answer, answered, isInvite, called, returned⟩ :=
    sourced _ (carried_probe reached taken isAnswer) marked
  obtain ⟨before, after, calls, -⟩ := id answered
  have arrived : Echo.Input.request call ∈ echoInputs K setting world := by
    rw [calls]
    simp
  obtain ⟨invite, sent, relayed⟩ := sourced _ (carried_echo reached arrived) isInvite called
  exact ⟨invite, call, answer, heard, sent, relayed.method.symm.trans isInvite, relayed, answered,
    returned, List.mem_filterMap.mpr ⟨input, taken, isAnswer⟩, success, marked⟩

end Calls

/-! ## A call that passes -/

section Passing

open ProbeEngine

/-- A probe and an echo with proxies between them. -/
def sampleSetting : Setting where
  probe := sampleConfig
  marker := ⟨text "m"⟩
  echo := Echo.testConfig
  element _ := Proxy.edge

/-- The run has registered, and calls. -/
def calling : World (parties Reference.kernel sampleSetting) :=
  (((World.start.feed .probe ((0 : Duration), Input.start)).feed .probe
    ((1 : Duration), Input.resolved (.ok ()))).stray (.response (okTo 1))).feed .probe
      ((2 : Duration), Input.response (okTo 1))

def inviteSent : Request Reference.kernel.Uri :=
  (requestsOf (probeEffects Reference.kernel sampleSetting calling))[1]?.get (by decide +kernel)

/-- A proxy forwards the call to the echo. -/
def relaying : World (parties Reference.kernel sampleSetting) :=
  (calling.feed (.element 0) (Proxy.Input.upstream inviteSent)).feed (.element 0)
    (Proxy.Input.targetsResolved [Proxy.phone "sip:echo@10.8.8.8" 1000])

def copySent : Proxy.Copy Reference.kernel.Uri :=
  (Proxy.copies ((Proxy.onInput Reference.kernel).emitted (.new Proxy.edge)
    [.upstream inviteSent, .targetsResolved [Proxy.phone "sip:echo@10.8.8.8" 1000]]))[0]?.get
      (by decide +kernel)

/-- The echo answers it. -/
def answering : World (parties Reference.kernel sampleSetting) :=
  relaying.feed .echo (Echo.Input.request copySent.request)

def answerSent : Response :=
  (Echo.responsesIn ((Echo.onInput Reference.kernel).emitted (.new Echo.testConfig)
    [.request copySent.request]))[0]?.get (by decide +kernel)

/-- The proxy returns the answer. -/
def returning : World (parties Reference.kernel sampleSetting) :=
  answering.feed (.element 0) (Proxy.Input.branchResponse answerSent copySent.branch)

/-- The probe takes it, hangs up and removes its registration. -/
def passing : World (parties Reference.kernel sampleSetting) :=
  ((((returning.feed .probe ((3 : Duration), Input.response (Proxy.popVia answerSent))).stray
    (.response (okTo 4))).feed .probe ((4 : Duration), Input.response (okTo 4))).stray
      (.response (okTo 5))).feed .probe ((5 : Duration), Input.response (okTo 5))

/-- Every message of the call was sent by somebody before it arrives. -/
theorem reached_passing : passing.Reached (Strange sampleSetting.marker) := by
  have quiet : ∀ number, Strange sampleSetting.marker
      (.response (okTo number) : Message Reference.kernel.Uri) := by
    intro number marked
    have unmarked : Marker.of (okTo number).headers = none := rfl
    rw [unmarked] at marked
    contradiction
  have strayed : ∀ {world : World (parties Reference.kernel sampleSetting)} {response : Response},
      (world.stray (.response response)).Carries (.response response) :=
    .inl (by simp [World.stray])
  have called : calling.Reached (Strange sampleSetting.marker) := by
    refine World.Reached.takes (World.Reached.strays ?_ (quiet 1)) _ _ ?_
    · refine World.Reached.takes (World.Reached.takes .refl _ _ ?_) _ _ ?_
      · rintro message ⟨⟩
      · rintro message ⟨⟩
    · rintro message ⟨⟩
      exact strayed
  have relayed : relaying.Reached (Strange sampleSetting.marker) := by
    refine World.Reached.takes (World.Reached.takes called _ _ ?_) _ _ ?_
    · rintro message ⟨⟩
      exact carries_probed (List.mem_of_getElem? (Option.some_get _).symm)
    · rintro message ⟨⟩
  have answered : answering.Reached (Strange sampleSetting.marker) := by
    refine World.Reached.takes relayed _ _ ?_
    rintro message ⟨⟩
    exact (carries_relayed 0 rfl).1 copySent (List.mem_of_getElem? (Option.some_get _).symm)
  have returned : returning.Reached (Strange sampleSetting.marker) := by
    refine World.Reached.takes answered _ _ ?_
    rintro message ⟨⟩
    exact carries_echoed (List.mem_of_getElem? (Option.some_get _).symm)
  refine World.Reached.takes (World.Reached.strays (World.Reached.takes (World.Reached.strays
    (World.Reached.takes returned _ _ ?_) (quiet 4)) _ _ ?_) (quiet 5)) _ _ ?_
  · rintro message ⟨⟩
    apply (carries_relayed 0 rfl).2
    decide +kernel
  · rintro message ⟨⟩
    exact strayed
  · rintro message ⟨⟩
    exact strayed

def Effect.finished? {Uri : Type} : Effect Uri → Option ProbeRun
  | .finish run => some run
  | _ => none

/-- The call of a run that passes went through a proxy to the echo and back. -/
theorem completed_passing :
    ∃ invite call answer heard,
      Completed Reference.kernel sampleSetting passing invite call answer heard := by
  have passes : (((probeEffects Reference.kernel sampleSetting passing).filterMap
      Effect.finished?).map ProbeRun.verdict) = [.pass] := by decide +kernel
  obtain ⟨run, isRun, isPass⟩ := List.mem_map.mp (passes ▸ List.mem_singleton_self Verdict.pass)
  obtain ⟨effect, emitted, isFinish⟩ := List.mem_filterMap.mp isRun
  have finishes : Effect.finish run ∈ probeEffects Reference.kernel sampleSetting passing := by
    cases effect <;> cases isFinish
    exact emitted
  exact completed_of_pass Proxy.acceptsNumbers_reference Reference.kernel_responds
    Echo.leavesSubject_reference reached_passing finishes isPass

end Passing

end SipxClstr.Probe
