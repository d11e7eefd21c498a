import SipxClstr.Probe.Cleanup

/-!
# Whose answer a response is

A run waits for the answer of one request at a time.  The sequence number it compares a
response with is always that request's, so no answer is taken for another's.
-/

namespace SipxClstr.Probe

open SipxClstr.Sip

/-- The request asks for what a run waits for here.  A kernel that refuses a header value
leaves the request bare. -/
def Serves {Uri : Type} (config : ProbeConfig) : Waiting → Request Uri → Prop
  | .step .register, request =>
      request.method = .register ∧ (request.headers = [] ∨ RegistersFor config 3600 request)
  | .cleanup .register, request =>
      request.method = .register ∧ (request.headers = [] ∨ Deregisters config request)
  | .step .invite, request => request.method = .invite
  | .step .bye, request => request.method = .bye
  | .cleanup .bye, request => request.method = .bye
  | _, _ => False

namespace ProbeEngine

section Runs

variable (K : Kernel) [Inhabited K.Uri]

/-- The requests a run has sent for what it awaits, in order.  An ACK asks for nothing. -/
def askedFor (awaited : Waiting) (engine : ProbeEngine) (inputs : List (Duration × Input)) :
    List (Request K.Uri) :=
  ((machine K).observed (fun engine input =>
      if (machine K engine input).1.waiting = awaited then
        (requestsOf (machine K engine input).2).filter fun request => request.method ≠ .ack
      else
        []) engine inputs).flatten

/-- A turn without effect: nothing is emitted, and nothing but the time changes. -/
def Inert (engine : ProbeEngine) (outcome : ProbeEngine × List (Effect K.Uri)) : Prop :=
  outcome.2 = [] ∧ ∃ now, outcome.1 = { engine with now := now }

/-- What a response may do to a run of this past. -/
structure Attributed (config : ProbeConfig) (marker : Marker) (past : List (Duration × Input))
    (response : Response) (outcome : ProbeEngine × List (Effect K.Uri)) : Prop where
  /-- A response with an effect is the final answer of the latest request sent for what
  the run waits for. -/
  heard : ¬ Inert K ((machine K).after (new config marker) past) outcome →
    response.status.isProvisional = false ∧ ∃ awaited last,
      ((machine K).after (new config marker) past).waiting = awaited ∧
        ((new config marker).askedFor K awaited past).getLast? = some last ∧
          Serves config awaited last ∧ Answers response last
  /-- The answer of an ACK, or of a request that was not the last to be answered, has no
  effect. -/
  stale : ∀ before request after, (new config marker).sent K past = before ++ request :: after →
    Answers response request → (request.method = .ack ∨ ∃ later ∈ after, later.method ≠ .ack) →
      Inert K ((machine K).after (new config marker) past) outcome

end Runs

/-! ## The numbers of the requests -/

section Numbers

theorem parseUnsigned_mono {few many number : Nat} {value : Text} (le : few ≤ many)
    (parsed : parseUnsigned few value = some number) : parseUnsigned many value = some number := by
  simp only [parseUnsigned, Option.ite_none_right_eq_some] at parsed ⊢
  obtain ⟨⟨nonempty, digits, fits⟩, isNumber⟩ := parsed
  exact ⟨⟨nonempty, digits, fits.trans le⟩, isNumber⟩

/-- Digits parse back to no other number. -/
theorem eq_of_parseUnsigned_decimal {max value number : Nat}
    (parsed : parseUnsigned max (decimal value) = some number) : number = value := by
  have wide := parseUnsigned_mono (le_max_left max value) parsed
  rw [parseUnsigned_decimal (le_max_right max value)] at wide
  exact (Option.some.inj wide).symm

variable {K : Kernel} [Inhabited K.Uri] {number : Nat}

omit [Inhabited K.Uri] in
theorem headers_buildRequest_cases (rows : List (HeaderName × Text)) (method : Method)
    (uri : K.Uri) :
    (buildRequest K method uri rows).headers = [] ∨
      ∀ row ∈ rows, K.acceptsValue row.1 (utf8 row.2) = true := by
  unfold buildRequest
  split
  next accepted => exact .inr (List.all_eq_true.mp accepted)
  next => exact .inl rfl

omit [Inhabited K.Uri] in
theorem not_numbered_of_bare {request : Request K.Uri} (bare : request.headers = []) :
    ¬ Numbered number request := by
  simp [Numbered, cseqNumber, bare, Headers.value, Headers.get, Headers.getAll]

theorem eq_of_cseq_reads {cseq : Nat} (method : Text)
    (read : (firstWord (decimal cseq ++ text " " ++ method)).bind (parseUnsigned u32Max) =
      some number) : number = cseq := by
  rw [firstWord_append_space (decimal_ne_nil cseq) fun c member =>
    isWhitespace_eq_false_of_isDigit (isDigit_of_mem_decimal member)] at read
  exact eq_of_parseUnsigned_decimal read

/-- A request carries no number but the one it was built at. -/
theorem eq_of_numbered_register (engine : ProbeEngine) (expires : Nat)
    (numbered : Numbered number (engine.registerRequest K expires).2) :
    number = engine.cseq + 1 := by
  simp only [registerRequest] at numbered
  rcases headers_buildRequest_cases (K := K) (engine.awaitNext.registerRows expires) .register
      (uriOrPlaceholder K (text "sip:" ++ engine.awaitNext.config.target.address)) with
    bare | accepted
  · exact absurd numbered (not_numbered_of_bare bare)
  · rw [Numbered, cseqNumber, headers_buildRequest accepted] at numbered
    apply eq_of_cseq_reads Method.register.token
    simpa [Headers.value, Headers.get, Headers.getAll, registerRows, contactHeader, markerHeader,
      fromUtf8Lossy_utf8, awaitNext] using numbered

theorem eq_of_numbered_simple (engine : ProbeEngine) (method : Method) (recipient : Text)
    (numbered : Numbered number (engine.simpleRequest K method recipient).2) :
    number = engine.cseq + 1 := by
  have reads : ∀ next : ProbeEngine, next.cseq = engine.cseq + 1 →
      Numbered number (buildRequest K method (uriOrPlaceholder K recipient)
        (next.simpleRows method recipient)) → number = engine.cseq + 1 := by
    intro next same numbered
    rcases headers_buildRequest_cases (K := K) (next.simpleRows method recipient) method
        (uriOrPlaceholder K recipient) with bare | accepted
    · exact absurd numbered (not_numbered_of_bare bare)
    · rw [Numbered, cseqNumber, headers_buildRequest accepted] at numbered
      rw [← same]
      apply eq_of_cseq_reads method.token
      simpa [Headers.value, Headers.get, Headers.getAll, simpleRows, markerHeader,
        fromUtf8Lossy_utf8] using numbered
  unfold simpleRequest at numbered
  split at numbered <;> exact reads _ rfl numbered

end Numbers

/-! ## One turn -/

section Turns

variable {K : Kernel} [Inhabited K.Uri] {engine : ProbeEngine} {config : ProbeConfig} {cseq : Nat}

/-- What a turn that sends or ends leaves of a run at this sequence number: the run is
over, or it waits for the answer of the last request it sent, built at the last number. -/
inductive Sends (config : ProbeConfig) (cseq : Nat) (outcome : ProbeEngine × List (Effect K.Uri)) :
    Prop where
  | ends (finished : outcome.1.state.finished = true) (silent : requestsOf outcome.2 = [])
  | asks (skipped : List (Request K.Uri)) (last : Request K.Uri)
      (sends : requestsOf outcome.2 = skipped ++ [last])
      (acks : ∀ request ∈ skipped, request.method = .ack)
      (sameConfig : outcome.1.config = config) (further : cseq < outcome.1.cseq)
      (earlier : ∀ request ∈ skipped, ∀ number, Numbered number request → number < outcome.1.cseq)
      (exact : ∀ number, Numbered number last → number = outcome.1.cseq)
      (outstanding : outcome.1.outstandingCseq = some outcome.1.cseq)
      (serves : Serves config outcome.1.waiting last)

omit [Inhabited K.Uri] in
theorem Sends.clears {next : ProbeEngine} {effects : List (Effect K.Uri)}
    (sends : Sends config cseq (next, effects)) (step : Step) :
    Sends config cseq (next, .clearTimer step :: effects) := by
  rcases sends with ⟨finished, silent⟩ |
    ⟨skipped, last, sends, acks, same, further, earlier, exact, outstanding, serves⟩
  · exact .ends finished silent
  · exact .asks skipped last sends acks same further earlier exact outstanding serves

theorem method_registerRequest (engine : ProbeEngine) (expires : Nat) :
    (engine.registerRequest K expires).2.method = .register :=
  method_buildRequest _ _ _

theorem method_simpleRequest (engine : ProbeEngine) (method : Method) (recipient : Text) :
    (engine.simpleRequest K method recipient).2.method = method :=
  method_buildRequest _ _ _

theorem bare_or_registersFor (engine : ProbeEngine) (expires : Nat) :
    (engine.registerRequest K expires).2.headers = [] ∨
      RegistersFor engine.config expires (engine.registerRequest K expires).2 := by
  simp only [registerRequest]
  rcases headers_buildRequest_cases (K := K) (engine.awaitNext.registerRows expires) .register
      (uriOrPlaceholder K (text "sip:" ++ engine.awaitNext.config.target.address)) with
    bare | accepted
  · exact .inl bare
  · exact .inr (registersFor_registerRows engine.awaitNext _ accepted)

omit [Inhabited K.Uri] in
/-- One request, and the run awaits its answer. -/
theorem Sends.single {outcome : ProbeEngine × List (Effect K.Uri)} (last : Request K.Uri)
    (sends : requestsOf outcome.2 = [last]) (isConfig : outcome.1.config = config)
    (isNext : outcome.1.cseq = cseq + 1)
    (outstanding : outcome.1.outstandingCseq = some (cseq + 1))
    (exact : ∀ number, Numbered number last → number = cseq + 1)
    (serves : Serves config outcome.1.waiting last) : Sends config cseq outcome := by
  apply Sends.asks [] last sends
  · simp
  · exact isConfig
  · simp [isNext]
  · simp
  · rwa [isNext]
  · rw [outstanding, isNext]
  · exact serves

/-- A run that sends one request and awaits the answer. -/
theorem sends_register (engine : ProbeEngine) (expires : Nat)
    {effects : List (Effect K.Uri)}
    (sends : requestsOf effects = [(engine.registerRequest K expires).2])
    (purpose : engine.waiting = .step .register ∧ expires = 3600 ∨
      engine.waiting = .cleanup .register ∧ expires = 0) :
    Sends engine.config engine.cseq ((engine.registerRequest K expires).1, effects) := by
  refine Sends.single _ sends rfl rfl rfl ?_ ?_
  · intro number numbered
    exact eq_of_numbered_register engine expires numbered
  · change Serves _ engine.waiting _
    rcases purpose with ⟨waiting, rfl⟩ | ⟨waiting, rfl⟩ <;> rw [waiting] <;>
      exact ⟨method_registerRequest engine _, bare_or_registersFor engine _⟩

theorem sends_simple (engine : ProbeEngine) (method : Method) (recipient : Text)
    {effects : List (Effect K.Uri)}
    (sends : requestsOf effects = [(engine.simpleRequest K method recipient).2])
    (purpose : engine.waiting = .step .invite ∧ method = .invite ∨
      engine.waiting.awaited = some .bye ∧ method = .bye) :
    Sends engine.config engine.cseq ((engine.simpleRequest K method recipient).1, effects) := by
  have notAck : method ≠ .ack := by
    rcases purpose with ⟨-, rfl⟩ | ⟨-, rfl⟩ <;> simp
  have next : (engine.simpleRequest K method recipient).1 = engine.awaitNext := by
    simp [simpleRequest, notAck]
  rw [next]
  refine Sends.single _ sends rfl rfl rfl ?_ ?_
  · intro number numbered
    exact eq_of_numbered_simple engine method recipient numbered
  · change Serves _ engine.waiting _
    have isMethod := method_simpleRequest (K := K) engine method recipient
    rcases purpose with ⟨waiting, rfl⟩ | ⟨awaited, rfl⟩
    · rw [waiting]
      exact isMethod
    · rcases waiting : engine.waiting with _ | step | step <;> rw [waiting] at awaited <;>
        cases awaited <;> exact isMethod

theorem sends_cleanup (engine : ProbeEngine) :
    Sends engine.config engine.cseq (engine.cleanup K) := by
  unfold cleanup
  split
  · exact sends_simple { engine with
      state := engine.state.forget .endDialog
      waiting := .cleanup .bye } .bye engine.config.echoAor rfl (.inr ⟨rfl, rfl⟩)
  · split
    · exact sends_register { engine with
        state := engine.state.forget .deregister
        waiting := .cleanup .register } 0 rfl (.inr ⟨rfl, rfl⟩)
    · exact .ends rfl rfl

@[simp]
theorem config_decide (verdict : Verdict) : (engine.decide verdict).config = engine.config := by
  unfold decide
  split <;> rfl

@[simp]
theorem cseq_decide (verdict : Verdict) : (engine.decide verdict).cseq = engine.cseq := by
  unfold decide
  split <;> rfl

@[simp]
theorem config_concludeStep (succeeded : Bool) :
    (engine.concludeStep succeeded).config = engine.config := by
  unfold concludeStep
  split <;> rfl

@[simp]
theorem cseq_concludeStep (succeeded : Bool) :
    (engine.concludeStep succeeded).cseq = engine.cseq := by
  unfold concludeStep
  split <;> rfl

/-- Cleaning up from a state of this configuration and number. -/
theorem sends_cleanup_of {source : ProbeEngine} (isConfig : source.config = config)
    (isNumber : source.cseq = cseq) : Sends config cseq (source.cleanup K) :=
  isConfig ▸ isNumber ▸ sends_cleanup source

theorem sends_fail (engine : ProbeEngine) (step : Step) (cause : Cause) :
    Sends engine.config engine.cseq (engine.fail K step cause) := by
  apply Sends.clears
  apply sends_cleanup_of
  all_goals
    unfold failed
    split <;> simp

theorem sends_failStep (engine : ProbeEngine) (step : Step) (cause : Cause) :
    Sends engine.config engine.cseq ((engine.concludeStep false).fail K step cause) := by
  have sends := sends_fail (K := K) (engine.concludeStep false) step cause
  rwa [config_concludeStep, cseq_concludeStep] at sends

theorem sends_abandon (engine : ProbeEngine) (fault : ProbeFault) :
    Sends engine.config engine.cseq (engine.abandon K fault) := by
  simp only [abandon]
  split
  · apply Sends.clears
    apply sends_cleanup_of <;> simp
  · apply sends_cleanup_of <;> simp

theorem sends_afterCleanup (engine : ProbeEngine) (step : Step) :
    Sends engine.config engine.cseq (engine.afterCleanup K step) := by
  apply Sends.clears
  exact sends_cleanup_of rfl rfl

theorem sends_sendRegister (engine : ProbeEngine) :
    Sends engine.config engine.cseq (engine.sendRegister K) :=
  sends_register (engine.begin .register) 3600 rfl (.inl ⟨rfl, rfl⟩)

theorem sends_sendInvite (engine : ProbeEngine) :
    Sends engine.config engine.cseq (engine.sendInvite K) :=
  sends_simple (engine.begin .invite) .invite engine.config.echoAor rfl (.inl ⟨rfl, rfl⟩)

/-- The ACK takes the number before the BYE's. -/
theorem sends_sendBye (engine : ProbeEngine) :
    Sends engine.config engine.cseq (engine.sendBye K) := by
  refine Sends.asks [((engine.begin .bye).simpleRequest K .ack engine.config.echoAor).2]
    ((engine.begin .bye).skipNext.simpleRequest K .bye engine.config.echoAor).2
    rfl ?_ rfl ?_ ?_ ?_ rfl ?_
  · intro request member
    rw [List.mem_singleton.mp member]
    exact method_simpleRequest _ _ _
  · exact Nat.lt_succ_of_le (Nat.le_succ _)
  · intro request member number numbered
    rw [List.mem_singleton.mp member] at numbered
    rw [eq_of_numbered_simple _ _ _ numbered]
    exact Nat.lt_succ_self _
  · intro number numbered
    exact eq_of_numbered_simple _ _ _ numbered
  · exact method_simpleRequest _ _ _

theorem sends_retryChallenged (engine : ProbeEngine) {step : Step}
    (waiting : engine.waiting = .step step) (notResolve : step ≠ .resolve) :
    Sends engine.config engine.cseq (engine.retryChallenged K step) := by
  cases step with
  | resolve => contradiction
  | register => exact sends_register engine 3600 rfl (.inl ⟨waiting, rfl⟩)
  | invite => exact sends_simple engine .invite engine.config.echoAor rfl (.inl ⟨waiting, rfl⟩)
  | bye =>
      apply sends_simple engine .bye engine.config.echoAor rfl
      rw [waiting]
      exact .inr ⟨rfl, rfl⟩

theorem sends_onStepSuccess (engine : ProbeEngine) {step : Step} (notResolve : step ≠ .resolve)
    (response : Response) :
    Sends engine.config engine.cseq (engine.onStepSuccess K step response) := by
  have same : (engine.concludeStep true).config = engine.config := config_concludeStep true
  have number : (engine.concludeStep true).cseq = engine.cseq := cseq_concludeStep true
  cases step with
  | resolve => contradiction
  | register =>
      have sends := sends_sendInvite (K := K)
        { engine.concludeStep true with state := (engine.concludeStep true).state.owe .deregister }
      rwa [same, number] at sends
  | invite =>
      unfold onStepSuccess
      simp only
      split
      · have sends := sends_fail (K := K)
          { engine.concludeStep true with state := (engine.concludeStep true).state.owe .endDialog }
          .invite .markerMismatch
        rwa [same, number] at sends
      · have sends := sends_sendBye (K := K)
          { engine.concludeStep true with state := (engine.concludeStep true).state.owe .endDialog }
        rwa [same, number] at sends
  | bye => exact sends_cleanup_of same number

theorem sends_onStepResponse {step : Step} (waiting : engine.waiting = .step step)
    (notResolve : step ≠ .resolve) (status : Nat) (response : Response) :
    Sends engine.config engine.cseq (engine.onStepResponse K step status response) := by
  unfold onStepResponse
  split
  · split
    · exact sends_abandon engine _
    · split
      · exact sends_failStep engine step _
      · exact sends_retryChallenged { engine with
          state := { engine.state with answeredChallenge := true } } waiting notResolve
  · split
    · exact sends_failStep engine step _
    · split
      · exact sends_failStep engine step _
      · exact sends_onStepSuccess engine notResolve response

/-- How a response is taken: it has no effect, or it is the final answer the run expects
and the turn sends or ends. -/
theorem inert_or_sends_onResponse (engine : ProbeEngine) {awaited : Waiting} (waiting : engine.waiting = awaited)
    (notNothing : awaited ≠ .nothing) (notResolve : awaited ≠ .step .resolve)
    (outstanding : engine.outstandingCseq = some cseq) (response : Response) :
    (engine.onResponse K response = (engine, []) ∧
        (response.status.isProvisional = true ∨ cseqNumber response.headers ≠ some cseq)) ∨
      (response.status.isProvisional = false ∧ cseqNumber response.headers = some cseq ∧
        Sends engine.config engine.cseq (engine.onResponse K response)) := by
  unfold onResponse
  split
  next provisional => exact .inl ⟨rfl, .inl provisional⟩
  next final =>
    rw [Bool.not_eq_true] at final
    split
    next uncorrelated =>
      refine .inl ⟨rfl, .inr ?_⟩
      simpa [correlates, outstanding] using uncorrelated
    next correlated =>
      have heard : cseqNumber response.headers = some cseq := by
        simpa [correlates, outstanding] using correlated
      refine .inr ⟨final, heard, ?_⟩
      rcases awaited with _ | step | step
      · contradiction
      · simp only [waiting]
        apply sends_onStepResponse waiting
        rintro rfl
        exact notResolve rfl
      · simp only [waiting]
        split
        · exact sends_afterCleanup engine.cleanupFailed step
        · exact sends_afterCleanup engine step

end Turns

/-! ## Runs -/

section Runs

variable {K : Kernel} [Inhabited K.Uri] {config : ProbeConfig} {marker : Marker}

theorem askedFor_concat (awaited : Waiting) (engine : ProbeEngine)
    (past : List (Duration × Input)) (input : Duration × Input) :
    engine.askedFor K awaited (past ++ [input]) =
      engine.askedFor K awaited past ++
        if (machine K ((machine K).after engine past) input).1.waiting = awaited then
          (requestsOf (machine K ((machine K).after engine past) input).2).filter
            fun request => request.method ≠ .ack
        else
          [] := by
  rw [askedFor, Reactive.Machine.observed_concat, List.flatten_append, List.flatten_singleton]
  rfl

/-- What is known of a run that has not ended: it has sent nothing yet, or it waits for
the answer of the last request it sent. -/
inductive Tracked (config : ProbeConfig) (engine : ProbeEngine)
    (asked : Waiting → List (Request K.Uri)) :
    List (Request K.Uri) → Prop where
  | resolving (waiting : engine.waiting = .step .resolve) : Tracked config engine asked []
  | awaiting {before : List (Request K.Uri)} {last : Request K.Uri}
      (earlier : ∀ request ∈ before, ∀ number, Numbered number request → number < engine.cseq)
      (exact : ∀ number, Numbered number last → number = engine.cseq)
      (outstanding : engine.outstandingCseq = some engine.cseq)
      (serves : Serves config engine.waiting last)
      (latest : (asked engine.waiting).getLast? = some last) :
      Tracked config engine asked (before ++ [last])

omit [Inhabited K.Uri] in
theorem not_ack_of_serves {awaited : Waiting} {request : Request K.Uri}
    (serves : Serves config awaited request) : request.method ≠ .ack := by
  intro isAck
  rcases awaited with _ | step | step
  · exact serves
  all_goals
    cases step <;> simp [Serves, isAck] at serves

omit [Inhabited K.Uri] in
theorem Tracked.numbers {engine : ProbeEngine} {asked : Waiting → List (Request K.Uri)}
    {sent : List (Request K.Uri)} (tracked : Tracked config engine asked sent) :
    ∀ request ∈ sent, ∀ number, Numbered number request → number ≤ engine.cseq := by
  intro request member number numbered
  cases tracked with
  | resolving waiting => contradiction
  | awaiting earlier exact outstanding serves latest =>
      rcases List.mem_append.mp member with before | now
      · exact (earlier request before number numbered).le
      · rw [List.mem_singleton.mp now] at numbered
        exact (exact number numbered).le

omit [Inhabited K.Uri] in
/-- A turn that sends or ends leaves a run tracked. -/
theorem Sends.tracked {cseq : Nat} {outcome : ProbeEngine × List (Effect K.Uri)}
    (sends : Sends config cseq outcome) {asked next : Waiting → List (Request K.Uri)}
    {sent : List (Request K.Uri)}
    (numbers : ∀ request ∈ sent, ∀ number, Numbered number request → number ≤ cseq)
    (asks : next outcome.1.waiting = asked outcome.1.waiting ++
      (requestsOf outcome.2).filter fun request => request.method ≠ .ack) :
    outcome.1.state.finished = true ∨
      (outcome.1.config = config ∧ Tracked config outcome.1 next (sent ++ requestsOf outcome.2)) := by
  rcases sends with ⟨finished, silent⟩ |
    ⟨skipped, last, sends, acks, same, further, earlier, exact, outstanding, serves⟩
  · exact .inl finished
  · refine .inr ⟨same, ?_⟩
    rw [sends, ← List.append_assoc]
    apply Tracked.awaiting
    · intro request member number numbered
      rcases List.mem_append.mp member with old | new
      · exact (numbers request old number numbered).trans_lt further
      · exact earlier request new number numbered
    · exact exact
    · exact outstanding
    · exact serves
    · have notAck := not_ack_of_serves serves
      rw [asks, sends, List.filter_append, List.filter_eq_nil_iff.mpr, List.nil_append]
      · simp [notAck]
      · intro request member
        simp [acks request member]

/-- What a turn without a response does to a run that waits. -/
theorem inert_or_sends {engine : ProbeEngine} (unfinished : engine.state.finished = false)
    (awaits : engine.waiting ≠ .nothing) (now : Duration) {input : Input}
    (notStart : input ≠ .start) (unanswered : input.answer = none) :
    engine.onInput K now input = ({ engine with now := now }, []) ∨
      Sends engine.config engine.cseq (engine.onInput K now input) := by
  rw [onInput, if_neg (by simp [unfinished])]
  cases input with
  | start => contradiction
  | response response => contradiction
  | resolved outcome =>
      simp only [onResolved]
      split
      · exact .inl rfl
      · right
        cases outcome with
        | error _ => exact sends_failStep { engine with now := now } .resolve _
        | ok _ =>
            have sends := sends_sendRegister (K := K)
              (({ engine with now := now } : ProbeEngine).concludeStep true)
            rwa [config_concludeStep, cseq_concludeStep] at sends
  | transportError =>
      right
      simp only [onTransportError]
      split
      · exact sends_failStep { engine with now := now } _ _
      · exact sends_afterCleanup ({ engine with now := now } : ProbeEngine).cleanupFailed _
      · contradiction
  | timerFired step =>
      simp only [onTimeout]
      split
      · exact .inr (sends_failStep { engine with now := now } step _)
      · split
        · exact .inr
            (sends_afterCleanup ({ engine with now := now } : ProbeEngine).cleanupFailed step)
        · exact .inl rfl
  | cancelled => exact .inr (sends_abandon { engine with now := now } _)
  | localResourceUnavailable => exact .inr (sends_abandon { engine with now := now } _)

omit [Inhabited K.Uri] in
theorem Tracked.later {engine : ProbeEngine} {asked : Waiting → List (Request K.Uri)}
    {sent : List (Request K.Uri)} (tracked : Tracked config engine asked sent) (now : Duration) :
    Tracked config { engine with now := now } asked sent := by
  cases tracked with
  | resolving waiting => exact .resolving waiting
  | awaiting earlier exact outstanding serves latest =>
      exact .awaiting earlier exact outstanding serves latest

/-- A response to a request of the run has no effect, or it answers the last request sent
and no other. -/
theorem inert_or_answers_last {engine : ProbeEngine} {asked : Waiting → List (Request K.Uri)}
    {sent : List (Request K.Uri)} (isConfig : engine.config = config)
    (unfinished : engine.state.finished = false) (tracked : Tracked config engine asked sent)
    (now : Duration) {response : Response} (own : Own sent (.response response)) :
    engine.onInput K now (.response response) = ({ engine with now := now }, []) ∨
      (response.status.isProvisional = false ∧
        Sends config engine.cseq (engine.onInput K now (.response response)) ∧
          ∃ before last, sent = before ++ [last] ∧ Serves config engine.waiting last ∧
            (asked engine.waiting).getLast? = some last ∧ Answers response last ∧
              ∀ request ∈ before, ¬ Answers response request) := by
  obtain ⟨request, member, answers⟩ := own response rfl
  rw [onInput, if_neg (by simp [unfinished])]
  cases tracked with
  | resolving waiting => contradiction
  | @awaiting before last earlier exact outstanding serves latest =>
      have notNothing : engine.waiting ≠ .nothing := by
        intro waiting
        rw [waiting] at serves
        exact serves
      have notResolve : engine.waiting ≠ .step .resolve := by
        intro waiting
        rw [waiting] at serves
        exact serves
      rcases inert_or_sends_onResponse (K := K) { engine with now := now } rfl
          notNothing notResolve outstanding response with ⟨inert, -⟩ | ⟨final, heard, sends⟩
      · exact .inl inert
      · have others : ∀ request ∈ before, ¬ Answers response request := by
          intro request old answers
          have numbered : Numbered engine.cseq request := answers.2.symm.trans heard
          exact Nat.lt_irrefl _ (earlier request old _ numbered)
        have isLast : request = last := by
          rcases List.mem_append.mp member with old | new
          · exact absurd answers (others request old)
          · exact List.mem_singleton.mp new
        subst request
        subst config
        exact .inr ⟨final, sends, before, last, rfl, serves, latest, answers, others⟩

theorem attributed_response {past : List (Duration × Input)} {response : Response}
    (isConfig : ((machine K).after (new config marker) past).config = config)
    (unfinished : ((machine K).after (new config marker) past).state.finished = false)
    (tracked : Tracked config ((machine K).after (new config marker) past)
      (fun awaited => (new config marker).askedFor K awaited past)
      ((new config marker).sent K past))
    (now : Duration) (own : Own ((new config marker).sent K past) (.response response)) :
    Attributed K config marker past response
      (machine K ((machine K).after (new config marker) past) (now, .response response)) := by
  change Attributed K config marker past response
    (((machine K).after (new config marker) past).onInput K now (.response response))
  rcases inert_or_answers_last isConfig unfinished tracked now own with
    inert | ⟨final, -, before, last, split, serves, latest, answers, others⟩
  · have isInert : Inert K ((machine K).after (new config marker) past)
        (((machine K).after (new config marker) past).onInput K now (.response response)) := by
      rw [inert]
      exact ⟨rfl, now, rfl⟩
    constructor
    · intro effect
      exact absurd isInert effect
    · intro earlier request after _ _ _
      exact isInert
  · constructor
    · intro _
      exact ⟨final, _, last, rfl, latest, serves, answers⟩
    · intro earlier request after isSent answersOther passed
      rw [split] at isSent
      rcases Reactive.Machine.concat_eq_append_cons isSent with
        ⟨rfl, rfl, rfl⟩ | ⟨between, rfl, rfl⟩
      · rcases passed with isAck | ⟨later, member, -⟩
        · exact absurd isAck (not_ack_of_serves serves)
        · contradiction
      · exact absurd answersOther (others request (by simp))

theorem tracked_turn {engine : ProbeEngine} {asked next : Waiting → List (Request K.Uri)}
    {sent : List (Request K.Uri)} (isConfig : engine.config = config)
    (unfinished : engine.state.finished = false) (tracked : Tracked config engine asked sent)
    {input : Duration × Input} (notStart : input.2 ≠ .start) (own : Own sent input.2)
    (asks : ∀ awaited, next awaited = asked awaited ++
      if (machine K engine input).1.waiting = awaited then
        (requestsOf (machine K engine input).2).filter fun request => request.method ≠ .ack
      else
        []) :
    (machine K engine input).1.state.finished = true ∨
      ((machine K engine input).1.config = config ∧
        Tracked config (machine K engine input).1 next
          (sent ++ requestsOf (machine K engine input).2)) := by
  have turn : machine K engine input = ({ engine with now := input.1 }, []) ∨
      Sends config engine.cseq (machine K engine input) := by
    obtain ⟨now, input⟩ := input
    cases answered : input.answer with
    | none =>
        subst config
        apply inert_or_sends unfinished _ now notStart answered
        intro waiting
        cases tracked with
        | resolving resolves => simp [waiting] at resolves
        | awaiting earlier exact outstanding serves latest =>
            rw [waiting] at serves
            exact serves
    | some response =>
        cases input with
        | response found =>
            exact (inert_or_answers_last isConfig unfinished tracked now own).imp_right
              fun taken => taken.2.1
        | _ => contradiction
  rcases turn with inert | sends
  · have none : next = asked := by
      funext awaited
      rw [asks, inert]
      simp [requestsOf]
    rw [inert, none]
    refine .inr ⟨isConfig, ?_⟩
    rw [requestsOf, List.filterMap_nil, List.append_nil]
    exact tracked.later input.1
  · apply sends.tracked tracked.numbers
    rw [asks, if_pos rfl]

/-- The first turn ends the run, or the run resolves. -/
theorem tracked_start (config : ProbeConfig) (marker : Marker) (first : Duration) :
    ((machine K).after (new config marker) [(first, .start)]).state.finished = true ∨
      (((machine K).after (new config marker) [(first, .start)]).config = config ∧
        Tracked config ((machine K).after (new config marker) [(first, .start)])
          (fun awaited => (new config marker).askedFor K awaited [(first, .start)])
          ((new config marker).sent K [(first, .start)])) := by
  rw [Reactive.Machine.after_cons, Reactive.Machine.after_nil, sent, Reactive.Machine.emitted_cons,
    Reactive.Machine.emitted_nil, List.append_nil]
  change (({ new config marker with now := first } : ProbeEngine).start K).1.state.finished = true ∨
    (({ new config marker with now := first } : ProbeEngine).start K).1.config = config ∧
      Tracked config (({ new config marker with now := first } : ProbeEngine).start K).1 _
        (requestsOf (({ new config marker with now := first } : ProbeEngine).start K).2)
  unfold start
  split
  · exact .inl rfl
  · exact .inr ⟨rfl, .resolving rfl⟩

/-- A run that has not ended is tracked, if every response it has read answers a request
it had sent. -/
theorem tracked_run {first : Duration} {rest : List (Duration × Input)}
    (once : ∀ input ∈ rest, input.2 ≠ .start)
    (own : ∀ past input later, (first, .start) :: rest = past ++ input :: later →
      Own ((new config marker).sent K past) input.2) :
    ((machine K).after (new config marker) ((first, .start) :: rest)).state.finished = true ∨
      (((machine K).after (new config marker) ((first, .start) :: rest)).config = config ∧
        Tracked config ((machine K).after (new config marker) ((first, .start) :: rest))
          (fun awaited => (new config marker).askedFor K awaited ((first, .start) :: rest))
          ((new config marker).sent K ((first, .start) :: rest))) := by
  induction rest using List.reverseRecOn with
  | nil => exact tracked_start config marker first
  | append_singleton past input ih =>
      rw [← List.cons_append, Reactive.Machine.after_concat, sent_concat]
      have before := ih (fun earlier member => once earlier (List.mem_append_left _ member))
        fun earlier next later split => own earlier next (later ++ [input]) (by
          rw [← List.cons_append, split]
          simp)
      rcases finished : ((machine K).after (new config marker)
          ((first, .start) :: past)).state.finished with _ | _
      · rcases before with ended | ⟨isConfig, tracked⟩
        · rw [finished] at ended
          contradiction
        · apply tracked_turn isConfig finished tracked (once input (by simp))
            (own _ input [] (by simp))
          intro awaited
          exact askedFor_concat awaited _ _ _
      · left
        rw [machine_of_finished finished]
        exact finished

/-- In every run whose responses answer requests it has sent, a response is taken for the
answer of the latest request sent for what the run waits for, or it has no effect. -/
theorem attributed_of_own {first now : Duration} {rest past later : List (Duration × Input)}
    {response : Response} (once : ∀ input ∈ rest, input.2 ≠ .start)
    (own : ∀ past input later, (first, .start) :: rest = past ++ input :: later →
      Own ((new config marker).sent K past) input.2)
    (delivered : (first, .start) :: rest = past ++ (now, .response response) :: later) :
    Attributed K config marker past response
      (machine K ((machine K).after (new config marker) past) (now, .response response)) := by
  rcases past with _ | ⟨start, past⟩
  · simp at delivered
  · have isRest : rest = past ++ (now, .response response) :: later := (List.cons.inj delivered).2
    have isStart : (first, Input.start) = start := (List.cons.inj delivered).1
    subst isStart isRest
    have earlier : ∀ before input between, (first, .start) :: past = before ++ input :: between →
        Own ((new config marker).sent K before) input.2 := by
      intro before input between split
      apply own before input (between ++ (now, .response response) :: later)
      rw [← List.cons_append, split]
      simp
    have before := tracked_run (fun input member => once input (List.mem_append_left _ member))
      earlier
    have answers := own ((first, .start) :: past) (now, .response response) later rfl
    rcases finished : ((machine K).after (new config marker)
        ((first, .start) :: past)).state.finished with _ | _
    · rcases before with ended | ⟨isConfig, tracked⟩
      · rw [finished] at ended
        contradiction
      · exact attributed_response isConfig finished tracked now answers
    · have inert : Inert K ((machine K).after (new config marker) ((first, .start) :: past))
          (machine K ((machine K).after (new config marker) ((first, .start) :: past))
            (now, .response response)) := by
        rw [machine_of_finished finished]
        exact ⟨rfl, _, rfl⟩
      constructor
      · intro effect
        exact absurd inert effect
      · intro _ _ _ _ _ _
        exact inert

end Runs

/-- The answer of the REGISTER, delivered twice. -/
def answeredTwice : List (Duration × Input) :=
  [(0, .start), (1, .resolved (.ok ())), (2, .response (okTo 1)), (3, .response (okTo 1))]

/-- The second copy of an answer is delivered while the run waits for the next. -/
theorem attributed_answeredTwice :
    Attributed Reference.kernel sampleConfig ⟨text "m"⟩ (answeredTwice.take 3) (okTo 1)
      (machine Reference.kernel ((machine Reference.kernel).after (new sampleConfig ⟨text "m"⟩)
        (answeredTwice.take 3)) (3, .response (okTo 1))) := by
  have registered : ∀ past, (new sampleConfig ⟨text "m"⟩).sent Reference.kernel past =
      (new sampleConfig ⟨text "m"⟩).sent Reference.kernel
        ([(0, .start), (1, .resolved (.ok ()))] ++ past.drop 2) →
          Own ((new sampleConfig ⟨text "m"⟩).sent Reference.kernel past) (.response (okTo 1)) := by
    rintro past same response ⟨⟩
    rw [same, sent, Reactive.Machine.emitted_append, requestsOf, List.filterMap_append]
    refine ⟨_, List.mem_append_left _ (List.mem_of_getElem? (i := 0) rfl), ?_⟩
    decide
  have delivered : ((0 : Duration), Input.start) :: answeredTwice.tail =
      answeredTwice.take 3 ++ (3, .response (okTo 1)) :: [] := rfl
  refine attributed_of_own ?_ ?_ delivered
  · simp [answeredTwice]
  · intro past input later split
    rcases past with _ | ⟨first, _ | ⟨second, _ | ⟨third, _ | ⟨fourth, past⟩⟩⟩⟩ <;>
      simp [answeredTwice] at split
    · obtain ⟨rfl, -⟩ := split
      rintro response ⟨⟩
    · obtain ⟨-, rfl, -⟩ := split
      rintro response ⟨⟩
    · obtain ⟨rfl, rfl, rfl, -⟩ := split
      exact registered _ rfl
    · obtain ⟨rfl, rfl, rfl, rfl, -⟩ := split
      exact registered _ rfl

end ProbeEngine

end SipxClstr.Probe
