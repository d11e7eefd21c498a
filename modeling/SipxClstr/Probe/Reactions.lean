import SipxClstr.Probe.Progress
import SipxClstr.Sip.Utf8

/-!
# How a probe run reacts

What the requests of a run carry, what a run that waits for the answer of a step does
with each input, and what a run that cleans up does with the obligations it has left.
-/

namespace SipxClstr.Probe

open SipxClstr.Sip

/-! ## Requests and their answers -/

section Messages

variable {Uri : Type}

/-- The request an effect puts on the wire. -/
def Effect.request : Effect Uri → Option (Request Uri)
  | .send request => some request
  | _ => none

def requestsOf (effects : List (Effect Uri)) : List (Request Uri) :=
  effects.filterMap Effect.request

def Input.answer : Input → Option Response
  | .response received => some received
  | _ => none

def responsesOf (inputs : List (Duration × Input)) : List Response :=
  inputs.filterMap fun input => input.2.answer

/-- A REGISTER whose `Contact` asks for this lifetime. -/
def RegistersFor (config : ProbeConfig) (expires : Nat) (request : Request Uri) : Prop :=
  request.method = .register ∧
    Headers.value request.headers contactHeader = some (utf8 (contactValue config expires))

instance (config : ProbeConfig) (expires : Nat) (request : Request Uri) :
    Decidable (RegistersFor config expires request) :=
  inferInstanceAs (Decidable (_ ∧ _))

/-- A REGISTER with `expires > 0`. -/
def Registers (config : ProbeConfig) (request : Request Uri) : Prop :=
  ∃ expires, 0 < expires ∧ RegistersFor config expires request

/-- A REGISTER with `expires=0`. -/
abbrev Deregisters (config : ProbeConfig) (request : Request Uri) : Prop :=
  RegistersFor config 0 request

/-- The response carries the request's sequence number. -/
def Answers (response : Response) (request : Request Uri) : Prop :=
  (cseqNumber request.headers).isSome ∧
    cseqNumber response.headers = cseqNumber request.headers

instance (response : Response) (request : Request Uri) : Decidable (Answers response request) :=
  inferInstanceAs (Decidable (_ ∧ _))

/-- A final response that is no 2xx. -/
def Refuses (response : Response) : Prop :=
  response.status.isProvisional = false ∧ isSuccess response.status = false

/-- A `401` or a `407`. -/
def Challenges (response : Response) : Prop :=
  response.status.code = 401 ∨ response.status.code = 407

instance (response : Response) : Decidable (Challenges response) :=
  inferInstanceAs (Decidable (_ ∨ _))

end Messages

namespace ProbeEngine

/-! ## The requests built -/

theorem isWhitespace_eq_false_of_isDigit {c : Char} (digit : c.isDigit = true) :
    isWhitespace c = false := by
  have range : 48 ≤ c.toNat ∧ c.toNat ≤ 57 := by
    simp only [Char.isDigit, Bool.and_eq_true, decide_eq_true_eq] at digit
    exact digit
  simp only [isWhitespace, Bool.or_eq_false_iff, Bool.and_eq_false_iff, decide_eq_false_iff_not,
    beq_eq_false_iff_ne]
  omega

theorem firstWord_append_space {word : Text} (nonempty : word ≠ [])
    (plain : ∀ c ∈ word, isWhitespace c = false) (rest : Text) :
    firstWord (word ++ text " " ++ rest) = some word := by
  rcases word with _ | ⟨first, later⟩
  · contradiction
  · have notSpace : isWhitespace first = false := plain first List.mem_cons_self
    have dropped : (first :: later ++ text " " ++ rest).dropWhile isWhitespace =
        first :: later ++ text " " ++ rest := by
      simp [notSpace]
    have taken : (first :: later ++ text " " ++ rest).takeWhile (!isWhitespace ·) =
        first :: later := by
      rw [List.append_assoc, List.takeWhile_append_of_pos]
      · have stops : isWhitespace ' ' = true := by decide
        simp [text, stops]
      · intro c member
        simp [plain c member]
    rw [firstWord, dropped, taken]

theorem cseq_reads {number : Nat} (fits : number ≤ u32Max) (method : Text) :
    (firstWord (decimal number ++ text " " ++ method)).bind (parseUnsigned u32Max) =
      some number := by
  rw [firstWord_append_space (decimal_ne_nil number) fun c member =>
    isWhitespace_eq_false_of_isDigit (isDigit_of_mem_decimal member)]
  exact parseUnsigned_decimal fits

section Built

variable {K : Kernel} [Inhabited K.Uri] {engine : ProbeEngine}

omit [Inhabited K.Uri] in
theorem headers_buildRequest {rows : List (HeaderName × Text)}
    (accepted : ∀ row ∈ rows, K.acceptsValue row.1 (utf8 row.2) = true) (method : Method)
    (uri : K.Uri) :
    (buildRequest K method uri rows).headers =
      (rows.map fun row => (⟨row.1, utf8 row.2⟩ : Header)) ++
        [⟨.maxForwards, utf8 (decimal 70)⟩] := by
  rw [buildRequest, if_pos (List.all_eq_true.mpr accepted)]
  rfl

omit [Inhabited K.Uri] in
theorem method_buildRequest (rows : List (HeaderName × Text)) (method : Method) (uri : K.Uri) :
    (buildRequest K method uri rows).method = method := by
  unfold buildRequest
  split <;> rfl

/-- A request carries the sequence number it was built at. -/
def Numbered (number : Nat) (request : Request K.Uri) : Prop :=
  cseqNumber request.headers = some number

omit [Inhabited K.Uri] in
theorem numbered_registerRows (engine : ProbeEngine) {expires : Nat} (method : Method) (uri : K.Uri)
    (accepted : ∀ row ∈ engine.registerRows expires, K.acceptsValue row.1 (utf8 row.2) = true)
    (fits : engine.cseq ≤ u32Max) :
    Numbered engine.cseq (buildRequest K method uri (engine.registerRows expires)) := by
  have value : Headers.value (buildRequest K method uri (engine.registerRows expires)).headers .cSeq =
      some (utf8 (decimal engine.cseq ++ text " " ++ Method.register.token)) := by
    rw [headers_buildRequest accepted]
    simp [Headers.value, Headers.get, Headers.getAll, registerRows, contactHeader, markerHeader]
  unfold Numbered cseqNumber
  rw [value]
  simp only [Option.bind_eq_bind, Option.bind_some, fromUtf8Lossy_utf8]
  exact cseq_reads fits _

omit [Inhabited K.Uri] in
theorem numbered_simpleRows (engine : ProbeEngine) {recipient : Text} (method : Method) (uri : K.Uri)
    (accepted : ∀ row ∈ engine.simpleRows method recipient,
      K.acceptsValue row.1 (utf8 row.2) = true) (fits : engine.cseq ≤ u32Max) :
    Numbered engine.cseq (buildRequest K method uri (engine.simpleRows method recipient)) := by
  have value : Headers.value
      (buildRequest K method uri (engine.simpleRows method recipient)).headers .cSeq =
        some (utf8 (decimal engine.cseq ++ text " " ++ method.token)) := by
    rw [headers_buildRequest accepted]
    simp [Headers.value, Headers.get, Headers.getAll, simpleRows, markerHeader]
  unfold Numbered cseqNumber
  rw [value]
  simp only [Option.bind_eq_bind, Option.bind_some, fromUtf8Lossy_utf8]
  exact cseq_reads fits _

omit [Inhabited K.Uri] in
theorem registersFor_registerRows (engine : ProbeEngine) {expires : Nat} (uri : K.Uri)
    (accepted : ∀ row ∈ engine.registerRows expires, K.acceptsValue row.1 (utf8 row.2) = true) :
    RegistersFor engine.config expires
      (buildRequest K .register uri (engine.registerRows expires)) := by
  constructor
  · exact method_buildRequest _ _ _
  · rw [headers_buildRequest accepted]
    simp [Headers.value, Headers.get, Headers.getAll, registerRows, contactHeader, markerHeader]

/-- One REGISTER asks for one lifetime. -/
theorem RegistersFor.unique {Uri : Type} {config : ProbeConfig} {first second : Nat}
    {request : Request Uri} (one : RegistersFor config first request)
    (other : RegistersFor config second request) : first = second := by
  have same : utf8 (contactValue config first) = utf8 (contactValue config second) :=
    Option.some.inj (one.2.symm.trans other.2)
  have values : contactValue config first = contactValue config second := by
    rw [← fromUtf8Lossy_utf8 (contactValue config first), same, fromUtf8Lossy_utf8]
  have digits : decimal first = decimal second := List.append_cancel_left values
  rw [← digitsValue_decimal first, digits, digitsValue_decimal]

end Built

/-! ## How a waiting run reacts -/

section Reactions

variable {K : Kernel} [Inhabited K.Uri] {engine : ProbeEngine}

/-- An input a step gives up at without an answer. -/
inductive GivesUp (step : Step) : Input → Prop where
  | timer : GivesUp step (.timerFired step)
  | transport : GivesUp step .transportError
  | cancelled : GivesUp step .cancelled
  | noResource : GivesUp step .localResourceUnavailable

/-- How a run that waits for the answer of a step reacts. -/
inductive Reaction (engine : ProbeEngine) (now : Duration) (step : Step) :
    Input → ProbeEngine × List (Effect K.Uri) → Prop where
  | ignored {input : Input} (unheard : ∀ response ∈ input.answer,
        response.status.isProvisional = true ∨ engine.correlates response = false) :
      Reaction engine now step input ({ engine with now := now }, [])
  | retried {response : Response} (heard : engine.correlates response = true)
      (challenge : Challenges response) (first : engine.state.answeredChallenge = false) :
      Reaction engine now step (.response response)
        (({ engine with
            now := now
            state := { engine.state with answeredChallenge := true } } :
          ProbeEngine).retryChallenged K step)
  | abandoned {input : Input} (fault : ProbeFault)
      (cause : input = .cancelled ∨ input = .localResourceUnavailable ∨
        ∃ response, input = .response response ∧ engine.correlates response = true ∧
          Challenges response) :
      Reaction engine now step input (({ engine with now := now } : ProbeEngine).abandon K fault)
  | failed {input : Input} (cause : Cause)
      (why : GivesUp step input ∨ ∃ response, input = .response response ∧
        engine.correlates response = true ∧ Refuses response) :
      Reaction engine now step input
        ((({ engine with now := now } : ProbeEngine).concludeStep false).fail K step cause)
  | succeeded {response : Response} (heard : engine.correlates response = true)
      (success : isSuccess response.status = true) :
      Reaction engine now step (.response response)
        (({ engine with now := now } : ProbeEngine).onStepSuccess K step response)

theorem Challenges.refuses {response : Response} (challenges : Challenges response) :
    Refuses response := by
  unfold Challenges at challenges
  have hundreds : response.status.hundreds = 4 := by
    unfold StatusCode.hundreds
    omega
  constructor
  · simp [StatusCode.isProvisional, hundreds]
  · simp [isSuccess, hundreds]

theorem onResponse_of_step (engine : ProbeEngine) {step : Step}
    (waiting : engine.waiting = .step step) (response : Response) :
    engine.onResponse K response =
      if response.status.isProvisional then (engine, [])
      else if !engine.correlates response then (engine, [])
      else engine.onStepResponse K step response.status.code response := by
  unfold onResponse
  rw [waiting]

theorem onTransportError_of_step (engine : ProbeEngine) {step : Step}
    (waiting : engine.waiting = .step step) :
    engine.onTransportError K = (engine.concludeStep false).fail K step .unreachable := by
  unfold onTransportError
  rw [waiting]

theorem onTimeout_of_step (engine : ProbeEngine) {step : Step}
    (waiting : engine.waiting = .step step) (fired : Step) :
    engine.onTimeout K fired =
      if step = fired then (engine.concludeStep false).fail K fired .timeout else (engine, []) := by
  unfold onTimeout
  simp [waiting]

theorem reaction_onResponse (now : Duration) {step : Step}
    (waiting : engine.waiting = .step step) (response : Response) :
    Reaction (K := K) engine now step (.response response)
      (({ engine with now := now } : ProbeEngine).onResponse K response) := by
  have ignores : response.status.isProvisional = true ∨ engine.correlates response = false →
      Reaction (K := K) engine now step (.response response)
        (({ engine with now := now } : ProbeEngine), []) := by
    intro unheard
    apply Reaction.ignored
    rintro other ⟨⟩
    exact unheard
  rw [onResponse_of_step { engine with now := now } waiting]
  split
  next provisional => exact ignores (.inl provisional)
  next final =>
    split
    next uncorrelated => exact ignores (.inr (by simpa [correlates] using uncorrelated))
    next correlated =>
      have heard : engine.correlates response = true := by simpa [correlates] using correlated
      have isFinal : response.status.isProvisional = false := Bool.eq_false_of_not_eq_true final
      unfold onStepResponse
      split
      next challenge =>
        split
        · exact .abandoned _ (.inr (.inr ⟨response, rfl, heard, challenge⟩))
        · split
          · exact .failed _ (.inr ⟨response, rfl, heard, Challenges.refuses challenge⟩)
          next first => exact .retried heard challenge (by simpa using first)
      next =>
        split
        next shed =>
          refine .failed _ (.inr ⟨response, rfl, heard, isFinal, ?_⟩)
          simp [isSuccess, StatusCode.hundreds, shed.1]
        next =>
          split
          next refused =>
            exact .failed _ (.inr ⟨response, rfl, heard, isFinal, by simpa using refused⟩)
          next success => exact .succeeded heard (by simpa using success)

/-- A run that waits for the answer of a step reacts in one of these ways. -/
theorem reaction_onInput (unfinished : engine.state.finished = false) {step : Step}
    (waiting : engine.waiting = .step step) (notResolve : step ≠ .resolve) (now : Duration)
    {input : Input} (notStart : input ≠ .start) :
    Reaction (K := K) engine now step input (engine.onInput K now input) := by
  rw [onInput, if_neg (by simp [unfinished])]
  cases input with
  | start => contradiction
  | resolved outcome =>
      have other : engine.waiting ≠ .step .resolve := by simp [waiting, notResolve]
      simp only [onResolved, if_pos other]
      exact .ignored (by simp [Input.answer])
  | response response => exact reaction_onResponse now waiting response
  | transportError =>
      simp only [onTransportError_of_step { engine with now := now } waiting]
      exact .failed _ (.inl .transport)
  | timerFired fired =>
      simp only [onTimeout_of_step { engine with now := now } waiting]
      split
      next same => exact same ▸ .failed _ (.inl .timer)
      next => exact .ignored (by simp [Input.answer])
  | cancelled => exact .abandoned _ (.inl rfl)
  | localResourceUnavailable => exact .abandoned _ (.inr (.inl rfl))

end Reactions

/-! ## Cleaning up -/

section Cleaning

variable {K : Kernel} [Inhabited K.Uri] {engine : ProbeEngine}

/-- The call of this run was answered, and the answer was taken. -/
def HasDialog (engine : ProbeEngine) : Prop :=
  ∃ outcome ∈ engine.steps, outcome.step = .invite ∧ outcome.succeeded = true

/-- Two states that agree in what later requests are built from, and in what the run
has learned. -/
structure Alike (engine next : ProbeEngine) : Prop where
  config : next.config = engine.config
  marker : next.marker = engine.marker
  cseq : next.cseq = engine.cseq
  challenge : next.state.answeredChallenge = engine.state.answeredChallenge
  finished : next.state.finished = engine.state.finished
  dialog : HasDialog next ↔ HasDialog engine

/-- A turn that clears timers and cleans up from a state. -/
def CleansFrom (source : ProbeEngine) (outcome : ProbeEngine × List (Effect K.Uri)) : Prop :=
  outcome.1 = (source.cleanup K).1 ∧
    ∃ cleared : List Step, outcome.2 = cleared.map Effect.clearTimer ++ (source.cleanup K).2

omit [Inhabited K.Uri] in
theorem requestsOf_clears (cleared : List Step) (effects : List (Effect K.Uri)) :
    requestsOf (cleared.map Effect.clearTimer ++ effects) = requestsOf effects := by
  induction cleared with
  | nil => rfl
  | cons step rest ih => exact ih

theorem Alike.concludeStep (engine : ProbeEngine) : Alike engine (engine.concludeStep false) := by
  unfold ProbeEngine.concludeStep
  split
  · constructor <;> try rfl
    simp [HasDialog]
  · constructor <;> rfl

theorem Alike.decide (engine : ProbeEngine) (verdict : Verdict) :
    Alike engine (engine.decide verdict) := by
  unfold ProbeEngine.decide
  split <;> constructor <;> rfl

theorem Alike.trans {first second third : ProbeEngine} (one : Alike first second)
    (other : Alike second third) : Alike first third where
  config := other.config.trans one.config
  marker := other.marker.trans one.marker
  cseq := other.cseq.trans one.cseq
  challenge := other.challenge.trans one.challenge
  finished := other.finished.trans one.finished
  dialog := other.dialog.trans one.dialog

theorem abandon_cleansFrom (engine : ProbeEngine) (fault : ProbeFault) :
    ∃ source : ProbeEngine, Alike engine source ∧ source.state.owed = engine.state.owed ∧
      CleansFrom source (engine.abandon K fault) := by
  simp only [abandon]
  split
  · refine ⟨(engine.decide _).concludeStep false, ?_, ?_, rfl, [_], rfl⟩
    · exact (Alike.decide engine _).trans (Alike.concludeStep _)
    · rw [state_concludeStep, state_decide]
  · refine ⟨engine.decide _, Alike.decide engine _, ?_, rfl, [], rfl⟩
    rw [state_decide]

theorem fail_cleansFrom (engine : ProbeEngine) (step : Step) (cause : Cause) :
    ∃ source : ProbeEngine, Alike engine source ∧
      source.state.owed = (if step = .bye then engine.state.forget .endDialog
        else engine.state).owed ∧
      CleansFrom source ((engine.concludeStep false).fail K step cause) := by
  refine ⟨(engine.concludeStep false).failed step cause, ?_, ?_, rfl, [step], rfl⟩
  · apply (Alike.concludeStep engine).trans
    unfold failed
    split
    · have decided := Alike.decide (engine.concludeStep false) (.fail step cause)
      exact ⟨decided.config, decided.marker, decided.cseq, decided.challenge, decided.finished,
        decided.dialog⟩
    · exact Alike.decide _ _
  · unfold failed
    split <;> simp

theorem cleanup_of_nothing {source : ProbeEngine} (owed : source.state.owed = []) :
    source.cleanup K = source.finish K := by
  simp [cleanup, RunState.owes, owed]

/-- The state that waits for the de-registration it sends. -/
def deregistering (source : ProbeEngine) : ProbeEngine :=
  { source with
    state := source.state.forget .deregister
    waiting := .cleanup .register }.awaitNext

theorem cleanup_of_deregister {source : ProbeEngine}
    (owed : source.state.owed = [.deregister]) :
    ∃ request : Request K.Uri, ∃ after,
      source.cleanup K = (source.deregistering,
        [.send request, .setTimer .register after]) ∧
      request = (source.registerRequest K 0).2 := by
  refine ⟨_, source.config.timeout .register, ?_, rfl⟩
  simp only [cleanup, RunState.owes, owed]
  rfl

/-- The state that waits for the BYE it sends. -/
def hangingUp (source : ProbeEngine) : ProbeEngine :=
  { source with
    state := source.state.forget .endDialog
    waiting := .cleanup .bye }.awaitNext

theorem cleanup_of_dialog {source : ProbeEngine}
    (owed : source.state.owed = [.deregister, .endDialog]) :
    ∃ request : Request K.Uri, ∃ after,
      source.cleanup K = (source.hangingUp, [.send request, .setTimer .bye after]) ∧
      request.method = .bye := by
  refine ⟨(source.simpleRequest K .bye source.config.echoAor).2, source.config.timeout .bye, ?_, ?_⟩
  · simp only [cleanup, RunState.owes, owed]
    rfl
  · exact method_buildRequest _ _ _

/-- How a run that waits for a cleanup reacts. -/
theorem cleanup_onInput (unfinished : engine.state.finished = false) {step : Step}
    (waiting : engine.waiting = .cleanup step) (now : Duration) {input : Input}
    (notStart : input ≠ .start) :
    engine.onInput K now input = ({ engine with now := now }, []) ∨
      ∃ source : ProbeEngine, Alike engine source ∧ source.state.owed = engine.state.owed ∧
        CleansFrom source (engine.onInput K now input) := by
  have cleans : ∀ other : ProbeEngine, Alike engine other →
      other.state.owed = engine.state.owed →
        ∃ source : ProbeEngine, Alike engine source ∧ source.state.owed = engine.state.owed ∧
          CleansFrom source (other.afterCleanup K step) := by
    intro other alike owed
    refine ⟨{ other with waiting := .nothing }, ?_, owed, rfl, [step], rfl⟩
    exact ⟨alike.config, alike.marker, alike.cseq, alike.challenge, alike.finished, alike.dialog⟩
  have alike : Alike engine ({ engine with now := now } : ProbeEngine) :=
    ⟨rfl, rfl, rfl, rfl, rfl, Iff.rfl⟩
  have failing : Alike engine ({ engine with now := now } : ProbeEngine).cleanupFailed :=
    ⟨rfl, rfl, rfl, rfl, rfl, Iff.rfl⟩
  rw [onInput, if_neg (by simp [unfinished])]
  cases input with
  | start => contradiction
  | resolved outcome =>
      have other : engine.waiting ≠ .step .resolve := by simp [waiting]
      simp only [onResolved, if_pos other]
      exact .inl trivial
  | response response =>
      simp only [onResponse]
      split
      · exact .inl rfl
      · split
        · exact .inl rfl
        · simp only [waiting]
          split
          · exact .inr (waiting ▸ cleans _ failing rfl)
          · exact .inr (waiting ▸ cleans _ alike rfl)
  | transportError =>
      simp only [onTransportError, waiting]
      exact .inr (waiting ▸ cleans _ failing rfl)
  | timerFired fired =>
      simp only [onTimeout, waiting]
      by_cases same : step = fired
      · subst fired
        exact .inr (by simpa [waiting] using cleans _ failing rfl)
      · exact .inl (by simp [same])
  | cancelled =>
      obtain ⟨source, from_, owed, cleansFrom⟩ :=
        abandon_cleansFrom (K := K) ({ engine with now := now } : ProbeEngine) .cancelled
      exact .inr ⟨source, alike.trans from_, owed, cleansFrom⟩
  | localResourceUnavailable =>
      obtain ⟨source, from_, owed, cleansFrom⟩ :=
        abandon_cleansFrom (K := K) ({ engine with now := now } : ProbeEngine) .noLocalResource
      exact .inr ⟨source, alike.trans from_, owed, cleansFrom⟩

end Cleaning

end ProbeEngine

end SipxClstr.Probe
