import SipxClstr.Probe.Reactions

/-!
# What a probe run cleans up

A run that registered removes its registration, and a run whose call was answered
acknowledges it and hangs up first.  The engine loses sight of a REGISTER it gives up
on and of an answer it does not take.
-/

namespace SipxClstr.Probe

open SipxClstr.Sip

/-! ## What a run owes -/

section Messages

variable {Uri : Type}

/-- The input challenges a BYE among these requests. -/
def ChallengesBye (earlier : List (Request Uri)) (input : Input) : Prop :=
  ∃ response ∈ input.answer, Challenges response ∧
    ∃ bye ∈ earlier, bye.method = .bye ∧ Answers response bye

instance (earlier : List (Request Uri)) (input : Input) :
    Decidable (ChallengesBye earlier input) :=
  match answered : input.answer with
  | none => .isFalse fun ⟨_, member, _⟩ => by rw [answered] at member; contradiction
  | some response =>
      decidable_of_iff (Challenges response ∧
          ∃ bye ∈ earlier, bye.method = .bye ∧ Answers response bye)
        (by simp [ChallengesBye, answered])

end Messages

namespace ProbeEngine

section Runs

variable (K : Kernel) [Inhabited K.Uri]

/-- The requests of a run, in order. -/
def sent (engine : ProbeEngine) (inputs : List (Duration × Input)) : List (Request K.Uri) :=
  requestsOf ((machine K).emitted engine inputs)

/-- The requests of a run after the earlier ones, without the re-sends of a challenged BYE. -/
def sentOnceFrom (earlier : List (Request K.Uri)) (engine : ProbeEngine) :
    List (Duration × Input) → List (Request K.Uri)
  | [] => []
  | input :: rest =>
      let requests := requestsOf (machine K engine input).2
      (requests.filter fun request =>
          !(request.method = .bye && ChallengesBye earlier input.2)) ++
        sentOnceFrom (earlier ++ requests) (machine K engine input).1 rest

/-- The requests of a run, without the re-sends of a challenged BYE. -/
def sentOnce (engine : ProbeEngine) (inputs : List (Duration × Input)) : List (Request K.Uri) :=
  sentOnceFrom K [] engine inputs

/-- What a run owes by the time it finishes. -/
structure CleansUp (config : ProbeConfig) (responses : List Response)
    (sent sentOnce : List (Request K.Uri)) : Prop where
  /-- A REGISTER that was not refused is followed by exactly one de-registration. -/
  registration : ∀ before request after, sent = before ++ request :: after →
    Registers config request →
      (∀ response ∈ responses, Answers response request → ¬ Refuses response) →
        after.countP (fun later => Deregisters config later) = 1
  /-- An answered INVITE is acknowledged, and then hung up exactly once, before the
  de-registration. -/
  dialog : ∀ request ∈ sent, request.method = .invite → ∀ response ∈ responses,
    Answers response request → isSuccess response.status = true →
      ∃ before ack between bye after,
        sentOnce = before ++ ack :: between ++ bye :: after ∧ ack.method = .ack ∧
          bye.method = .bye ∧ (∀ other ∈ between ++ after, other.method ≠ .bye) ∧
            ∀ earlier ∈ before ++ ack :: between, ¬ Deregisters config earlier

end Runs

/-! ## What the engine loses sight of -/

/-- An input at which the engine loses an obligation: it gives up on a REGISTER, it does
not take the answer of a call, or it abandons the run while it hangs up. -/
inductive Neglects {Uri : Type} (engine : ProbeEngine) (sent : List (Request Uri)) :
    Input → Prop where
  | registration {input : Input} (waiting : engine.waiting = .step .register)
      (gives : GivesUp .register input) : Neglects engine sent input
  | answer {response : Response} {request : Request Uri} (member : request ∈ sent)
      (isInvite : request.method = .invite) (answers : Answers response request)
      (success : isSuccess response.status = true)
      (noDialog : ¬ HasDialog engine)
      (lost : ¬ (engine.waiting = .step .invite ∧ engine.correlates response = true ∧
        Marker.of response.headers = some engine.marker)) :
      Neglects engine sent (.response response)
  | cancelled (waiting : engine.waiting = .step .bye) : Neglects engine sent .cancelled
  | noResource (waiting : engine.waiting = .step .bye) :
      Neglects engine sent .localResourceUnavailable

/-- The kernel refuses none of the header values this configuration leads to. -/
def AcceptsRequests (K : Kernel) (config : ProbeConfig) (marker : Marker) : Prop :=
  ∀ engine : ProbeEngine, engine.config = config → engine.marker = marker →
    (∀ expires, ∀ row ∈ engine.registerRows expires, K.acceptsValue row.1 (utf8 row.2) = true) ∧
      ∀ method ∈ [Method.invite, .ack, .bye], ∀ row ∈ engine.simpleRows method config.echoAor,
        K.acceptsValue row.1 (utf8 row.2) = true

/-! ## The phases of a run -/

section Phases

variable {K : Kernel} [Inhabited K.Uri]

/-- Every sequence number read so far is one the run has given out. -/
structure Within (engine : ProbeEngine) (responses : List Response)
    (sent : List (Request K.Uri)) : Prop where
  numbered : ∀ request ∈ sent, ∃ number ≤ engine.cseq, Numbered number request
  heard : ∀ response ∈ responses, ∃ number ≤ engine.cseq,
    cseqNumber response.headers = some number

/-- No INVITE has been answered by a 2xx. -/
def Unanswered (responses : List Response) (sent : List (Request K.Uri)) : Prop :=
  ∀ request ∈ sent, request.method = .invite → ∀ response ∈ responses,
    Answers response request → isSuccess response.status = false

/-- The last request is the one whose answer the run waits for. -/
structure Awaits (engine : ProbeEngine) (last : Request K.Uri) : Prop where
  number : Numbered engine.cseq last
  outstanding : engine.outstandingCseq = some engine.cseq

/-- What a run has sent, phase by phase. -/
inductive Phase (config : ProbeConfig) (responses : List Response) (engine : ProbeEngine) :
    List (Request K.Uri) → List (Request K.Uri) → Prop where
  | resolving (waiting : engine.waiting = .step .resolve) (owed : engine.state.owed = [])
      (none : engine.cseq = 0) (silent : responses = []) (noDialog : ¬ HasDialog engine) :
      Phase config responses engine [] []
  | registering {old : List (Request K.Uri)} {last : Request K.Uri}
      (waiting : engine.waiting = .step .register) (owed : engine.state.owed = [])
      (few : engine.cseq ≤ 1 + engine.state.answeredChallenge.toNat)
      (within : Within engine responses (old ++ [last])) (awaits : Awaits engine last)
      (refused : ∀ request ∈ old, ∃ response ∈ responses, Answers response request ∧
        Refuses response)
      (kind : ∀ request ∈ old ++ [last], request.method = .register ∧
        ¬ Deregisters config request)
      (noDialog : ¬ HasDialog engine) :
      Phase config responses engine (old ++ [last]) (old ++ [last])
  | inviting {old : List (Request K.Uri)} {last : Request K.Uri}
      (waiting : engine.waiting = .step .invite) (owed : engine.state.owed = [.deregister])
      (few : engine.cseq ≤ 2 + engine.state.answeredChallenge.toNat)
      (within : Within engine responses (old ++ [last])) (awaits : Awaits engine last)
      (unanswered : Unanswered responses (old ++ [last]))
      (kind : ∀ request ∈ old ++ [last], ¬ Deregisters config request)
      (isInvite : last.method = .invite) (noDialog : ¬ HasDialog engine) :
      Phase config responses engine (old ++ [last]) (old ++ [last])
  | hangingUp {old : List (Request K.Uri)} {before : List (Request K.Uri)}
      {last ack bye : Request K.Uri}
      (waiting : engine.waiting = .step .bye) (owed : engine.state.owed = [.deregister, .endDialog])
      (few : engine.cseq ≤ 4 + engine.state.answeredChallenge.toNat)
      (awaits : Awaits engine last) (isBye : last.method = .bye)
      (kind : ∀ request ∈ old ++ [last], ¬ Deregisters config request)
      (call : ack.method = .ack ∧ bye.method = .bye)
      (once : ∀ request ∈ before ++ [ack], ¬ Deregisters config request) :
      Phase config responses engine (old ++ [last]) (before ++ [ack, bye])
  | cleaningBye {sent before : List (Request K.Uri)} {ack bye : Request K.Uri}
      (waiting : engine.waiting = .cleanup .bye) (owed : engine.state.owed = [.deregister])
      (kind : ∀ request ∈ sent, ¬ Deregisters config request)
      (call : ack.method = .ack ∧ bye.method = .bye)
      (once : ∀ request ∈ before ++ [ack], ¬ Deregisters config request) :
      Phase config responses engine sent (before ++ [ack, bye])
  | deregistering {old once : List (Request K.Uri)} {last : Request K.Uri}
      (waiting : engine.waiting = .cleanup .register) (owed : engine.state.owed = [])
      (isLast : Deregisters config last)
      (kind : ∀ request ∈ old, ¬ Deregisters config request)
      (called : (¬ HasDialog engine ∧ Unanswered responses (old ++ [last])) ∨
        ∃ before ack bye, once = before ++ [ack, bye, last] ∧ ack.method = .ack ∧
          bye.method = .bye ∧ ∀ request ∈ before ++ [ack], ¬ Deregisters config request) :
      Phase config responses engine (old ++ [last]) once

omit [Inhabited K.Uri] in
/-- A run that ends before it has sent anything owes nothing. -/
theorem cleansUp_nil (config : ProbeConfig) (responses : List Response) :
    CleansUp K config responses [] [] where
  registration before request after split := by simp at split
  dialog request member := by simp at member

omit [Inhabited K.Uri] in
/-- A run whose every REGISTER was refused owes nothing. -/
theorem cleansUp_of_refused {config : ProbeConfig} {responses : List Response}
    {sent once : List (Request K.Uri)} (registers : ∀ request ∈ sent, request.method = .register)
    (refused : ∀ request ∈ sent, ∃ response ∈ responses, Answers response request ∧
      Refuses response) : CleansUp K config responses sent once where
  registration before request after split _ notRefused := by
    obtain ⟨response, member, answers, refuses⟩ := refused request (by simp [split])
    exact absurd refuses (notRefused response member answers)
  dialog request member isInvite := by
    rw [registers request member] at isInvite
    contradiction

omit [Inhabited K.Uri] in
/-- A run that ends with its only de-registration has cleaned up. -/
theorem cleansUp_of_deregistered {config : ProbeConfig} {responses : List Response}
    {old once : List (Request K.Uri)} {last : Request K.Uri} (isLast : Deregisters config last)
    (kind : ∀ request ∈ old, ¬ Deregisters config request)
    (called : Unanswered responses (old ++ [last]) ∨
      ∃ before ack bye, once = before ++ [ack, bye, last] ∧ ack.method = .ack ∧
        bye.method = .bye ∧ ∀ request ∈ before ++ [ack], ¬ Deregisters config request) :
    CleansUp K config responses (old ++ [last]) once where
  registration before request after split registers _ := by
    obtain ⟨expires, positive, registersFor⟩ := registers
    rcases Reactive.Machine.concat_eq_append_cons split with ⟨-, rfl, -⟩ | ⟨between, rfl, rfl⟩
    · rw [RegistersFor.unique registersFor isLast] at positive
      contradiction
    · rw [List.countP_append, List.countP_eq_zero.mpr]
      · simp [isLast]
      · intro other member
        simpa using kind other (by simp [member])
  dialog request member isInvite response delivered answers success := by
    rcases called with unanswered | ⟨before, ack, bye, rfl, isAck, isBye, none⟩
    · rw [unanswered request member isInvite response delivered answers] at success
      contradiction
    · refine ⟨before, ack, [], bye, [last], by simp, isAck, isBye, ?_, none⟩
      intro other isOther
      rw [List.nil_append, List.mem_singleton] at isOther
      rw [isOther, isLast.1]
      simp

/-! ### Turns of a phase -/

/-- The requests of a turn that are no re-sends of a challenged BYE. -/
def onceOf (sent : List (Request K.Uri)) (input : Input) (requests : List (Request K.Uri)) :
    List (Request K.Uri) :=
  requests.filter fun request => !(request.method = .bye && ChallengesBye sent input)

omit [Inhabited K.Uri] in
@[simp]
theorem onceOf_nil (sent : List (Request K.Uri)) (input : Input) : onceOf sent input [] = [] :=
  rfl

omit [Inhabited K.Uri] in
theorem onceOf_of_no_bye {sent requests : List (Request K.Uri)} {input : Input}
    (noBye : ∀ request ∈ requests, request.method ≠ .bye) : onceOf sent input requests = requests := by
  apply List.filter_eq_self.mpr
  intro request member
  simp [noBye request member]

omit [Inhabited K.Uri] in
theorem onceOf_of_not_challenges {sent requests : List (Request K.Uri)} {input : Input}
    (unchallenged : ¬ ChallengesBye sent input) : onceOf sent input requests = requests := by
  apply List.filter_eq_self.mpr
  simp [unchallenged]

omit [Inhabited K.Uri] in
theorem onceOf_of_challenges {sent : List (Request K.Uri)} {input : Input}
    {request : Request K.Uri} (isBye : request.method = .bye)
    (challenges : ChallengesBye sent input) : onceOf sent input [request] = [] := by
  simp [onceOf, isBye, challenges]

/-- What a turn leaves of a run in a phase: it has cleaned up, or it is in a phase. -/
def Follows (config : ProbeConfig) (marker : Marker) (responses : List Response)
    (sent once : List (Request K.Uri)) (outcome : ProbeEngine × List (Effect K.Uri)) : Prop :=
  (outcome.1.state.finished = true ∧ CleansUp K config responses sent once) ∨
    ((∀ run, .finish run ∉ outcome.2) ∧ outcome.1.config = config ∧ outcome.1.marker = marker ∧
      outcome.1.state.finished = false ∧ Phase config responses outcome.1 sent once)

variable {config : ProbeConfig} {marker : Marker} {responses : List Response}
  {sent once : List (Request K.Uri)} {source : ProbeEngine}
  {outcome : ProbeEngine × List (Effect K.Uri)}

theorem requestsOf_cleansFrom (cleans : CleansFrom source outcome) :
    requestsOf outcome.2 = requestsOf (source.cleanup K).2 := by
  obtain ⟨-, cleared, effects⟩ := cleans
  rw [effects, requestsOf_clears]

theorem finish_mem_cleansFrom (cleans : CleansFrom source outcome) (run : ProbeRun) :
    .finish run ∈ outcome.2 ↔ .finish run ∈ (source.cleanup K).2 := by
  obtain ⟨-, cleared, effects⟩ := cleans
  rw [effects]
  simp

/-- Cleaning up with nothing owed ends the run. -/
theorem follows_of_nothing (cleans : CleansFrom source outcome) (owed : source.state.owed = [])
    (cleansUp : CleansUp K config responses sent once) (input : Input) :
    Follows config marker responses (sent ++ requestsOf outcome.2)
      (once ++ onceOf sent input (requestsOf outcome.2)) outcome := by
  have finish := cleanup_of_nothing (K := K) owed
  have none : requestsOf outcome.2 = [] := by
    rw [requestsOf_cleansFrom cleans, finish]
    rfl
  rw [none, onceOf_nil, List.append_nil, List.append_nil]
  refine .inl ⟨?_, cleansUp⟩
  rw [cleans.1, finish]
  rfl

/-- Cleaning up with a registration owed removes it. -/
theorem follows_of_deregister (accepts : AcceptsRequests K config marker)
    (cleans : CleansFrom source outcome) (owed : source.state.owed = [.deregister])
    (isConfig : source.config = config) (isMarker : source.marker = marker)
    (unfinished : source.state.finished = false)
    (kind : ∀ request ∈ sent, ¬ Deregisters config request) (input : Input)
    (called : (¬ HasDialog source ∧ Unanswered responses sent) ∨
      ∃ before ack bye, once = before ++ [ack, bye] ∧ ack.method = .ack ∧
        bye.method = .bye ∧ ∀ request ∈ before ++ [ack], ¬ Deregisters config request) :
    Follows config marker responses (sent ++ requestsOf outcome.2)
      (once ++ onceOf sent input (requestsOf outcome.2)) outcome := by
  obtain ⟨request, after, cleaned, built⟩ := cleanup_of_deregister (K := K) owed
  have isLast : Deregisters config request := by
    rw [built, ← isConfig]
    exact registersFor_registerRows source.awaitNext _ ((accepts source.awaitNext isConfig isMarker).1 0)
  have requests : requestsOf outcome.2 = [request] := by
    rw [requestsOf_cleansFrom cleans, cleaned]
    rfl
  have kept : onceOf sent input [request] = [request] := by
    apply onceOf_of_no_bye
    intro other member
    rw [List.mem_singleton.mp member, isLast.1]
    simp
  rw [requests, kept]
  refine .inr ⟨?_, ?_⟩
  · intro run
    rw [finish_mem_cleansFrom cleans, cleaned]
    simp
  · rw [cleans.1, cleaned]
    refine ⟨isConfig, isMarker, unfinished, ?_⟩
    apply Phase.deregistering rfl _ isLast kind
    · rcases called with ⟨noDialog, unanswered⟩ | ⟨before, ack, bye, rfl, call⟩
      · refine .inl ⟨noDialog, ?_⟩
        intro other member isInvite
        rcases List.mem_append.mp member with earlier | last
        · exact unanswered other earlier isInvite
        · rw [List.mem_singleton.mp last, isLast.1] at isInvite
          contradiction
      · exact .inr ⟨before, ack, bye, by simp, call⟩
    · simp [ProbeEngine.deregistering, awaitNext, RunState.forget, owed]

omit [Inhabited K.Uri] in
/-- A turn that does nothing leaves the run in its phase. -/
theorem follows_still (next : ProbeEngine) (isConfig : next.config = config)
    (isMarker : next.marker = marker) (unfinished : next.state.finished = false) (input : Input)
    (phase : Phase config responses next sent once) :
    Follows (K := K) config marker responses (sent ++ requestsOf ([] : List (Effect K.Uri)))
      (once ++ onceOf sent input (requestsOf [])) (next, []) := by
  have nothing : requestsOf ([] : List (Effect K.Uri)) = [] := rfl
  rw [nothing, onceOf_nil, List.append_nil, List.append_nil]
  exact .inr ⟨by simp, isConfig, isMarker, unfinished, phase⟩

/-- The responses delivered once an input has arrived. -/
def heardAfter (responses : List Response) (input : Input) : List Response :=
  responses ++ input.answer.toList

theorem mem_heardAfter {input : Input} {response : Response} :
    response ∈ heardAfter responses input ↔ response ∈ responses ∨ response ∈ input.answer := by
  simp [heardAfter]

/-- Every response delivered answers a request of the run. -/
def Own (sent : List (Request K.Uri)) (input : Input) : Prop :=
  ∀ response ∈ input.answer, ∃ request ∈ sent, Answers response request

omit [Inhabited K.Uri] in
theorem Within.hears {engine : ProbeEngine} (within : Within engine responses sent) {input : Input}
    (own : Own sent input) : Within engine (heardAfter responses input) sent where
  numbered := within.numbered
  heard response member := by
    rcases mem_heardAfter.mp member with earlier | now
    · exact within.heard response earlier
    · obtain ⟨request, isSent, isSome, same⟩ := own response now
      obtain ⟨number, le, numbered⟩ := within.numbered request isSent
      exact ⟨number, le, same.trans numbered⟩

omit [Inhabited K.Uri] in
/-- The run goes on to the next sequence number. -/
theorem Within.next {engine : ProbeEngine} (within : Within engine responses sent)
    (next : ProbeEngine) (requests : List (Request K.Uri)) (le : engine.cseq ≤ next.cseq)
    (numbered : ∀ request ∈ requests, ∃ number ≤ next.cseq, Numbered number request) :
    Within next responses (sent ++ requests) where
  numbered request member := by
    rcases List.mem_append.mp member with earlier | now
    · obtain ⟨number, bound, isNumber⟩ := within.numbered request earlier
      exact ⟨number, Nat.le_trans bound le, isNumber⟩
    · exact numbered request now
  heard response member := by
    obtain ⟨number, bound, isNumber⟩ := within.heard response member
    exact ⟨number, Nat.le_trans bound le, isNumber⟩

omit [Inhabited K.Uri] in
/-- A response that correlates answers the request the run waits for. -/
theorem Awaits.answers {engine : ProbeEngine} {last : Request K.Uri} (awaits : Awaits engine last)
    {response : Response} (heard : engine.correlates response = true) : Answers response last := by
  have number : cseqNumber response.headers = some engine.cseq := by
    simpa [correlates, awaits.outstanding] using heard
  have isNumber : cseqNumber last.headers = some engine.cseq := awaits.number
  exact ⟨by rw [isNumber]; rfl, number.trans isNumber.symm⟩

omit [Inhabited K.Uri] in
/-- A request of a number not given out before is answered by no response yet. -/
theorem Within.not_answers {engine : ProbeEngine} (within : Within engine responses sent)
    {request : Request K.Uri} {number : Nat} (numbered : Numbered number request)
    (later : engine.cseq < number) {response : Response} (member : response ∈ responses) :
    ¬ Answers response request := by
  rintro ⟨-, same⟩
  obtain ⟨heard, le, isHeard⟩ := within.heard response member
  have isNumber : cseqNumber request.headers = some number := numbered
  have equal : heard = number := Option.some.inj (isHeard.symm.trans (same.trans isNumber))
  omega

omit [Inhabited K.Uri] in
/-- An INVITE of a new number is unanswered like those before it. -/
theorem Unanswered.next {engine : ProbeEngine} (within : Within engine responses sent)
    (unanswered : Unanswered responses sent) {request : Request K.Uri} {number : Nat}
    (numbered : Numbered number request) (later : engine.cseq < number) :
    Unanswered responses (sent ++ [request]) := by
  intro other member isInvite response delivered answers
  rcases List.mem_append.mp member with earlier | now
  · exact unanswered other earlier isInvite response delivered answers
  · rw [List.mem_singleton.mp now] at answers
    exact absurd answers (within.not_answers numbered later delivered)

omit [Inhabited K.Uri] in
/-- An answered call is taken, so what is not taken leaves the call unanswered. -/
theorem Unanswered.hears {engine : ProbeEngine} (unanswered : Unanswered responses sent)
    {input : Input} (careful : ¬ Neglects engine sent input) (noDialog : ¬ HasDialog engine)
    (untaken : ∀ response ∈ input.answer, isSuccess response.status = true →
      ¬ (engine.waiting = .step .invite ∧ engine.correlates response = true)) :
    Unanswered (heardAfter responses input) sent := by
  intro request member isInvite response delivered answers
  rcases mem_heardAfter.mp delivered with earlier | now
  · exact unanswered request member isInvite response earlier answers
  · rw [← Bool.not_eq_true]
    intro success
    have isInput : input = .response response := by
      cases input <;> simp_all [Input.answer]
    apply careful
    rw [isInput]
    refine .answer member isInvite answers success noDialog ?_
    rintro ⟨waiting, heard, -⟩
    exact untaken response now success ⟨waiting, heard⟩

/-! ### From phase to phase -/

theorem concludeStep_of_step (engine : ProbeEngine) {step : Step}
    (waiting : engine.waiting = .step step) (succeeded : Bool) :
    engine.concludeStep succeeded =
      { engine with
        steps := engine.steps ++ [⟨step, succeeded, engine.now - engine.stepStarted⟩]
        waiting := .nothing } := by
  unfold concludeStep
  rw [waiting]

theorem not_hasDialog_concat {engine : ProbeEngine} (noDialog : ¬ HasDialog engine)
    {outcome : StepOutcome} (other : outcome.step ≠ .invite) :
    ¬ ∃ entry ∈ engine.steps ++ [outcome], entry.step = .invite ∧ entry.succeeded = true := by
  rintro ⟨entry, member, isInvite, succeeded⟩
  rcases List.mem_append.mp member with earlier | now
  · exact noDialog ⟨entry, earlier, isInvite, succeeded⟩
  · rw [List.mem_singleton.mp now] at isInvite
    exact other isInvite

section Turns

variable (accepts : AcceptsRequests K config marker) {engine : ProbeEngine} {now : Duration}
  {input : Input} {old before : List (Request K.Uri)} {last : Request K.Uri}

/-- What a turn is judged by. -/
def TurnFollows (config : ProbeConfig) (marker : Marker) (responses : List Response)
    (sent once : List (Request K.Uri)) (input : Input)
    (outcome : ProbeEngine × List (Effect K.Uri)) : Prop :=
  Follows config marker (heardAfter responses input) (sent ++ requestsOf outcome.2)
    (once ++ onceOf sent input (requestsOf outcome.2)) outcome

include accepts

/-- A REGISTER is what it says, at the next number. -/
theorem registerRequest_built {source : ProbeEngine} (isConfig : source.config = config)
    (isMarker : source.marker = marker) (fits : source.cseq + 1 ≤ u32Max) (expires : Nat) :
    Numbered (source.cseq + 1) (source.registerRequest K expires).2 ∧
      RegistersFor config expires (source.registerRequest K expires).2 := by
  have accepted := (accepts source.awaitNext isConfig isMarker).1 expires
  constructor
  · exact numbered_registerRows source.awaitNext _ _ accepted fits
  · rw [← isConfig]
    exact registersFor_registerRows source.awaitNext _ accepted

/-- An INVITE or a BYE to the echo carries the next number. -/
theorem simpleRequest_built {source : ProbeEngine} (isConfig : source.config = config)
    (isMarker : source.marker = marker) (fits : source.cseq + 1 ≤ u32Max) {method : Method}
    (plain : method = .invite ∨ method = .bye) :
    Numbered (source.cseq + 1) (source.simpleRequest K method config.echoAor).2 ∧
      (source.simpleRequest K method config.echoAor).2.method = method := by
  have listed : method ∈ [Method.invite, .ack, .bye] := by
    rcases plain with rfl | rfl <;> simp
  have notAck : method ≠ .ack := by
    rcases plain with rfl | rfl <;> simp
  have accepted := (accepts source.awaitNext isConfig isMarker).2 method listed
  constructor
  · simp only [simpleRequest, if_pos notAck]
    exact numbered_simpleRows source.awaitNext _ _ accepted fits
  · exact method_buildRequest _ _ _

/-- The first REGISTER opens the registration. -/
theorem follows_sendRegister {source : ProbeEngine} (isConfig : source.config = config)
    (isMarker : source.marker = marker) (unfinished : source.state.finished = false)
    (owed : source.state.owed = []) (none : source.cseq = 0) (noDialog : ¬ HasDialog source)
    (input : Input) :
    Follows config marker [] ([] ++ requestsOf (source.sendRegister K).2)
      ([] ++ onceOf [] input (requestsOf (source.sendRegister K).2)) (source.sendRegister K) := by
  have isBegun : (source.begin .register).config = config := isConfig
  obtain ⟨numbered, registers⟩ := registerRequest_built accepts (K := K) isBegun isMarker
    (by simp [begin, none, u32Max]) 3600
  generalize requestEq : ((source.begin .register).registerRequest K 3600).2 = request
    at numbered registers
  have requests : requestsOf (source.sendRegister K).2 = [request] := by
    rw [← requestEq]
    rfl
  have kept : onceOf [] input [request] = [request] := by
    apply onceOf_of_no_bye
    intro other member
    rw [List.mem_singleton.mp member, registers.1]
    simp
  have lifetime : ¬ Deregisters config request := by
    intro removes
    exact absurd (RegistersFor.unique registers removes) (by simp)
  rw [requests, kept]
  refine .inr ⟨by simp [sendRegister], isConfig, isMarker, unfinished, ?_⟩
  have cseq : (source.sendRegister K).1.cseq = source.cseq + 1 := rfl
  apply Phase.registering
  · rfl
  · exact owed
  · rw [cseq, none]
    exact Nat.le_add_right 1 _
  · constructor
    · intro other member
      rw [List.nil_append, List.mem_singleton] at member
      exact ⟨source.cseq + 1, Nat.le_refl _, member ▸ numbered⟩
    · simp
  · exact ⟨numbered, rfl⟩
  · simp
  · intro other member
    rw [List.nil_append, List.mem_singleton] at member
    rw [member]
    exact ⟨registers.1, lifetime⟩
  · exact noDialog

/-- The INVITE follows the registration. -/
theorem follows_sendInvite {source : ProbeEngine} (isConfig : source.config = config)
    (isMarker : source.marker = marker) (unfinished : source.state.finished = false)
    (owed : source.state.owed = [.deregister])
    (few : source.cseq ≤ 1 + source.state.answeredChallenge.toNat)
    (noDialog : ¬ HasDialog source) (within : Within source responses sent)
    (kind : ∀ request ∈ sent, request.method = .register ∧ ¬ Deregisters config request)
    (input : Input) :
    Follows config marker responses (sent ++ requestsOf (source.sendInvite K).2)
      (sent ++ onceOf sent input (requestsOf (source.sendInvite K).2)) (source.sendInvite K) := by
  have small := Bool.toNat_le source.state.answeredChallenge
  have isBegun : (source.begin .invite).config = config := isConfig
  obtain ⟨numbered, isInvite⟩ := simpleRequest_built accepts (K := K) isBegun isMarker
    (by simp only [begin, u32Max]; omega) (.inl rfl)
  generalize requestEq : ((source.begin .invite).simpleRequest K .invite config.echoAor).2 = request
    at numbered isInvite
  have requests : requestsOf (source.sendInvite K).2 = [request] := by
    rw [← requestEq, ← isConfig]
    rfl
  have kept : onceOf sent input [request] = [request] := by
    apply onceOf_of_no_bye
    intro other member
    rw [List.mem_singleton.mp member, isInvite]
    simp
  have cseq : (source.sendInvite K).1.cseq = source.cseq + 1 := rfl
  rw [requests, kept]
  refine .inr ⟨by simp [sendInvite], isConfig, isMarker, unfinished, ?_⟩
  apply Phase.inviting
  · rfl
  · exact owed
  · rw [cseq]
    change source.cseq + 1 ≤ 2 + source.state.answeredChallenge.toNat
    omega
  · apply within.next _ _ (by omega)
    intro other member
    exact ⟨source.cseq + 1, by omega, List.mem_singleton.mp member ▸ numbered⟩
  · exact ⟨numbered, rfl⟩
  · apply Unanswered.next within _ numbered (Nat.lt_succ_self _)
    intro other member isInvite
    rw [(kind other member).1] at isInvite
    contradiction
  · intro other member
    rcases List.mem_append.mp member with earlier | now
    · exact (kind other earlier).2
    · rw [List.mem_singleton.mp now]
      rintro ⟨isRegister, -⟩
      rw [isInvite] at isRegister
      contradiction
  · exact isInvite
  · exact noDialog

/-- The answered call is acknowledged and hung up. -/
theorem follows_sendBye {source : ProbeEngine} (isConfig : source.config = config)
    (isMarker : source.marker = marker) (unfinished : source.state.finished = false)
    (owed : source.state.owed = [.deregister, .endDialog])
    (few : source.cseq ≤ 2 + source.state.answeredChallenge.toNat)
    (kind : ∀ request ∈ sent, ¬ Deregisters config request) (unchallenged : ¬ ChallengesBye sent input) :
    Follows config marker responses (sent ++ requestsOf (source.sendBye K).2)
      (sent ++ onceOf sent input (requestsOf (source.sendBye K).2)) (source.sendBye K) := by
  have small := Bool.toNat_le source.state.answeredChallenge
  have isBegun : (source.begin .bye).skipNext.config = config := isConfig
  obtain ⟨numbered, isBye⟩ := simpleRequest_built accepts (K := K) isBegun isMarker
    (by simp only [begin, skipNext, u32Max]; omega) (.inr rfl)
  generalize requestEq :
    ((source.begin .bye).skipNext.simpleRequest K .bye config.echoAor).2 = bye at numbered isBye
  have isAck : ((source.begin .bye).simpleRequest K .ack config.echoAor).2.method = .ack :=
    method_buildRequest _ _ _
  generalize ackEq : ((source.begin .bye).simpleRequest K .ack config.echoAor).2 = ack at isAck
  have requests : requestsOf (source.sendBye K).2 = [ack, bye] := by
    rw [← requestEq, ← ackEq, ← isConfig]
    rfl
  have cseq : (source.sendBye K).1.cseq = source.cseq + 2 := rfl
  have notRegister : ∀ request : Request K.Uri, request.method ≠ .register →
      ¬ Deregisters config request := fun request other removes => other removes.1
  have ackKind : ¬ Deregisters config ack := notRegister ack (by simp [isAck])
  rw [requests, onceOf_of_not_challenges unchallenged]
  refine .inr ⟨by simp [sendBye], isConfig, isMarker, unfinished, ?_⟩
  have split : sent ++ [ack, bye] = (sent ++ [ack]) ++ [bye] := by simp
  have kindAck : ∀ request ∈ sent ++ [ack], ¬ Deregisters config request := by
    intro other member
    rcases List.mem_append.mp member with earlier | now
    · exact kind other earlier
    · rwa [List.mem_singleton.mp now]
  have phase : Phase config responses (source.sendBye K).1 ((sent ++ [ack]) ++ [bye])
      (sent ++ [ack, bye]) := by
    apply Phase.hangingUp
    · rfl
    · exact owed
    · rw [cseq]
      change source.cseq + 2 ≤ 4 + source.state.answeredChallenge.toNat
      omega
    · exact ⟨numbered, rfl⟩
    · exact isBye
    · intro other member
      rcases List.mem_append.mp member with earlier | now
      · exact kindAck other earlier
      · rw [List.mem_singleton.mp now]
        exact notRegister bye (by simp [isBye])
    · exact ⟨isAck, isBye⟩
    · exact kindAck
  rwa [← split] at phase

theorem turn_resolving (isConfig : engine.config = config) (isMarker : engine.marker = marker)
    (unfinished : engine.state.finished = false) (waiting : engine.waiting = .step .resolve)
    (owed : engine.state.owed = []) (none : engine.cseq = 0) (noDialog : ¬ HasDialog engine)
    (notStart : input ≠ .start) (own : Own (K := K) [] input) :
    TurnFollows (K := K) config marker [] [] [] input (engine.onInput K now input) := by
  have ends : ∀ source : ProbeEngine, ∀ outcome : ProbeEngine × List (Effect K.Uri),
      CleansFrom source outcome → source.state.owed = engine.state.owed →
        TurnFollows (K := K) config marker [] [] [] input outcome := by
    intro source outcome cleans same
    exact follows_of_nothing cleans (same.trans owed) (cleansUp_nil config _) input
  have fails : ∀ cause, TurnFollows (K := K) config marker [] [] [] input
      ((({ engine with now := now } : ProbeEngine).concludeStep false).fail K .resolve cause) := by
    intro cause
    obtain ⟨source, -, same, cleans⟩ :=
      fail_cleansFrom (K := K) ({ engine with now := now } : ProbeEngine) .resolve cause
    exact ends source _ cleans same
  have abandons : ∀ fault, TurnFollows (K := K) config marker [] [] [] input
      (({ engine with now := now } : ProbeEngine).abandon K fault) := by
    intro fault
    obtain ⟨source, -, same, cleans⟩ :=
      abandon_cleansFrom (K := K) ({ engine with now := now } : ProbeEngine) fault
    exact ends source _ cleans same
  rw [onInput, if_neg (by simp [unfinished])]
  cases input with
  | start => contradiction
  | response response =>
      obtain ⟨request, member, -⟩ := own response rfl
      simp at member
  | transportError =>
      simp only [onTransportError_of_step { engine with now := now } waiting]
      exact fails _
  | cancelled => exact abandons _
  | localResourceUnavailable => exact abandons _
  | timerFired fired =>
      simp only [onTimeout_of_step { engine with now := now } waiting]
      split
      next same => exact same ▸ fails _
      next =>
        exact follows_still { engine with now := now } isConfig isMarker unfinished _
          (.resolving waiting owed none rfl noDialog)
  | resolved outcome =>
      simp only [onResolved]
      rw [if_neg (not_not_intro waiting)]
      cases outcome with
      | error _ => exact fails _
      | ok _ =>
          rw [concludeStep_of_step { engine with now := now } waiting true]
          apply follows_sendRegister accepts
          · exact isConfig
          · exact isMarker
          · exact unfinished
          · exact owed
          · exact none
          · exact not_hasDialog_concat noDialog (by simp)

omit accepts [Inhabited K.Uri] in
/-- Neither an answer nor a giving up, and no INVITE: nothing stays unanswered. -/
theorem cleansUp_registering (awaits : Awaits engine last)
    (refused : ∀ request ∈ old, ∃ response ∈ responses, Answers response request ∧
      Refuses response)
    (kind : ∀ request ∈ old ++ [last], request.method = .register ∧
      ¬ Deregisters config request) {response : Response}
    (heard : engine.correlates response = true) (refuses : Refuses response) :
    CleansUp K config (heardAfter responses (.response response)) (old ++ [last]) once := by
  apply cleansUp_of_refused
  · exact fun request member => (kind request member).1
  · intro request member
    rcases List.mem_append.mp member with earlier | now
    · obtain ⟨refusal, delivered, answers⟩ := refused request earlier
      exact ⟨refusal, mem_heardAfter.mpr (.inl delivered), answers⟩
    · rw [List.mem_singleton.mp now]
      exact ⟨response, mem_heardAfter.mpr (.inr rfl), awaits.answers heard, refuses⟩

theorem turn_registering (isConfig : engine.config = config) (isMarker : engine.marker = marker)
    (unfinished : engine.state.finished = false) (waiting : engine.waiting = .step .register)
    (owed : engine.state.owed = [])
    (few : engine.cseq ≤ 1 + engine.state.answeredChallenge.toNat)
    (within : Within engine responses (old ++ [last])) (awaits : Awaits engine last)
    (refused : ∀ request ∈ old, ∃ response ∈ responses, Answers response request ∧
      Refuses response)
    (kind : ∀ request ∈ old ++ [last], request.method = .register ∧ ¬ Deregisters config request)
    (noDialog : ¬ HasDialog engine) (notStart : input ≠ .start)
    (own : Own (old ++ [last]) input) (careful : ¬ Neglects engine (old ++ [last]) input) :
    TurnFollows config marker responses (old ++ [last]) (old ++ [last]) input
      (engine.onInput K now input) := by
  have reaction := reaction_onInput (K := K) unfinished waiting (by simp) now notStart
  generalize engine.onInput K now input = outcome at reaction
  have hears := within.hears own
  have refusedAfter : ∀ request ∈ old, ∃ response ∈ heardAfter responses input,
      Answers response request ∧ Refuses response := by
    intro request member
    obtain ⟨response, delivered, answers⟩ := refused request member
    exact ⟨response, mem_heardAfter.mpr (.inl delivered), answers⟩
  cases reaction with
  | ignored unheard =>
      apply follows_still { engine with now := now } isConfig isMarker unfinished input
      exact .registering waiting owed few ⟨hears.numbered, hears.heard⟩
        ⟨awaits.number, awaits.outstanding⟩ refusedAfter kind noDialog
  | @retried response heard challenge first =>
      have learned : Bool.toNat engine.state.answeredChallenge = 0 := by rw [first]; rfl
      obtain ⟨numbered, registers⟩ := registerRequest_built accepts (K := K) isConfig isMarker
        (by simp only [u32Max]; omega) 3600
      generalize requestEq : (engine.registerRequest K 3600).2 = request at numbered registers
      have requests : requestsOf (({ engine with
            now := now
            state := { engine.state with answeredChallenge := true } } :
          ProbeEngine).retryChallenged K .register).2 = [request] := by
        rw [← requestEq]
        rfl
      have kept : onceOf (old ++ [last]) (.response response) [request] = [request] := by
        apply onceOf_of_no_bye
        intro other member
        rw [List.mem_singleton.mp member, registers.1]
        simp
      unfold TurnFollows
      rw [requests, kept]
      refine .inr ⟨by simp [retryChallenged], isConfig, isMarker, unfinished, ?_⟩
      apply Phase.registering
      · exact waiting
      · exact owed
      · change engine.cseq + 1 ≤ 1 + 1
        omega
      · have grown := hears.next engine.awaitNext [request] (Nat.le_succ _) fun other member =>
            ⟨engine.cseq + 1, Nat.le_refl _, List.mem_singleton.mp member ▸ numbered⟩
        exact ⟨grown.numbered, grown.heard⟩
      · exact ⟨numbered, rfl⟩
      · intro other member
        rcases List.mem_append.mp member with earlier | now
        · exact refusedAfter other earlier
        · rw [List.mem_singleton.mp now]
          exact ⟨response, mem_heardAfter.mpr (.inr rfl), awaits.answers heard,
            Challenges.refuses challenge⟩
      · intro other member
        rcases List.mem_append.mp member with earlier | now
        · exact kind other earlier
        · rw [List.mem_singleton.mp now]
          refine ⟨registers.1, fun removes => ?_⟩
          exact absurd (RegistersFor.unique registers removes) (by simp)
      · exact noDialog
  | abandoned fault cause =>
      rcases cause with rfl | rfl | ⟨response, rfl, heard, challenges⟩
      · exact absurd (.registration waiting .cancelled) careful
      · exact absurd (.registration waiting .noResource) careful
      · obtain ⟨source, -, same, cleans⟩ :=
          abandon_cleansFrom (K := K) ({ engine with now := now } : ProbeEngine) fault
        exact follows_of_nothing cleans (same.trans owed)
          (cleansUp_registering awaits refused kind heard (Challenges.refuses challenges)) _
  | failed cause why =>
      rcases why with gives | ⟨response, rfl, heard, refuses⟩
      · exact absurd (.registration waiting gives) careful
      · obtain ⟨source, -, same, cleans⟩ :=
          fail_cleansFrom (K := K) ({ engine with now := now } : ProbeEngine) .register cause
        exact follows_of_nothing cleans (same.trans owed)
          (cleansUp_registering awaits refused kind heard refuses) _
  | succeeded heard success =>
      unfold onStepSuccess
      rw [concludeStep_of_step { engine with now := now } waiting true]
      apply follows_sendInvite accepts
      · exact isConfig
      · exact isMarker
      · simp [RunState.owe, RunState.owes, owed, unfinished]
      · simp [RunState.owe, RunState.owes, owed]
      · simpa [RunState.owe, RunState.owes, owed] using few
      · exact not_hasDialog_concat noDialog (by simp)
      · exact ⟨hears.numbered, hears.heard⟩
      · exact kind

/-- A call that was not taken leaves a registration to remove. -/
theorem follows_uncalled {source : ProbeEngine} {outcome : ProbeEngine × List (Effect K.Uri)}
    (isConfig : engine.config = config) (isMarker : engine.marker = marker)
    (unfinished : engine.state.finished = false) (owed : engine.state.owed = [.deregister])
    (unanswered : Unanswered (heardAfter responses input) sent)
    (kind : ∀ request ∈ sent, ¬ Deregisters config request) (noDialog : ¬ HasDialog engine)
    (alike : Alike engine source) (same : source.state.owed = engine.state.owed)
    (cleans : CleansFrom source outcome) :
    TurnFollows config marker responses sent sent input outcome := by
  apply follows_of_deregister accepts cleans
  · exact same.trans owed
  · exact alike.config.trans isConfig
  · exact alike.marker.trans isMarker
  · exact alike.finished.trans unfinished
  · exact kind
  · exact .inl ⟨fun dialog => noDialog (alike.dialog.mp dialog), unanswered⟩

theorem turn_inviting (isConfig : engine.config = config) (isMarker : engine.marker = marker)
    (unfinished : engine.state.finished = false) (waiting : engine.waiting = .step .invite)
    (owed : engine.state.owed = [.deregister])
    (few : engine.cseq ≤ 2 + engine.state.answeredChallenge.toNat)
    (within : Within engine responses (old ++ [last])) (awaits : Awaits engine last)
    (unanswered : Unanswered responses (old ++ [last]))
    (kind : ∀ request ∈ old ++ [last], ¬ Deregisters config request)
    (isInvite : last.method = .invite) (noDialog : ¬ HasDialog engine)
    (notStart : input ≠ .start) (own : Own (old ++ [last]) input)
    (careful : ¬ Neglects engine (old ++ [last]) input) :
    TurnFollows config marker responses (old ++ [last]) (old ++ [last]) input
      (engine.onInput K now input) := by
  have reaction := reaction_onInput (K := K) unfinished waiting (by simp) now notStart
  generalize engine.onInput K now input = outcome at reaction
  have hears := within.hears own
  have alikeNow : Alike engine { engine with now := now } := ⟨rfl, rfl, rfl, rfl, rfl, Iff.rfl⟩
  have refusedHears : ∀ {response}, input = .response response → Refuses response →
      Unanswered (heardAfter responses input) (old ++ [last]) := by
    rintro response rfl refuses
    apply unanswered.hears careful noDialog
    rintro other ⟨⟩ success
    rw [refuses.2] at success
    contradiction
  have silentHears : input.answer = none →
      Unanswered (heardAfter responses input) (old ++ [last]) := by
    intro silent
    apply unanswered.hears careful noDialog
    intro other delivered
    rw [silent] at delivered
    contradiction
  cases reaction with
  | ignored unheard =>
      apply follows_still { engine with now := now } isConfig isMarker unfinished input
      refine .inviting waiting owed few ⟨hears.numbered, hears.heard⟩
        ⟨awaits.number, awaits.outstanding⟩ ?_ kind isInvite noDialog
      apply unanswered.hears careful noDialog
      rintro response delivered success ⟨-, heard⟩
      rcases unheard response delivered with provisional | uncorrelated
      · have hundreds : response.status.hundreds = 2 := by simpa [isSuccess] using success
        simp [StatusCode.isProvisional, hundreds] at provisional
      · rw [heard] at uncorrelated
        contradiction
  | @retried response heard challenge first =>
      have learned : Bool.toNat engine.state.answeredChallenge = 0 := by rw [first]; rfl
      obtain ⟨numbered, invites⟩ := simpleRequest_built accepts (K := K) isConfig isMarker
        (by simp only [u32Max]; omega) (.inl rfl)
      generalize requestEq : (engine.simpleRequest K .invite config.echoAor).2 = request
        at numbered invites
      have requests : requestsOf (({ engine with
            now := now
            state := { engine.state with answeredChallenge := true } } :
          ProbeEngine).retryChallenged K .invite).2 = [request] := by
        rw [← requestEq, ← isConfig]
        rfl
      have kept : onceOf (old ++ [last]) (.response response) [request] = [request] := by
        apply onceOf_of_no_bye
        intro other member
        rw [List.mem_singleton.mp member, invites]
        simp
      unfold TurnFollows
      rw [requests, kept]
      refine .inr ⟨by simp [retryChallenged], isConfig, isMarker, unfinished, ?_⟩
      apply Phase.inviting
      · exact waiting
      · exact owed
      · change engine.cseq + 1 ≤ 2 + 1
        omega
      · have grown := hears.next engine.awaitNext [request] (Nat.le_succ _) fun other member =>
            ⟨engine.cseq + 1, Nat.le_refl _, List.mem_singleton.mp member ▸ numbered⟩
        exact ⟨grown.numbered, grown.heard⟩
      · exact ⟨numbered, rfl⟩
      · exact Unanswered.next hears (refusedHears rfl (Challenges.refuses challenge)) numbered
          (Nat.lt_succ_self _)
      · intro other member
        rcases List.mem_append.mp member with earlier | now
        · exact kind other earlier
        · rw [List.mem_singleton.mp now]
          rintro ⟨isRegister, -⟩
          rw [invites] at isRegister
          contradiction
      · exact invites
      · exact noDialog
  | abandoned fault cause =>
      obtain ⟨source, alike, same, cleans⟩ :=
        abandon_cleansFrom (K := K) ({ engine with now := now } : ProbeEngine) fault
      refine follows_uncalled accepts isConfig isMarker unfinished owed ?_ kind noDialog
        (alikeNow.trans alike) same cleans
      rcases cause with rfl | rfl | ⟨response, isInput, heard, challenges⟩
      · exact silentHears rfl
      · exact silentHears rfl
      · exact refusedHears isInput (Challenges.refuses challenges)
  | failed cause why =>
      obtain ⟨source, alike, same, cleans⟩ :=
        fail_cleansFrom (K := K) ({ engine with now := now } : ProbeEngine) .invite cause
      refine follows_uncalled accepts isConfig isMarker unfinished owed ?_ kind noDialog
        (alikeNow.trans alike) same cleans
      rcases why with gives | ⟨response, isInput, heard, refuses⟩
      · exact silentHears (by cases gives <;> rfl)
      · exact refusedHears isInput refuses
  | @succeeded response heard success =>
      have marked : Marker.of response.headers = some engine.marker := by
        by_contra unmarked
        exact careful (.answer (by simp) isInvite (awaits.answers heard) success noDialog
          fun taken => unmarked taken.2.2)
      have unchallenged : ¬ ChallengesBye (old ++ [last]) (.response response) := by
        rintro ⟨other, ⟨⟩, challenges, -⟩
        rw [(Challenges.refuses challenges).2] at success
        contradiction
      simp only [onStepSuccess]
      rw [concludeStep_of_step { engine with now := now } waiting true,
        if_neg (not_not_intro marked)]
      apply follows_sendBye accepts
      · exact isConfig
      · exact isMarker
      · simp [RunState.owe, RunState.owes, owed, unfinished]
      · simp [RunState.owe, RunState.owes, owed]
      · simpa [RunState.owe, RunState.owes, owed] using few
      · exact kind
      · exact unchallenged

/-- An answered call that was hung up leaves a registration to remove. -/
theorem follows_called {source : ProbeEngine} {outcome : ProbeEngine × List (Effect K.Uri)}
    (isConfig : engine.config = config) (isMarker : engine.marker = marker)
    (unfinished : engine.state.finished = false) {ack bye : Request K.Uri}
    (kind : ∀ request ∈ sent, ¬ Deregisters config request)
    (call : ack.method = .ack ∧ bye.method = .bye)
    (once : ∀ request ∈ before ++ [ack], ¬ Deregisters config request)
    (alike : Alike engine source) (owed : source.state.owed = [.deregister])
    (cleans : CleansFrom source outcome) :
    TurnFollows config marker responses sent (before ++ [ack, bye]) input outcome := by
  apply follows_of_deregister accepts cleans
  · exact owed
  · exact alike.config.trans isConfig
  · exact alike.marker.trans isMarker
  · exact alike.finished.trans unfinished
  · exact kind
  · exact .inr ⟨before, ack, bye, rfl, call.1, call.2, once⟩

omit accepts in
/-- A run that abandons itself while it hangs up sends another BYE, which is a re-send
when the first one was challenged. -/
theorem follows_abandonedBye {source : ProbeEngine} {outcome : ProbeEngine × List (Effect K.Uri)}
    (isConfig : engine.config = config) (isMarker : engine.marker = marker)
    (unfinished : engine.state.finished = false)
    (owed : source.state.owed = [.deregister, .endDialog]) {ack bye : Request K.Uri}
    (kind : ∀ request ∈ sent, ¬ Deregisters config request)
    (call : ack.method = .ack ∧ bye.method = .bye)
    (once : ∀ request ∈ before ++ [ack], ¬ Deregisters config request)
    (challenged : ChallengesBye sent input) (alike : Alike engine source)
    (cleans : CleansFrom source outcome) :
    TurnFollows config marker responses sent (before ++ [ack, bye]) input outcome := by
  obtain ⟨request, after, cleaned, isBye⟩ := cleanup_of_dialog (K := K) owed
  have requests : requestsOf outcome.2 = [request] := by
    rw [requestsOf_cleansFrom cleans, cleaned]
    rfl
  unfold TurnFollows
  rw [requests, onceOf_of_challenges isBye challenged, List.append_nil]
  refine .inr ⟨?_, ?_⟩
  · intro run
    rw [finish_mem_cleansFrom cleans, cleaned]
    simp
  · rw [cleans.1, cleaned]
    refine ⟨alike.config.trans isConfig, alike.marker.trans isMarker,
      alike.finished.trans unfinished, ?_⟩
    apply Phase.cleaningBye rfl _ _ call once
    · simp [ProbeEngine.hangingUp, awaitNext, RunState.forget, owed]
    · intro other member
      rcases List.mem_append.mp member with earlier | now
      · exact kind other earlier
      · rw [List.mem_singleton.mp now]
        rintro ⟨isRegister, -⟩
        rw [isBye] at isRegister
        contradiction

theorem turn_hangingUp (isConfig : engine.config = config) (isMarker : engine.marker = marker)
    (unfinished : engine.state.finished = false) {ack bye : Request K.Uri}
    (waiting : engine.waiting = .step .bye) (owed : engine.state.owed = [.deregister, .endDialog])
    (few : engine.cseq ≤ 4 + engine.state.answeredChallenge.toNat) (awaits : Awaits engine last)
    (isBye : last.method = .bye) (kind : ∀ request ∈ old ++ [last], ¬ Deregisters config request)
    (call : ack.method = .ack ∧ bye.method = .bye)
    (once : ∀ request ∈ before ++ [ack], ¬ Deregisters config request)
    (notStart : input ≠ .start) (careful : ¬ Neglects engine (old ++ [last]) input) :
    TurnFollows config marker responses (old ++ [last]) (before ++ [ack, bye]) input
      (engine.onInput K now input) := by
  have reaction := reaction_onInput (K := K) unfinished waiting (by simp) now notStart
  generalize engine.onInput K now input = outcome at reaction
  have alikeNow : Alike engine { engine with now := now } := ⟨rfl, rfl, rfl, rfl, rfl, Iff.rfl⟩
  have challenges : ∀ {response}, engine.correlates response = true → Challenges response →
      ChallengesBye (old ++ [last]) (.response response) := fun heard challenge =>
    ⟨_, rfl, challenge, last, by simp, isBye, awaits.answers heard⟩
  have forgotten : (engine.state.forget .endDialog).owed = [.deregister] := by
    simp [RunState.forget, owed]
  cases reaction with
  | ignored unheard =>
      apply follows_still { engine with now := now } isConfig isMarker unfinished input
      exact .hangingUp waiting owed few ⟨awaits.number, awaits.outstanding⟩ isBye kind call once
  | @retried response heard challenge first =>
      have learned : Bool.toNat engine.state.answeredChallenge = 0 := by rw [first]; rfl
      obtain ⟨numbered, again⟩ := simpleRequest_built accepts (K := K) isConfig isMarker
        (by simp only [u32Max]; omega) (.inr rfl)
      generalize requestEq : (engine.simpleRequest K .bye config.echoAor).2 = request
        at numbered again
      have requests : requestsOf (({ engine with
            now := now
            state := { engine.state with answeredChallenge := true } } :
          ProbeEngine).retryChallenged K .bye).2 = [request] := by
        rw [← requestEq, ← isConfig]
        rfl
      unfold TurnFollows
      rw [requests, onceOf_of_challenges again (challenges heard challenge), List.append_nil]
      refine .inr ⟨by simp [retryChallenged], isConfig, isMarker, unfinished, ?_⟩
      apply Phase.hangingUp
      · exact waiting
      · exact owed
      · change engine.cseq + 1 ≤ 4 + 1
        omega
      · exact ⟨numbered, rfl⟩
      · exact again
      · intro other member
        rcases List.mem_append.mp member with earlier | now
        · exact kind other earlier
        · rw [List.mem_singleton.mp now]
          rintro ⟨isRegister, -⟩
          rw [again] at isRegister
          contradiction
      · exact call
      · exact once
  | abandoned fault cause =>
      obtain ⟨source, alike, same, cleans⟩ :=
        abandon_cleansFrom (K := K) ({ engine with now := now } : ProbeEngine) fault
      rcases cause with rfl | rfl | ⟨response, rfl, heard, challenge⟩
      · exact absurd (.cancelled waiting) careful
      · exact absurd (.noResource waiting) careful
      · exact follows_abandonedBye isConfig isMarker unfinished (same.trans owed) kind call once
          (challenges heard challenge) (alikeNow.trans alike) cleans
  | failed cause why =>
      obtain ⟨source, alike, same, cleans⟩ :=
        fail_cleansFrom (K := K) ({ engine with now := now } : ProbeEngine) .bye cause
      rw [if_pos rfl] at same
      exact follows_called accepts isConfig isMarker unfinished kind call once
        (alikeNow.trans alike) (same.trans forgotten) cleans
  | succeeded heard success =>
      simp only [onStepSuccess]
      rw [concludeStep_of_step { engine with now := now } waiting true]
      apply follows_of_deregister accepts
      · exact ⟨rfl, [], rfl⟩
      · exact forgotten
      · exact isConfig
      · exact isMarker
      · exact unfinished
      · exact kind
      · exact .inr ⟨before, ack, bye, rfl, call.1, call.2, once⟩

theorem turn_cleaningBye (isConfig : engine.config = config) (isMarker : engine.marker = marker)
    (unfinished : engine.state.finished = false) {ack bye : Request K.Uri}
    (waiting : engine.waiting = .cleanup .bye) (owed : engine.state.owed = [.deregister])
    (kind : ∀ request ∈ sent, ¬ Deregisters config request)
    (call : ack.method = .ack ∧ bye.method = .bye)
    (once : ∀ request ∈ before ++ [ack], ¬ Deregisters config request)
    (notStart : input ≠ .start) :
    TurnFollows config marker responses sent (before ++ [ack, bye]) input
      (engine.onInput K now input) := by
  rcases cleanup_onInput (K := K) unfinished waiting now notStart with
    still | ⟨source, alike, same, cleans⟩
  · rw [still]
    apply follows_still { engine with now := now } isConfig isMarker unfinished input
    exact .cleaningBye waiting owed kind call once
  · exact follows_called accepts isConfig isMarker unfinished kind call once alike
      (same.trans owed) cleans

omit accepts in
theorem turn_deregistering (isConfig : engine.config = config) (isMarker : engine.marker = marker)
    (unfinished : engine.state.finished = false) (waiting : engine.waiting = .cleanup .register)
    (owed : engine.state.owed = []) (isLast : Deregisters config last)
    (kind : ∀ request ∈ old, ¬ Deregisters config request)
    (called : (¬ HasDialog engine ∧ Unanswered responses (old ++ [last])) ∨
      ∃ before ack bye, once = before ++ [ack, bye, last] ∧ ack.method = .ack ∧
        bye.method = .bye ∧ ∀ request ∈ before ++ [ack], ¬ Deregisters config request)
    (notStart : input ≠ .start) (careful : ¬ Neglects engine (old ++ [last]) input) :
    TurnFollows config marker responses (old ++ [last]) once input
      (engine.onInput K now input) := by
  have calledAfter : (¬ HasDialog engine ∧ Unanswered (heardAfter responses input) (old ++ [last])) ∨
      ∃ before ack bye, once = before ++ [ack, bye, last] ∧ ack.method = .ack ∧
        bye.method = .bye ∧ ∀ request ∈ before ++ [ack], ¬ Deregisters config request := by
    rcases called with ⟨noDialog, unanswered⟩ | call
    · refine .inl ⟨noDialog, unanswered.hears careful noDialog ?_⟩
      rintro response - - ⟨isStep, -⟩
      rw [waiting] at isStep
      contradiction
    · exact .inr call
  rcases cleanup_onInput (K := K) unfinished waiting now notStart with
    still | ⟨source, alike, same, cleans⟩
  · rw [still]
    apply follows_still { engine with now := now } isConfig isMarker unfinished input
    exact .deregistering waiting owed isLast kind calledAfter
  · apply follows_of_nothing cleans (same.trans owed)
    apply cleansUp_of_deregistered isLast kind
    rcases calledAfter with ⟨-, unanswered⟩ | call
    · exact .inl unanswered
    · exact .inr call

/-- A careful turn takes a run from phase to phase, or to its end with everything
cleaned up. -/
theorem turn_follows (now : Duration) (isConfig : engine.config = config) (isMarker : engine.marker = marker)
    (unfinished : engine.state.finished = false)
    (phase : Phase config responses engine sent once) (notStart : input ≠ .start)
    (own : Own sent input) (careful : ¬ Neglects engine sent input) :
    TurnFollows config marker responses sent once input (engine.onInput K now input) := by
  cases phase with
  | resolving waiting owed none silent noDialog =>
      subst silent
      exact turn_resolving accepts isConfig isMarker unfinished waiting owed none noDialog notStart
        own
  | registering waiting owed few within awaits refused kind noDialog =>
      exact turn_registering accepts isConfig isMarker unfinished waiting owed few within awaits
        refused kind noDialog notStart own careful
  | inviting waiting owed few within awaits unanswered kind isInvite noDialog =>
      exact turn_inviting accepts isConfig isMarker unfinished waiting owed few within awaits
        unanswered kind isInvite noDialog notStart own careful
  | hangingUp waiting owed few awaits isBye kind call once =>
      exact turn_hangingUp accepts isConfig isMarker unfinished waiting owed few awaits isBye kind
        call once notStart careful
  | cleaningBye waiting owed kind call once =>
      exact turn_cleaningBye accepts isConfig isMarker unfinished waiting owed kind call once
        notStart
  | deregistering waiting owed isLast kind called =>
      exact turn_deregistering isConfig isMarker unfinished waiting owed isLast kind called notStart
        careful

end Turns

end Phases

/-! ## Runs -/

section Runs

variable {K : Kernel} [Inhabited K.Uri]

/-- A finished run answers nothing. -/
theorem machine_of_finished {engine : ProbeEngine} (finished : engine.state.finished = true)
    (input : Duration × Input) : machine K engine input = (engine, []) := by
  rw [machine, onInput, if_pos finished]

theorem sent_concat (engine : ProbeEngine) (past : List (Duration × Input))
    (input : Duration × Input) :
    engine.sent K (past ++ [input]) =
      engine.sent K past ++ requestsOf (machine K ((machine K).after engine past) input).2 := by
  rw [sent, Reactive.Machine.emitted_concat, requestsOf, List.filterMap_append]
  rfl

theorem sentOnceFrom_concat (earlier : List (Request K.Uri)) (engine : ProbeEngine)
    (past : List (Duration × Input)) (input : Duration × Input) :
    sentOnceFrom K earlier engine (past ++ [input]) =
      sentOnceFrom K earlier engine past ++
        onceOf (earlier ++ engine.sent K past) input.2
          (requestsOf (machine K ((machine K).after engine past) input).2) := by
  induction past generalizing earlier engine with
  | nil => simp [sentOnceFrom, onceOf, sent, requestsOf]
  | cons first rest ih =>
      rw [List.cons_append, sentOnceFrom, ih, sentOnceFrom, List.append_assoc]
      simp [sent, requestsOf, List.append_assoc]

theorem sentOnce_concat (engine : ProbeEngine) (past : List (Duration × Input))
    (input : Duration × Input) :
    engine.sentOnce K (past ++ [input]) =
      engine.sentOnce K past ++ onceOf (engine.sent K past) input.2
        (requestsOf (machine K ((machine K).after engine past) input).2) :=
  sentOnceFrom_concat [] engine past input

theorem responsesOf_concat (past : List (Duration × Input)) (input : Duration × Input) :
    responsesOf (past ++ [input]) = heardAfter (responsesOf past) input.2 := by
  rw [responsesOf, List.filterMap_append, heardAfter, responsesOf]
  cases answered : input.2.answer <;> simp [answered]

variable {config : ProbeConfig} {marker : Marker}

/-- A run so far: every answer is to a request it has sent, and no turn neglected an
obligation. -/
structure Careful (K : Kernel) [Inhabited K.Uri] (config : ProbeConfig) (marker : Marker)
    (inputs : List (Duration × Input)) : Prop where
  own : ∀ past input later, inputs = past ++ input :: later →
    Own ((new config marker).sent K past) input.2
  careful : ∀ past input later, inputs = past ++ input :: later →
    ¬ Neglects ((machine K).after (new config marker) past) ((new config marker).sent K past)
      input.2

theorem Careful.nil : Careful K config marker [] where
  own past input later split := by simp at split
  careful past input later split := by simp at split

theorem Careful.concat {past : List (Duration × Input)} {input : Duration × Input}
    (before : Careful K config marker past) (own : Own ((new config marker).sent K past) input.2)
    (careful : ¬ Neglects ((machine K).after (new config marker) past)
      ((new config marker).sent K past) input.2) : Careful K config marker (past ++ [input]) where
  own earlier next later split := by
    rcases Reactive.Machine.concat_eq_append_cons split with ⟨rfl, rfl, -⟩ | ⟨between, rfl, rfl⟩
    · exact own
    · exact before.own earlier next between rfl
  careful earlier next later split := by
    rcases Reactive.Machine.concat_eq_append_cons split with ⟨rfl, rfl, -⟩ | ⟨between, rfl, rfl⟩
    · exact careful
    · exact before.careful earlier next between rfl

theorem Careful.init {past : List (Duration × Input)} {input : Duration × Input}
    (careful : Careful K config marker (past ++ [input])) : Careful K config marker past where
  own earlier next later split := careful.own earlier next (later ++ [input]) (by simp [split])
  careful earlier next later split :=
    careful.careful earlier next (later ++ [input]) (by simp [split])

/-- The first turn. -/
theorem follows_start (config : ProbeConfig) (marker : Marker) (now : Duration) :
    TurnFollows (K := K) config marker [] [] [] .start
      (machine K (new config marker) (now, .start)) := by
  change TurnFollows (K := K) config marker [] [] [] .start
    (({ new config marker with now := now } : ProbeEngine).start K)
  unfold start
  split
  · obtain ⟨source, -, same, cleans⟩ := abandon_cleansFrom (K := K)
      ({ new config marker with now := now } : ProbeEngine) .misconfigured
    exact follows_of_nothing cleans same (cleansUp_nil config _) _
  · refine .inr ⟨by simp, rfl, rfl, rfl, ?_⟩
    exact .resolving rfl rfl rfl rfl (by simp [HasDialog, begin, new])

/-- A run that has not finished is in a phase. -/
theorem phase_run (accepts : AcceptsRequests K config marker) {first : Duration}
    {rest : List (Duration × Input)} (once : ∀ input ∈ rest, input.2 ≠ .start)
    (careful : Careful K config marker ((first, .start) :: rest)) :
    let engine := (machine K).after (new config marker) ((first, .start) :: rest)
    engine.state.finished = true ∨
      engine.config = config ∧ engine.marker = marker ∧ engine.state.finished = false ∧
        Phase config (responsesOf ((first, .start) :: rest)) engine
          ((new config marker).sent K ((first, .start) :: rest))
          ((new config marker).sentOnce K ((first, .start) :: rest)) := by
  induction rest using List.reverseRecOn with
  | nil =>
      rcases follows_start (K := K) config marker first with ⟨finished, -⟩ | ⟨-, known⟩
      · exact .inl finished
      · right
        simpa [sent, sentOnce, sentOnceFrom, onceOf, responsesOf, heardAfter, Input.answer]
          using known
  | append_singleton past input ih =>
      rw [← List.cons_append] at careful ⊢
      rw [Reactive.Machine.after_concat]
      have oncePast : ∀ input ∈ past, input.2 ≠ .start :=
        fun input member => once input (List.mem_append_left _ member)
      rcases ih oncePast careful.init with finished | ⟨isConfig, isMarker, unfinished, phase⟩
      · left
        rw [machine_of_finished finished]
        exact finished
      · have follows := turn_follows accepts input.1 isConfig isMarker unfinished phase
          (once input (by simp)) (careful.own _ input [] rfl) (careful.careful _ input [] rfl)
        rcases follows with ⟨finished, -⟩ | ⟨-, known⟩
        · exact .inl finished
        · right
          rw [sent_concat, sentOnce_concat, responsesOf_concat]
          exact known

/-- By the time a careful run emits `Finish` it has cleaned up. -/
theorem cleansUp_of_careful (accepts : AcceptsRequests K config marker) {first : Duration}
    {rest past : List (Duration × Input)} {last : Duration × Input} {run : ProbeRun}
    (begins : (first, .start) :: rest = past ++ [last]) (once : ∀ input ∈ rest, input.2 ≠ .start)
    (careful : Careful K config marker (past ++ [last]))
    (finishes : .finish run ∈ (machine K ((machine K).after (new config marker) past) last).2) :
    CleansUp K config (responsesOf (past ++ [last])) ((new config marker).sent K (past ++ [last]))
      ((new config marker).sentOnce K (past ++ [last])) := by
  rw [sent_concat, sentOnce_concat, responsesOf_concat]
  rcases past with _ | ⟨start, past⟩
  · obtain ⟨rfl, -⟩ := List.cons.inj begins
    rcases follows_start (K := K) config marker first with ⟨-, cleansUp⟩ | ⟨unfinished, -⟩
    · exact cleansUp
    · exact absurd finishes (unfinished run)
  · obtain ⟨rfl, rfl⟩ := List.cons.inj begins
    have oncePast : ∀ input ∈ past, input.2 ≠ .start :=
      fun input member => once input (List.mem_append_left _ member)
    rcases phase_run accepts oncePast careful.init with
      finished | ⟨isConfig, isMarker, unfinished, phase⟩
    · rw [machine_of_finished finished] at finishes
      contradiction
    · have follows := turn_follows accepts last.1 isConfig isMarker unfinished phase
        (once last (by simp)) (careful.own _ last [] rfl) (careful.careful _ last [] rfl)
      rcases follows with ⟨-, cleansUp⟩ | ⟨unfinished, -⟩
      · exact cleansUp
      · exact absurd finishes (unfinished run)

end Runs

/-! ## Runs on fixed inputs -/

/-- A `200` to the request of this sequence number. -/
def okTo (number : Nat) : Response where
  status := .ok
  reason := text "OK"
  headers := [⟨.cSeq, utf8 (decimal number ++ text " REGISTER")⟩]
  body := []

/-- Registered, and cancelled before the call is answered. -/
def cancelledCall : List (Duration × Input) :=
  [(0, .start), (1, .resolved (.ok ())), (2, .response (okTo 1)), (3, .cancelled)]

/-- Text that breaks no line. -/
def OneLine (value : Text) : Prop :=
  ∀ c ∈ value, c ≠ '\r' ∧ c ≠ '\n'

theorem OneLine.append {first second : Text} (one : OneLine first) (two : OneLine second) :
    OneLine (first ++ second) := by
  intro c member
  rcases List.mem_append.mp member with early | late
  · exact one c early
  · exact two c late

theorem oneLine_decimal (value : Nat) : OneLine (decimal value) := by
  intro c member
  have digit := isDigit_of_mem_decimal member
  constructor <;>
  · rintro rfl
    contradiction

theorem acceptsValue_utf8 (name : HeaderName) {value : Text} (oneLine : OneLine value) :
    Reference.kernel.acceptsValue name (utf8 value) = true := by
  change (utf8 value).all _ = true
  rw [List.all_eq_true]
  intro byte member
  obtain ⟨c, isChar, encoded⟩ := List.mem_flatMap.mp member
  rw [Bool.and_eq_true, decide_eq_true_eq, decide_eq_true_eq]
  constructor
  · rintro rfl
    have same := toNat_of_mem_utf8EncodeChar encoded (by decide)
    exact (oneLine c isChar).1 (Char.toNat_inj.mp same)
  · rintro rfl
    have same := toNat_of_mem_utf8EncodeChar encoded (by decide)
    exact (oneLine c isChar).2 (Char.toNat_inj.mp same)

/-- The reference kernel refuses nothing this configuration leads to. -/
theorem acceptsRequests_sample :
    AcceptsRequests Reference.kernel sampleConfig ⟨text "m"⟩ := by
  intro engine isConfig isMarker
  have constant : ∀ value : Text, (value.all fun c => c ≠ '\r' && c ≠ '\n') = true →
      OneLine value := by
    intro value plain c member
    simpa using List.all_eq_true.mp plain c member
  have via : OneLine engine.via := by
    unfold via
    rw [isConfig, isMarker]
    exact (constant _ (by decide)).append (oneLine_decimal _)
  constructor
  · intro expires row member
    apply acceptsValue_utf8
    simp only [registerRows, isConfig, isMarker, List.mem_cons, List.not_mem_nil, or_false]
      at member
    rcases member with rfl | rfl | rfl | rfl | rfl | rfl | rfl
    · exact constant _ (by decide)
    · rw [List.append_assoc]
      exact (oneLine_decimal _).append (constant _ (by decide))
    · exact constant _ (by decide)
    · exact constant _ (by decide)
    · exact (constant _ (by decide)).append (oneLine_decimal _)
    · exact constant _ (by decide)
    · exact via
  · intro method isMethod row member
    apply acceptsValue_utf8
    have token : OneLine (text " " ++ method.token) := by
      simp only [List.mem_cons, List.not_mem_nil, or_false] at isMethod
      rcases isMethod with rfl | rfl | rfl <;> exact constant _ (by decide)
    simp only [simpleRows, isConfig, isMarker, List.mem_cons, List.not_mem_nil, or_false]
      at member
    rcases member with rfl | rfl | rfl | rfl | rfl | rfl
    · exact constant _ (by decide)
    · rw [List.append_assoc]
      exact (oneLine_decimal _).append token
    · exact constant _ (by decide)
    · exact constant _ (by decide)
    · exact constant _ (by decide)
    · exact via

/-- A run that is cancelled while its call rings takes its registration back. -/
theorem cleansUp_cancelled :
    CleansUp Reference.kernel sampleConfig
      (responsesOf (cancelledCall ++ [(4, .timerFired .register)]))
      ((new sampleConfig ⟨text "m"⟩).sent Reference.kernel
        (cancelledCall ++ [(4, .timerFired .register)]))
      ((new sampleConfig ⟨text "m"⟩).sentOnce Reference.kernel
        (cancelledCall ++ [(4, .timerFired .register)])) := by
  have silent : ∀ sent, ∀ input : Input, input.answer = none →
      Own (K := Reference.kernel) sent input := by
    intro sent input unanswered response member
    rw [unanswered] at member
    contradiction
  have started : Careful Reference.kernel sampleConfig ⟨text "m"⟩ [(0, .start)] := by
    apply Careful.nil.concat (silent _ _ rfl)
    rintro ⟨waiting, ⟨⟩⟩
  have resolved : Careful Reference.kernel sampleConfig ⟨text "m"⟩
      [(0, .start), (1, .resolved (.ok ()))] := by
    apply started.concat (silent _ _ rfl)
    rintro ⟨waiting, ⟨⟩⟩
  have registered : Careful Reference.kernel sampleConfig ⟨text "m"⟩
      [(0, .start), (1, .resolved (.ok ())), (2, .response (okTo 1))] := by
    apply resolved.concat
    · rintro response ⟨⟩
      refine ⟨_, List.mem_of_getElem? (i := 0) rfl, ?_⟩
      decide
    · rintro (⟨waiting, ⟨⟩⟩ | ⟨member, isInvite, -⟩)
      have methods : ((new sampleConfig ⟨text "m"⟩).sent Reference.kernel
          [(0, .start), (1, .resolved (.ok ()))]).map Request.method = [.register] := rfl
      have named := List.mem_map_of_mem (f := Request.method) member
      rw [methods, isInvite] at named
      contradiction
  have cancelled : Careful Reference.kernel sampleConfig ⟨text "m"⟩ cancelledCall := by
    apply registered.concat (silent _ _ rfl)
    have ringing : ((machine Reference.kernel).after (new sampleConfig ⟨text "m"⟩)
        [(0, .start), (1, .resolved (.ok ())), (2, .response (okTo 1))]).waiting =
          .step .invite := rfl
    rintro (⟨waiting, -⟩ | - | waiting | -)
    · rw [ringing] at waiting
      contradiction
    · rw [ringing] at waiting
      contradiction
  have careful : Careful Reference.kernel sampleConfig ⟨text "m"⟩
      (cancelledCall ++ [(4, .timerFired .register)]) := by
    apply cancelled.concat (silent _ _ rfl)
    have cleaning : ((machine Reference.kernel).after (new sampleConfig ⟨text "m"⟩)
        cancelledCall).waiting = .cleanup .register := rfl
    rintro ⟨waiting, -⟩
    rw [cleaning] at waiting
    contradiction
  have once : ∀ input ∈ cancelledCall.tail ++ [((4 : Duration), Input.timerFired .register)],
      input.2 ≠ .start := by
    simp [cancelledCall]
  exact cleansUp_of_careful acceptsRequests_sample rfl once careful
    (List.mem_of_getElem? (i := 1) rfl)

/-- Registering, and given up on before the answer. -/
def silentRegistrar : List (Duration × Input) :=
  [(0, .start), (1, .resolved (.ok ())), (2, .timerFired .register)]

/-- A run that gives up on its REGISTER leaves a registration behind. -/
theorem not_cleansUp_silent :
    (∃ run, .finish run ∈ (machine Reference.kernel).emitted (new sampleConfig ⟨text "m"⟩)
      silentRegistrar) ∧
      (∀ input ∈ silentRegistrar.tail, input.2 ≠ .start) ∧
      (∀ input ∈ silentRegistrar, input.2.answer = none) ∧
      ¬ CleansUp Reference.kernel sampleConfig (responsesOf silentRegistrar)
        ((new sampleConfig ⟨text "m"⟩).sent Reference.kernel silentRegistrar)
        ((new sampleConfig ⟨text "m"⟩).sentOnce Reference.kernel silentRegistrar) := by
  refine ⟨⟨_, List.mem_of_getElem? (i := 6) rfl⟩, by simp [silentRegistrar],
    by simp [silentRegistrar, Input.answer], fun cleansUp => ?_⟩
  have registers : Registers sampleConfig
      (buildRequest Reference.kernel .register
        (uriOrPlaceholder Reference.kernel (text "sip:edge.example"))
        ((new sampleConfig ⟨text "m"⟩).awaitNext.registerRows 3600)) :=
    ⟨3600, by decide, by decide⟩
  have unanswered := cleansUp.registration [] _ [] rfl registers
    (by simp [silentRegistrar, responsesOf, Input.answer])
  contradiction

end ProbeEngine

end SipxClstr.Probe
