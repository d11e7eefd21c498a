import SipxClstr.Probe.Reactions

/-!
# The echo endpoint

The other end of the probe call: it registers like any other user agent, answers a marked INVITE
with `200` and copies the marker back.  It remembers no call, so what it answers depends on the
request alone.
-/

namespace SipxClstr.Probe.Echo

open SipxClstr.Sip Reactive Reactive.Machine

/-- How the echo is configured. -/
structure EchoConfig where
  aor : Text
  contact : Text
  registrar : Text
  /-- How long a registration lasts before it is refreshed, in seconds. -/
  registerExpires : Nat
  sentBy : Text

/-- Why the echo refused a call. -/
inductive Refusal where
  | notAProbeCall
  | unanswerable
  deriving DecidableEq, Repr

/-- Something that happened to the echo. -/
inductive Input (Uri : Type) where
  | start
  | request (request : Request Uri)
  | refreshDue

/-- Something the echo wants done. -/
inductive Effect (Uri : Type) where
  | send (request : Request Uri)
  | respond (response : Response)
  | setRefresh (after : Duration)
  | refused (refusal : Refusal)

/-- The echo.  It keeps no state of a call, only its sequence number and two counters. -/
structure EchoEndpoint where
  config : EchoConfig
  cseq : UInt32
  answered : UInt64
  refused : UInt64

/-- An echo with this configuration. -/
def EchoEndpoint.new (config : EchoConfig) : EchoEndpoint where
  config := config
  cseq := 0
  answered := 0
  refused := 0

/-- The `Via` of the REGISTER with this sequence number. -/
def via (config : EchoConfig) (cseq : UInt32) : Text :=
  text "SIP/2.0/UDP " ++ config.sentBy ++ text ";branch=z9hG4bK-echo-" ++ decimal cseq.toNat

/-- The rows of the REGISTER with this sequence number. -/
def registerRows (config : EchoConfig) (cseq : UInt32) : List (HeaderName × Text) :=
  [(.via, via config cseq),
    (.callId, text "echo-" ++ config.aor),
    (.cSeq, decimal cseq.toNat ++ text " " ++ Method.register.token),
    (.fromHeader, text "<" ++ config.aor ++ text ">;tag=echo"),
    (.toHeader, text "<" ++ config.aor ++ text ">"),
    (contactHeader, text "<" ++ config.contact ++ text ">;expires=" ++
      decimal config.registerExpires)]

/-- How long until a registration is refreshed: half of what was granted. -/
def refreshAfter (config : EchoConfig) : Duration :=
  fromSecs (config.registerExpires / 2)

variable (K : Kernel)

def registerRequest (config : EchoConfig) (cseq : UInt32) : Option (Request K.Uri) := do
  let target ← K.parseUri (utf8 config.registrar)
  if (registerRows config cseq).all fun row => K.acceptsValue row.1 (utf8 row.2) then
    some (buildRequest K .register target (registerRows config cseq))
  else
    none

def register (echo : EchoEndpoint) : EchoEndpoint × List (Effect K.Uri) :=
  let echo := { echo with cseq := echo.cseq + 1 }
  match registerRequest K echo.config echo.cseq with
  | none => (echo, [])
  | some request => (echo, [.send request, .setRefresh (refreshAfter echo.config)])

/-- The response with the marker's row, when there is one and it can be built. -/
def reflect (response : Response) : Option Marker → Response
  | none => response
  | some marker =>
      match Header.build K markerHeader (utf8 marker.headerValue) with
      | some header => { response with headers := Headers.push response.headers header }
      | none => response

/-- Build the response to a request, reflecting a marker when there is one. -/
def answer (request : Request K.Uri) (status : Nat) (reason : Text) (marker : Option Marker) :
    List (Effect K.Uri) :=
  if !isRespondable K request then
    [.refused .unanswerable]
  else
    match StatusCode.new status with
    | none => []
    | some code =>
        match K.toRequest request code reason with
        | none => [.refused .unanswerable]
        | some response => [.respond (reflect K response marker)]

/-- Only marked calls are answered, and the marker is copied verbatim. -/
def onInvite (echo : EchoEndpoint) (request : Request K.Uri) :
    EchoEndpoint × List (Effect K.Uri) :=
  match Marker.of request.headers with
  | none =>
      ({ echo with refused := echo.refused + 1 },
        .refused .notAProbeCall :: answer K request 403 (text "Forbidden") none)
  | some marker =>
      ({ echo with answered := echo.answered + 1 }, answer K request 200 (text "OK") (some marker))

def onRequest (echo : EchoEndpoint) (request : Request K.Uri) :
    EchoEndpoint × List (Effect K.Uri) :=
  match request.method with
  | .invite => onInvite K echo request
  | .bye | .options => (echo, answer K request 200 (text "OK") none)
  | .ack => (echo, [])
  | _ => (echo, answer K request 405 (text "Method Not Allowed") none)

/-- Feed one input; get the effects, in order. -/
def onInput : Machine EchoEndpoint (Input K.Uri) (Effect K.Uri) := fun echo input =>
  match input with
  | .start => register K echo
  | .refreshDue => register K echo
  | .request request => onRequest K echo request

/-! ## What a run shows -/

section Observed

variable {Uri : Type}

def Effect.response? : Effect Uri → Option Response
  | .respond response => some response
  | _ => none

def Effect.request? : Effect Uri → Option (Request Uri)
  | .send request => some request
  | _ => none

def Effect.refresh? : Effect Uri → Option Duration
  | .setRefresh delay => some delay
  | _ => none

/-- The responses among the effects. -/
def responsesIn (effects : List (Effect Uri)) : List Response :=
  effects.filterMap Effect.response?

/-- The requests among the effects. -/
def requestsIn (effects : List (Effect Uri)) : List (Request Uri) :=
  effects.filterMap Effect.request?

/-- The delays asked for among the effects. -/
def refreshesIn (effects : List (Effect Uri)) : List Duration :=
  effects.filterMap Effect.refresh?

/-- Whether this input brings a call that carries a marker. -/
def isProbeCall : Input Uri → Bool
  | .request request => request.method = .invite && (Marker.of request.headers).isSome
  | _ => false

/-- Whether this input brings a call that carries none. -/
def isOtherCall : Input Uri → Bool
  | .request request => request.method = .invite && (Marker.of request.headers).isNone
  | _ => false

/-- Whether this input makes the echo register. -/
def isRegistration : Input Uri → Bool
  | .request _ => false
  | _ => true

end Observed

/-- What the builder of responses puts under `Subject`: nothing, for it copies only what a response
echoes. -/
def LeavesSubject : Prop :=
  ∀ request status reason response, K.toRequest request status reason = some response →
    Headers.getAll response.headers markerHeader = []

/-- The numbers of so many REGISTERs. -/
def numbers (count : Nat) : List UInt32 :=
  (List.range' 1 count).map UInt32.ofNat

theorem numbers_succ (count : Nat) :
    numbers (count + 1) = numbers count ++ [UInt32.ofNat count + 1] := by
  have next : UInt32.ofNat (1 + count) = UInt32.ofNat count + 1 := by
    rw [Nat.add_comm, UInt32.ofNat_add]
    rfl
  rw [numbers, List.range'_1_concat, List.map_append, List.map_singleton, next, numbers]

/-- No number comes twice before all have come. -/
theorem nodup_numbers {count : Nat} (few : count < UInt32.size) : (numbers count).Nodup := by
  apply List.Nodup.map_on _ List.nodup_range'
  intro first isFirst second isSecond same
  have firstFits := (List.mem_range'_1.mp isFirst).2
  have secondFits := (List.mem_range'_1.mp isSecond).2
  have values := congrArg UInt32.toNat same
  rwa [UInt32.toNat_ofNat_of_lt' (by omega), UInt32.toNat_ofNat_of_lt' (by omega)] at values

/-- How an echo behaves over a run. -/
structure Reflects (config : EchoConfig) (inputs : List (Input K.Uri)) : Prop where
  /-- Nothing of an earlier call bears on what a request is answered. -/
  stateless : ∀ past request later, inputs = past ++ .request request :: later →
    (onInput K (after (onInput K) (.new config) past) (.request request)).2 =
      (onInput K (.new config) (.request request)).2
  /-- A request is answered at most once, an ACK not at all. -/
  single : ∀ past request later, inputs = past ++ .request request :: later →
    (responsesIn (onInput K (after (onInput K) (.new config) past) (.request request)).2).length ≤ 1 ∧
      (request.method = .ack → responsesIn
        (onInput K (after (onInput K) (.new config) past) (.request request)).2 = [])
  /-- A call is completed only when it carries a marker, and what carries a marker back carries the
  call's own. -/
  guarded : ∀ past request later, inputs = past ++ .request request :: later →
    ∀ response ∈ responsesIn
        (onInput K (after (onInput K) (.new config) past) (.request request)).2,
      (request.method = .invite → isSuccess response.status = true →
        (Marker.of request.headers).isSome = true) ∧
        ∀ marker, Marker.of response.headers = some marker →
          request.method = .invite ∧ Marker.of request.headers = some marker
  answered : (after (onInput K) (.new config) inputs).answered =
    UInt64.ofNat (inputs.countP isProbeCall)
  refused : (after (onInput K) (.new config) inputs).refused =
    UInt64.ofNat (inputs.countP isOtherCall)
  /-- The REGISTERs that can be built go out numbered from one, until the number wraps. -/
  registers : requestsIn (emitted (onInput K) (.new config) inputs) =
    (numbers (inputs.countP isRegistration)).filterMap (registerRequest K config)
  /-- They go out on branches of their own, while no number comes again. -/
  branches : inputs.countP isRegistration < UInt32.size →
    ((requestsIn (emitted (onInput K) (.new config) inputs)).map fun request =>
      Headers.value request.headers .via).Nodup
  /-- Each is to be refreshed within half of the lifetime it asks for. -/
  refreshed : refreshesIn (emitted (onInput K) (.new config) inputs) =
    List.replicate (requestsIn (emitted (onInput K) (.new config) inputs)).length
      (refreshAfter config)

variable {K}

/-! ## One input -/

theorem responsesIn_answer_length (request : Request K.Uri) (status : Nat) (reason : Text)
    (marker : Option Marker) : (responsesIn (answer K request status reason marker)).length ≤ 1 := by
  unfold answer
  split
  · exact Nat.zero_le _
  · split
    · exact Nat.zero_le _
    · split
      · exact Nat.zero_le _
      · exact Nat.le_refl _

/-- What an answer is: the response built, with the marker reflected. -/
theorem mem_responsesIn_answer {request : Request K.Uri} {status : Nat} {reason : Text}
    {marker : Option Marker} {response : Response}
    (member : response ∈ responsesIn (answer K request status reason marker)) :
    ∃ code built, StatusCode.new status = some code ∧ K.toRequest request code reason = some built ∧
      response = reflect K built marker := by
  unfold answer at member
  split at member
  · exact absurd member List.not_mem_nil
  · split at member
    · exact absurd member List.not_mem_nil
    · next code isCode =>
        split at member
        · exact absurd member List.not_mem_nil
        · next built isBuilt =>
            exact ⟨code, built, isCode, isBuilt, List.mem_singleton.mp member⟩

/-- An answer sends nothing and asks for no refresh. -/
theorem requestsIn_answer (request : Request K.Uri) (status : Nat) (reason : Text)
    (marker : Option Marker) : requestsIn (answer K request status reason marker) = [] ∧
      refreshesIn (answer K request status reason marker) = [] := by
  unfold answer
  split
  · exact ⟨rfl, rfl⟩
  · split
    · exact ⟨rfl, rfl⟩
    · split <;> exact ⟨rfl, rfl⟩

/-- A request changes the counters of calls and nothing else. -/
theorem onRequest_fst (echo : EchoEndpoint) (request : Request K.Uri) :
    (onRequest K echo request).1 = { echo with
      answered := echo.answered + UInt64.ofNat ([Input.request request].countP isProbeCall)
      refused := echo.refused + UInt64.ofNat ([Input.request request].countP isOtherCall) } := by
  cases method : request.method with
  | invite =>
      cases marked : Marker.of request.headers <;>
        simp [onRequest, onInvite, method, marked, isProbeCall, isOtherCall]
  | _ => simp [onRequest, method, isProbeCall, isOtherCall]

/-- What a request is answered does not depend on the echo. -/
theorem onRequest_snd (first second : EchoEndpoint) (request : Request K.Uri) :
    (onRequest K first request).2 = (onRequest K second request).2 := by
  cases method : request.method with
  | invite =>
      cases marked : Marker.of request.headers <;> simp only [onRequest, onInvite, method, marked]
  | _ => simp only [onRequest, method]

theorem requestsIn_onRequest (echo : EchoEndpoint) (request : Request K.Uri) :
    requestsIn (onRequest K echo request).2 = [] ∧
      refreshesIn (onRequest K echo request).2 = [] := by
  have none : ∀ status reason marker, requestsIn (answer K request status reason marker) = [] ∧
      refreshesIn (answer K request status reason marker) = [] := requestsIn_answer request
  cases method : request.method with
  | invite =>
      cases marked : Marker.of request.headers with
      | none =>
          simp only [onRequest, onInvite, method, marked]
          exact none 403 (text "Forbidden") .none
      | some marker =>
          simp only [onRequest, onInvite, method, marked]
          exact none 200 (text "OK") (some marker)
  | ack =>
      simp only [onRequest, method]
      exact ⟨rfl, rfl⟩
  | bye | options =>
      simp only [onRequest, method]
      exact none 200 (text "OK") .none
  | cancel | register | other _ =>
      simp only [onRequest, method]
      exact none 405 (text "Method Not Allowed") .none

/-- Trimmed text is trimmed. -/
theorem trim_trim (value : Text) : trim (trim value) = trim value := by
  have front : (trim value).dropWhile isWhitespace = trim value := by
    rw [List.dropWhile_eq_self_iff]
    intro nonempty
    have isPrefix : trim value <+: value.dropWhile isWhitespace := List.rdropWhile_prefix _ _
    have inside : 0 < (value.dropWhile isWhitespace).length :=
      Nat.lt_of_lt_of_le nonempty isPrefix.length_le
    rw [isPrefix.getElem nonempty]
    exact List.dropWhile_get_zero_not isWhitespace value inside
  calc
    trim (trim value) = ((trim value).dropWhile isWhitespace).rdropWhile isWhitespace := rfl
    _ = (trim value).rdropWhile isWhitespace := by rw [front]
    _ = trim value := List.rdropWhile_idempotent _ _

/-- A marker is read from its own row when nothing of its value is trimmed. -/
theorem of_ownRow {own : Marker} (kept : trim own.headerValue = own.headerValue)
    (nonempty : own.token ≠ []) :
    Marker.of [⟨markerHeader, utf8 own.headerValue⟩] = some own := by
  have dropped : own.headerValue.dropPrefix? markerPrefix = some own.token :=
    List.dropPrefix?_append_of_beq _ (BEq.refl _)
  simp [Marker.of, Headers.value, Headers.get, Headers.getAll, fromUtf8Lossy_utf8, kept, dropped,
    nonempty]

/-- A marker that was read from somewhere is read back from its own row. -/
theorem of_ownRow_of_read {headers : Headers} {own : Marker}
    (read : Marker.of headers = some own) :
    Marker.of [⟨markerHeader, utf8 own.headerValue⟩] = some own := by
  simp only [Marker.of, Option.bind_eq_bind, Option.bind_eq_some_iff] at read
  obtain ⟨value, -, token, dropped, kept⟩ := read
  obtain ⟨marked, same, isPrefix⟩ := List.dropPrefix?_eq_some_iff.mp dropped
  split at kept
  · contradiction
  · next nonempty =>
      obtain rfl := Option.some.inj kept
      have whole : trim (fromUtf8Lossy value) = (⟨token⟩ : Marker).headerValue := by
        rw [same, eq_of_beq isPrefix]
        rfl
      apply of_ownRow
      · rw [← whole, trim_trim]
      · simpa using nonempty

/-- The marker a reflected response carries is the one reflected. -/
theorem of_reflect (leaves : LeavesSubject K) {request : Request K.Uri} {status : StatusCode}
    {reason : Text} {built : Response} (isBuilt : K.toRequest request status reason = some built)
    {carried : Option Marker} {marker : Marker}
    (marked : Marker.of (reflect K built carried).headers = some marker) :
    ∃ own, carried = some own ∧ Marker.of [⟨markerHeader, utf8 own.headerValue⟩] = some marker := by
  have bare := leaves request status reason built isBuilt
  have unmarked : Marker.of built.headers = none := by
    simp [Marker.of, Headers.value, Headers.get, bare]
  unfold reflect at marked
  split at marked
  · rw [unmarked] at marked
    contradiction
  · next own =>
      split at marked
      · next header isHeader =>
          rw [Header.eq_of_build isHeader] at marked
          refine ⟨own, rfl, ?_⟩
          simpa [Marker.of, Headers.value, Headers.get, Headers.push, bare] using marked
      · rw [unmarked] at marked
        contradiction

/-- What a request is answered: a call with success only where it carries a marker, and no marker
but the call's own. -/
theorem guarded_onRequest (responds : K.Responds) (leaves : LeavesSubject K) (echo : EchoEndpoint)
    (request : Request K.Uri) {response : Response}
    (member : response ∈ responsesIn (onRequest K echo request).2) :
    (request.method = .invite → isSuccess response.status = true →
      (Marker.of request.headers).isSome = true) ∧
      ∀ marker, Marker.of response.headers = some marker →
        request.method = .invite ∧ Marker.of request.headers = some marker := by
  have plain : ∀ {status reason}, response ∈ responsesIn (answer K request status reason none) →
      ∀ marker, Marker.of response.headers ≠ some marker := by
    intro status reason answered marker marked
    obtain ⟨code, built, -, isBuilt, isReflected⟩ := mem_responsesIn_answer answered
    rw [isReflected] at marked
    obtain ⟨own, absent, -⟩ := of_reflect leaves isBuilt marked
    contradiction
  cases method : request.method with
  | invite =>
      cases carried : Marker.of request.headers with
      | none =>
          simp only [onRequest, onInvite, method, carried] at member
          have answered : response ∈ responsesIn (answer K request 403 (text "Forbidden") none) :=
            member
          refine ⟨fun _ success => ?_, fun marker marked => absurd marked (plain answered marker)⟩
          obtain ⟨code, built, isCode, isBuilt, isReflected⟩ := mem_responsesIn_answer answered
          have isStatus : response.status = code := by
            rw [isReflected]
            exact responds.status _ _ _ _ isBuilt
          rw [isStatus, ← Option.some.inj isCode] at success
          contradiction
      | some own =>
          simp only [onRequest, onInvite, method, carried] at member
          obtain ⟨code, built, -, isBuilt, isReflected⟩ := mem_responsesIn_answer member
          refine ⟨fun _ _ => rfl, fun marker marked => ⟨rfl, ?_⟩⟩
          rw [isReflected] at marked
          obtain ⟨carriedOwn, same, read⟩ := of_reflect leaves isBuilt marked
          rw [← Option.some.inj same, of_ownRow_of_read carried] at read
          exact read
  | ack =>
      simp only [onRequest, method] at member
      exact absurd member List.not_mem_nil
  | bye | options | cancel | register | other _ =>
      simp only [onRequest, method] at member
      exact ⟨fun isInvite => by contradiction, fun marker marked => absurd marked (plain member marker)⟩

theorem single_onRequest (echo : EchoEndpoint) (request : Request K.Uri) :
    (responsesIn (onRequest K echo request).2).length ≤ 1 ∧
      (request.method = .ack → responsesIn (onRequest K echo request).2 = []) := by
  have single : ∀ status reason marker,
      (responsesIn (answer K request status reason marker)).length ≤ 1 :=
    responsesIn_answer_length request
  cases method : request.method with
  | invite =>
      refine ⟨?_, fun isAck => by contradiction⟩
      cases carried : Marker.of request.headers with
      | none =>
          simp only [onRequest, onInvite, method, carried]
          exact single 403 (text "Forbidden") none
      | some own =>
          simp only [onRequest, onInvite, method, carried]
          exact single 200 (text "OK") (some own)
  | ack =>
      simp only [onRequest, method]
      exact ⟨Nat.zero_le _, fun _ => rfl⟩
  | bye | options =>
      simp only [onRequest, method]
      exact ⟨single 200 (text "OK") none, fun isAck => by contradiction⟩
  | cancel | register | other _ =>
      simp only [onRequest, method]
      exact ⟨single 405 (text "Method Not Allowed") none, fun isAck => by contradiction⟩

/-! ## Every run -/

/-- What a run has left, and what it has sent so far. -/
structure Kept (config : EchoConfig) (past : List (Input K.Uri)) (effects : List (Effect K.Uri))
    (echo : EchoEndpoint) : Prop where
  sameConfig : echo.config = config
  cseq : echo.cseq = UInt32.ofNat (past.countP isRegistration)
  answered : echo.answered = UInt64.ofNat (past.countP isProbeCall)
  refused : echo.refused = UInt64.ofNat (past.countP isOtherCall)
  registers : requestsIn effects =
    (numbers (past.countP isRegistration)).filterMap (registerRequest K config)
  refreshed : refreshesIn effects =
    List.replicate (requestsIn effects).length (refreshAfter config)

/-- Registering goes on to the next number. -/
theorem Kept.register {config : EchoConfig} {past : List (Input K.Uri)}
    {effects : List (Effect K.Uri)} {echo : EchoEndpoint} (kept : Kept config past effects echo)
    {input : Input K.Uri} (registers : isRegistration input = true)
    (noCall : isProbeCall input = false ∧ isOtherCall input = false) :
    Kept config (past ++ [input]) (effects ++ (register K echo).2) (register K echo).1 := by
  have next : (past ++ [input]).countP isRegistration = past.countP isRegistration + 1 := by
    simp [registers]
  have more : numbers (past.countP isRegistration + 1) =
      numbers (past.countP isRegistration) ++ [echo.cseq + 1] := by
    rw [numbers_succ, kept.cseq]
  have number : ∀ outcome : EchoEndpoint × List (Effect K.Uri),
      outcome.1 = { echo with cseq := echo.cseq + 1 } →
        requestsIn outcome.2 = (registerRequest K config (echo.cseq + 1)).toList →
          refreshesIn outcome.2 =
            List.replicate (requestsIn outcome.2).length (refreshAfter config) →
              Kept config (past ++ [input]) (effects ++ outcome.2) outcome.1 := by
    intro outcome isNext requests refreshes
    constructor
    · rw [isNext]
      exact kept.sameConfig
    · rw [isNext, next, UInt32.ofNat_add, ← kept.cseq]
      rfl
    · rw [isNext, kept.answered]
      simp [noCall.1]
    · rw [isNext, kept.refused]
      simp [noCall.2]
    · rw [next, more, List.filterMap_append, ← kept.registers, requestsIn, List.filterMap_append]
      rw [show outcome.2.filterMap Effect.request? = requestsIn outcome.2 from rfl, requests]
      cases built : registerRequest K config (echo.cseq + 1) <;> simp [requestsIn, built]
    · have split : requestsIn (effects ++ outcome.2) = requestsIn effects ++ requestsIn outcome.2 :=
        List.filterMap_append
      have splitRefreshes : refreshesIn (effects ++ outcome.2) =
          refreshesIn effects ++ refreshesIn outcome.2 := List.filterMap_append
      rw [split, splitRefreshes, kept.refreshed, refreshes, List.length_append,
        List.replicate_append_replicate]
  have sameConfig := kept.sameConfig
  cases built : registerRequest K config (echo.cseq + 1) with
  | none =>
      apply number <;> simp [Echo.register, sameConfig, built, requestsIn, refreshesIn]
  | some request =>
      apply number
      · simp [Echo.register, sameConfig, built]
      · simp [Echo.register, sameConfig, built, requestsIn, Effect.request?]
      · simp only [Echo.register, sameConfig, built]
        rfl

theorem kept_run (config : EchoConfig) (inputs : List (Input K.Uri)) :
    Kept config inputs (emitted (onInput K) (.new config) inputs)
      (after (onInput K) (.new config) inputs) := by
  apply run_always (onInput K) (Kept config)
  · exact ⟨rfl, rfl, rfl, rfl, rfl, rfl⟩
  · intro past effects echo input kept
    cases input with
    | start => exact kept.register rfl ⟨rfl, rfl⟩
    | refreshDue => exact kept.register rfl ⟨rfl, rfl⟩
    | request request =>
        obtain ⟨noRequest, noRefresh⟩ := requestsIn_onRequest echo request
        have sameRequests : requestsIn (effects ++ (onRequest K echo request).2) =
            requestsIn effects := by
          rw [requestsIn, List.filterMap_append,
            show (onRequest K echo request).2.filterMap Effect.request? = [] from noRequest,
            List.append_nil]
          rfl
        have sameRefreshes : refreshesIn (effects ++ (onRequest K echo request).2) =
            refreshesIn effects := by
          rw [refreshesIn, List.filterMap_append,
            show (onRequest K echo request).2.filterMap Effect.refresh? = [] from noRefresh,
            List.append_nil]
          rfl
        have sameCount : (past ++ [Input.request request]).countP isRegistration =
            past.countP isRegistration := by
          simp [isRegistration]
        change Kept config _ (effects ++ (onRequest K echo request).2) (onRequest K echo request).1
        constructor
        · rw [onRequest_fst]
          exact kept.sameConfig
        · rw [onRequest_fst, sameCount]
          exact kept.cseq
        · rw [onRequest_fst, List.countP_append, UInt64.ofNat_add, ← kept.answered]
        · rw [onRequest_fst, List.countP_append, UInt64.ofNat_add, ← kept.refused]
        · rw [sameRequests, sameCount]
          exact kept.registers
        · rw [sameRefreshes, sameRequests]
          exact kept.refreshed

/-- The `Via` a REGISTER goes out with is its number's. -/
theorem via_registerRequest {config : EchoConfig} {cseq : UInt32} {request : Request K.Uri}
    (built : registerRequest K config cseq = some request) :
    Headers.value request.headers .via = some (utf8 (via config cseq)) := by
  obtain ⟨target, -, accepted⟩ := Option.bind_eq_some_iff.mp built
  split at accepted
  · next rows =>
      rw [← Option.some.inj accepted, buildRequest, if_pos rows]
      simp [Headers.value, Headers.get, Headers.getAll, Headers.push, registerRows]
  · contradiction

/-- Two numbers give two branches. -/
theorem via_injective (config : EchoConfig) : Function.Injective fun cseq => utf8 (via config cseq) := by
  intro first second same
  have sameVia : via config first = via config second :=
    Function.LeftInverse.injective fromUtf8Lossy_utf8 same
  have sameText : decimal first.toNat = decimal second.toNat := List.append_cancel_left sameVia
  have reads := parseUnsigned_decimal (le_max_left first.toNat second.toNat)
  rw [sameText, parseUnsigned_decimal (le_max_right first.toNat second.toNat)] at reads
  exact UInt32.toNat_inj.mp (Option.some.inj reads).symm

/-- An echo reflects what it is called with, and keeps itself registered, over every run. -/
theorem reflects (responds : K.Responds) (leaves : LeavesSubject K) (config : EchoConfig)
    (inputs : List (Input K.Uri)) : Reflects K config inputs := by
  have kept := kept_run config inputs
  constructor
  · intro past request later _
    exact onRequest_snd _ _ request
  · intro past request later _
    exact single_onRequest _ request
  · intro past request later _ response member
    exact guarded_onRequest responds leaves _ request member
  · exact kept.answered
  · exact kept.refused
  · exact kept.registers
  · intro few
    rw [kept.registers, List.map_filterMap]
    apply List.Nodup.filterMap _ (nodup_numbers few)
    intro first second value isFirst isSecond
    obtain ⟨one, builtOne, viaOne⟩ := Option.map_eq_some_iff.mp isFirst
    obtain ⟨two, builtTwo, viaTwo⟩ := Option.map_eq_some_iff.mp isSecond
    rw [via_registerRequest builtOne] at viaOne
    rw [via_registerRequest builtTwo, ← viaOne] at viaTwo
    exact (via_injective config (Option.some.inj viaTwo)).symm
  · exact kept.refreshed

theorem leavesSubject_reference : LeavesSubject Reference.kernel := by
  intro request status reason response built
  change Reference.toRequest request status reason = some response at built
  unfold Reference.toRequest at built
  split at built
  · rw [← Option.some.inj built]
    apply List.filter_eq_nil_iff.mpr
    intro header echoed
    have isEchoed := (List.mem_filter.mp echoed).2
    simp only [Reference.isEchoed, decide_eq_true_eq, List.mem_cons, List.not_mem_nil,
      or_false] at isEchoed
    rcases isEchoed with same | same | same | same | same <;> simp [same, markerHeader]
  · contradiction

/-- A call with this `Subject`. -/
def callWith (subject : String) : Request Reference.ParsedUri where
  method := .invite
  uri := Reference.uri "sip:echo@test.example"
  headers := [Reference.row .via "SIP/2.0/UDP probe.test;branch=z9hG4bK-1",
    Reference.row .callId "call-1", Reference.row .cSeq "1 INVITE",
    Reference.row .fromHeader "<sip:probe@test.example>;tag=p",
    Reference.row .toHeader "<sip:echo@test.example>", Reference.row markerHeader subject]
  body := []

def testConfig : EchoConfig where
  aor := text "sip:echo@test.example"
  contact := text "sip:echo@10.8.8.8"
  registrar := text "sip:registrar.test.example"
  registerExpires := 3600
  sentBy := text "echo.invalid"

/-- The echo registers, answers a marked call, refuses another and refreshes. -/
def probedThenCalled : List (Input Reference.ParsedUri) :=
  [.start, .request (callWith "sipx-probe/abc"), .request (callWith "lunch"), .refreshDue]

example : ((responsesIn (emitted (onInput Reference.kernel) (.new testConfig)
    probedThenCalled)).map fun response => (response.status.code, Marker.of response.headers)) =
      [(200, some ⟨text "abc"⟩), (403, none)] := by
  decide +kernel

theorem reflects_probedThenCalled :
    (emitted (onInput Reference.kernel) (.new testConfig) probedThenCalled).length = 7 ∧
      Reflects Reference.kernel testConfig probedThenCalled :=
  ⟨by decide +kernel,
    reflects Reference.kernel_responds leavesSubject_reference testConfig probedThenCalled⟩

end SipxClstr.Probe.Echo
