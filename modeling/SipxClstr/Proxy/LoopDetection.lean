import SipxClstr.Proxy.BranchIds
import SipxClstr.Sip.Utf8

/-!
# Loops and spirals

A request that comes back in the routing state in which it was forwarded loops; one
that comes back in another state spirals and goes on.  The cookie in the `Via` a
forwarding pushed tells the two apart for as long as that `Via` stands.
-/

namespace SipxClstr.Proxy

open SipxClstr.Sip Wire Reactive Reactive.Machine

/-! ## The routing state -/

/-- What decides how a request is routed. -/
structure RoutingState where
  requestUri : Bytes
  toTag : Bytes
  fromTag : Bytes
  callId : Bytes
  cseq : Nat
  routes : List Bytes
  deriving DecidableEq

/-- The routing state of these fields; an absent tag counts as an empty one. -/
def CookieInput.routingState (input : CookieInput) : RoutingState where
  requestUri := input.requestUri
  toTag := input.toTag.getD []
  fromTag := input.fromTag.getD []
  callId := input.callId
  cseq := input.cseq
  routes := input.routes

namespace RoutingState

/-- Every field is shorter than 2^32 bytes, and the number is a `u32`. -/
structure Fits (state : RoutingState) : Prop where
  requestUri : state.requestUri.length ≤ u32Max
  toTag : state.toTag.length ≤ u32Max
  fromTag : state.fromTag.length ≤ u32Max
  callId : state.callId.length ≤ u32Max
  cseq : state.cseq ≤ u32Max
  count : state.routes.length ≤ u32Max
  routes : ∀ route ∈ state.routes, route.length ≤ u32Max

instance (state : RoutingState) : Decidable state.Fits :=
  decidable_of_iff
    (state.requestUri.length ≤ u32Max ∧ state.toTag.length ≤ u32Max ∧
      state.fromTag.length ≤ u32Max ∧ state.callId.length ≤ u32Max ∧ state.cseq ≤ u32Max ∧
        state.routes.length ≤ u32Max ∧ ∀ route ∈ state.routes, route.length ≤ u32Max)
    ⟨fun ⟨uri, toTag, fromTag, callId, cseq, count, routes⟩ =>
        ⟨uri, toTag, fromTag, callId, cseq, count, routes⟩,
      fun fits => ⟨fits.requestUri, fits.toTag, fits.fromTag, fits.callId, fits.cseq, fits.count,
        fits.routes⟩⟩

end RoutingState

theorem be32_delimits : SelfDelimiting (fun value => value ≤ u32Max) be32 :=
  SelfDelimiting.of_length (fun value _ => be32_length value) fun _ _ => be32_inj

theorem encodeField_delimits :
    SelfDelimiting (fun field : Bytes => field.length ≤ u32Max) encodeField :=
  be32_delimits.behind_length

/-- Two routing states share an encoding only if they are one. -/
theorem encodeRoutingState_eq_iff {first second : CookieInput} (firstFits : first.routingState.Fits)
    (secondFits : second.routingState.Fits) :
    first.encodeRoutingState = second.encodeRoutingState ↔
      first.routingState = second.routingState := by
  have short : ∀ value, (be32 value).length ≤ u32Max := by
    intro value
    rw [be32_length]
    decide
  constructor
  · intro same
    simp only [CookieInput.encodeRoutingState, List.append_assoc] at same
    obtain ⟨requestUri, same⟩ :=
      encodeField_delimits _ _ firstFits.requestUri secondFits.requestUri _ _ same
    obtain ⟨toTag, same⟩ := encodeField_delimits _ _ firstFits.toTag secondFits.toTag _ _ same
    obtain ⟨fromTag, same⟩ := encodeField_delimits _ _ firstFits.fromTag secondFits.fromTag _ _ same
    obtain ⟨callId, same⟩ := encodeField_delimits _ _ firstFits.callId secondFits.callId _ _ same
    obtain ⟨cseq, same⟩ := encodeField_delimits _ _ (short _) (short _) _ _ same
    obtain ⟨count, same⟩ := encodeField_delimits _ _ (short _) (short _) _ _ same
    have cseq := be32_inj firstFits.cseq secondFits.cseq cseq
    have count := be32_inj firstFits.count secondFits.count count
    have routes : first.routes = second.routes :=
      (encodeField_delimits.flatMap second.routes.length).injective
        ⟨count, firstFits.routes⟩ ⟨rfl, secondFits.routes⟩ same
    simp only [CookieInput.routingState, RoutingState.mk.injEq]
    exact ⟨requestUri, toTag, fromTag, callId, cseq, routes⟩
  · intro same
    simp only [CookieInput.routingState, RoutingState.mk.injEq] at same
    obtain ⟨requestUri, toTag, fromTag, callId, cseq, routes⟩ := same
    simp only [CookieInput.encodeRoutingState, requestUri, toTag, fromTag, callId, cseq, routes]

/-! ## The cookie of a branch -/

variable (K : Kernel)

/-- A MAC is as long as HMAC-SHA256 makes it. -/
def MacLength : Prop :=
  ∀ key message, (K.hmacSha256 key message).length = 32

variable {K}

theorem hex_tag_ne_nil (macLength : MacLength K) (key message : Bytes) :
    hex (tag K key message) ≠ [] := by
  have width : (tag K key message).length = 8 := by
    rw [tag, mac, List.length_take, macLength]
    rfl
  obtain ⟨byte, rest, isTag⟩ := List.exists_cons_of_length_eq_add_one width
  rw [isTag, hex_cons]
  exact List.cons_ne_nil _ _

/-- The text behind the last hyphen. -/
theorem rtakeWhile_dash {before after : Text} (noDash : '-' ∉ after) :
    (before ++ '-' :: after).rtakeWhile (· ≠ '-') = after := by
  have all : ∀ c ∈ after.reverse, decide (c ≠ '-') = true := by
    intro c member
    rw [decide_eq_true_eq]
    rintro rfl
    exact noDash (List.mem_reverse.mp member)
  rw [List.rtakeWhile, List.reverse_append, List.reverse_cons, List.append_assoc,
    List.takeWhile_append_of_pos all]
  simp

/-- The cookie is read back from every branch, whatever its number. -/
theorem cookieOf_branchFor (macLength : MacLength K) (config : ProxyConfig) (input : CookieInput)
    (index : Nat) :
    cookieOf (branchFor K config input index) = some (input.cookie K config.cookieKey) := by
  have isCookie : input.cookie K config.cookieKey =
      hex (tag K config.cookieKey input.encodeRoutingState) := rfl
  have nonempty := hex_tag_ne_nil macLength config.cookieKey input.encodeRoutingState
  have magic : (branchFor K config input index).dropPrefix? magicCookie =
      some (['-'] ++ (hex (tag K config.cookieKey (uniqueMessage input index)) ++
        '-' :: hex (tag K config.cookieKey input.encodeRoutingState))) := by
    rw [branchFor_eq]
    exact List.dropPrefix?_append_of_beq _ (BEq.refl _)
  have dash : (['-'] ++ (hex (tag K config.cookieKey (uniqueMessage input index)) ++
      '-' :: hex (tag K config.cookieKey input.encodeRoutingState))).dropPrefix? ['-'] =
        some (hex (tag K config.cookieKey (uniqueMessage input index)) ++
          '-' :: hex (tag K config.cookieKey input.encodeRoutingState)) :=
    List.dropPrefix?_append_of_beq _ (BEq.refl _)
  have member : '-' ∈ hex (tag K config.cookieKey (uniqueMessage input index)) ++
      '-' :: hex (tag K config.cookieKey input.encodeRoutingState) :=
    List.mem_append_right _ List.mem_cons_self
  simp only [cookieOf, magic, dash, bind, Option.bind, member, if_true,
    rtakeWhile_dash (dash_notMem_hex _), isCookie]

/-! ## Forwardings -/

variable (K)

/-- One copy of a request that arrived and validated at an edge of the platform. -/
structure Forwarding where
  config : ProxyConfig
  arrived : Request K.Uri
  plan : ForwardPlan K.Uri
  accepted : validate K arrived config = .ok plan.validated
  builds : (buildCopy K config plan).isSome = true

/-- The `Via` values of a request that parse. -/
def viasOf (request : Request K.Uri) : List Via :=
  (Headers.getAll request.headers .via).filterMap fun header => K.parseVia header.value

/-- The cookie a `Via` carries. -/
def carriedCookie (via : Via) : Option Text :=
  via.branch.bind fun branch => cookieOf (fromUtf8Lossy branch)

/-- The routing state of a request. -/
def routingState (request : Request K.Uri) : RoutingState :=
  (CookieInput.fromRequest K request).routingState

namespace Forwarding

variable {K}

/-- The copy that goes out. -/
def copy (forwarding : Forwarding K) : Copy K.Uri :=
  (buildCopy K forwarding.config forwarding.plan).get forwarding.builds

/-- The `Via` pushed, as it reads on arrival. -/
def via (forwarding : Forwarding K) : Option Via :=
  forwarding.copy.request.headers.head?.bind fun header => K.parseVia header.value

/-- The request still carries the `Via` pushed, wherever in its stack. -/
def StandsIn (request : Request K.Uri) (forwarding : Forwarding K) : Prop :=
  ∃ via ∈ viasOf K request, forwarding.via = some via

instance (request : Request K.Uri) (forwarding : Forwarding K) :
    Decidable (forwarding.StandsIn request) :=
  inferInstanceAs (Decidable (∃ via ∈ viasOf K request, _))

end Forwarding

/-- What the platform's forwardings so far and a request that arrives at this edge are
assumed to meet: the edges share a key, the `Via` they push reads back with its branch
and a sent-by of ours, nobody else has made the cookie of this request, and the tags of
the states at hand tell them apart. -/
structure Distinguishable (config : ProxyConfig) (forwardings : List (Forwarding K))
    (request : Request K.Uri) : Prop where
  oneKey : ∀ forwarding ∈ forwardings, forwarding.config.cookieKey = config.cookieKey
  recognized : ∀ forwarding ∈ forwardings, ∃ via, forwarding.via = some via ∧
    via.branch = some (utf8 forwarding.copy.branch.branch) ∧ isOurVia via config = true
  unforged : ∀ via ∈ viasOf K request, isOurVia via config = true →
    carriedCookie via = some ((CookieInput.fromRequest K request).cookie K config.cookieKey) →
      ∃ forwarding ∈ forwardings, forwarding.via = some via
  collisionFree : CollisionFree K config.cookieKey
    ((request :: forwardings.map Forwarding.arrived).map fun arrived =>
      (CookieInput.fromRequest K arrived).encodeRoutingState)
  fits : ∀ arrived ∈ request :: forwardings.map Forwarding.arrived, (routingState K arrived).Fits

/-- The checks that run before loops are looked for. -/
def passesEarlierChecks (request : Request K.Uri) (config : ProxyConfig) : Bool :=
  isRespondable K request && config.understandsScheme K request.uri &&
    headerNumber K u8Max request .maxForwards ≠ some 0

variable {K}

theorem isLoop_iff (request : Request K.Uri) (config : ProxyConfig) (expected : Text) :
    isLoop K request config expected = true ↔
      ∃ via ∈ viasOf K request, isOurVia via config = true ∧ carriedCookie via = some expected := by
  simp only [isLoop, List.any_eq_true, List.mem_filter, decide_eq_true_eq, and_assoc]
  rfl

/-- Validation finds a loop exactly if the earlier checks pass and a `Via` of ours
carries the cookie of the request. -/
theorem validate_eq_loopDetected_iff (request : Request K.Uri) (config : ProxyConfig) :
    validate K request config = .error .loopDetected ↔
      passesEarlierChecks K request config = true ∧
        ∃ via ∈ viasOf K request, isOurVia via config = true ∧
          carriedCookie via =
            some ((CookieInput.fromRequest K request).cookie K config.cookieKey) := by
  rw [← isLoop_iff]
  unfold validate passesEarlierChecks
  simp only [bind, Except.bind, pure, Except.pure, throw, throwThe, MonadExceptOf.throw,
    Bool.and_eq_true, decide_eq_true_eq]
  cases isLoop K request config _ <;> grind

theorem cookieInput_of_validate {request : Request K.Uri} {config : ProxyConfig}
    {validated : Validated} (accepted : validate K request config = .ok validated) :
    validated.cookieInput = CookieInput.fromRequest K request := by
  unfold validate at accepted
  simp only [bind, Except.bind, pure, Except.pure, throw, throwThe, MonadExceptOf.throw] at accepted
  grind

theorem passesEarlierChecks_of_validate {request : Request K.Uri} {config : ProxyConfig}
    {validated : Validated} (accepted : validate K request config = .ok validated) :
    passesEarlierChecks K request config = true := by
  unfold validate at accepted
  simp only [bind, Except.bind, pure, Except.pure, throw, throwThe, MonadExceptOf.throw] at accepted
  simp only [passesEarlierChecks, Bool.and_eq_true, decide_eq_true_eq]
  grind

/-! ## What a run forwards -/

section Runs

variable (K)

/-- The input is a request that this configuration accepts, with this to keep of it. -/
def Accepts (config : ProxyConfig) (input : Input K.Uri) (validated : Validated) : Prop :=
  ∃ arrived, input = .upstream arrived ∧ validate K arrived config = .ok validated

variable {K}

theorem Determines.validated_cases {context determined : ResponseContext K.Uri}
    {input : Input K.Uri} {request : Request K.Uri}
    (determines : Determines K context input determined request) :
    determined.validated = context.validated ∨
      ∃ validated, determined.validated = some validated ∧
        Accepts K context.config input validated := by
  cases determines with
  | arrival arrived validated accepted _ => exact .inr ⟨validated, rfl, arrived, rfl, accepted⟩
  | verdict _ _ _ _ => exact .inl rfl

theorem TakesTargets.validated_cases {context targeted : ResponseContext K.Uri}
    {input : Input K.Uri} {request : Request K.Uri}
    (takes : TakesTargets K context input targeted request) :
    targeted.validated = context.validated ∨
      ∃ validated, targeted.validated = some validated ∧
        Accepts K context.config input validated := by
  cases takes with
  | predetermined determines _ => exact determines.validated_cases
  | resolved _ _ _ _ => exact .inl rfl

/-- What is kept of the request held changes only when one is accepted. -/
theorem Step.validated_cases {context : ResponseContext K.Uri} {input : Input K.Uri}
    {outcome : Outcome K.Uri} (step : Step K context input outcome) :
    outcome.1.validated = context.validated ∨
      ∃ validated, outcome.1.validated = some validated ∧
        Accepts K context.config input validated := by
  cases step with
  | absorbed _ => exact .inl rfl
  | premature _ _ => exact .inl rfl
  | minted _ => exact .inl rfl
  | refused arrived refusal _ => exact .inl (by rw [refuse_fst])
  | held arrived validated _ accepted _ => exact .inr ⟨validated, rfl, arrived, rfl, accepted⟩
  | asked determines _ => exact determines.validated_cases
  | taken takes tail =>
      rw [tail.request_eq.2.2.1]
      exact takes.validated_cases
  | concluded _ concludes =>
      rw [respondAndFinish_fst]
      cases concludes <;> exact .inl rfl
  | provisional response branch request _ _ _ _ =>
      exact .inl (sameButBranches_forwardProvisional context request response branch).validated
  | accepted _ _ _ _ _ _ _ => exact .inl rfl
  | rejected response branch _ _ _ _ =>
      rw [finishIfSettled_rejected]
      split <;> exact .inl rfl
  | recorded _ records tail =>
      obtain ⟨status, final, recordedEq⟩ := records.frame
      rw [tail.request_eq.2.2.1, recordedEq]
      exact .inl rfl
  | stopped _ _ => exact .inl rfl
  | withdrawn => exact .inl (sameButBranches_onUpstreamCancelled context).validated

/-- Whatever is kept was kept of a request that arrived. -/
theorem exists_accepts_after (config : ProxyConfig) (inputs : List (Input K.Uri)) :
    ∀ validated, (after (onInput K) (.new config) inputs).validated = some validated →
      ∃ input ∈ inputs, Accepts K config input validated := by
  induction inputs using List.reverseRecOn with
  | nil => simp [ResponseContext.new]
  | append_singleton past input ih =>
      intro validated kept
      rw [after_append] at kept
      change (onInput K _ input).1.validated = some validated at kept
      have earlier : (after (onInput K) (.new config) past).validated = some validated →
          ∃ other ∈ past ++ [input], Accepts K config other validated := by
        intro held
        obtain ⟨other, member, accepts⟩ := ih validated held
        exact ⟨other, List.mem_append_left _ member, accepts⟩
      cases finished : (after (onInput K) (.new config) past).finished with
      | true =>
          rw [onInput_finished finished] at kept
          exact earlier kept
      | false =>
          rcases (onInput_step (coherent_after config past) finished input).validated_cases with
            same | ⟨accepted, isAccepted, accepts⟩
          · exact earlier (same.symm.trans kept)
          · obtain rfl := Option.some.inj (isAccepted.symm.trans kept)
            rw [config_after] at accepts
            exact ⟨input, List.mem_append_right _ (List.mem_singleton_self _), accepts⟩

end Runs

/-! ## What a platform `Via` says -/

theorem Forwarding.branch_copy (forwarding : Forwarding K) :
    forwarding.copy.branch = ⟨branchFor K forwarding.config
      (CookieInput.fromRequest K forwarding.arrived) forwarding.plan.index⟩ := by
  rw [← cookieInput_of_validate forwarding.accepted]
  exact branch_of_buildCopy (Option.some_get forwarding.builds).symm

namespace Distinguishable

variable {config : ProxyConfig} {forwardings : List (Forwarding K)} {request : Request K.Uri}
  {forwarding : Forwarding K} {via : Via}

/-- A `Via` that was pushed carries the cookie of the request it was pushed for. -/
theorem carriedCookie_eq (distinguishable : Distinguishable K config forwardings request)
    (macLength : MacLength K) (member : forwarding ∈ forwardings)
    (pushed : forwarding.via = some via) :
    carriedCookie via =
      some ((CookieInput.fromRequest K forwarding.arrived).cookie K config.cookieKey) := by
  obtain ⟨recognized, isVia, branch, -⟩ := distinguishable.recognized forwarding member
  obtain rfl := Option.some.inj (isVia.symm.trans pushed)
  rw [carriedCookie, branch, Option.bind_some, fromUtf8Lossy_utf8, forwarding.branch_copy,
    cookieOf_branchFor macLength, distinguishable.oneKey forwarding member]

/-- Requests share a cookie only if they share their routing state. -/
theorem cookie_eq_iff (distinguishable : Distinguishable K config forwardings request)
    (member : forwarding ∈ forwardings) :
    (CookieInput.fromRequest K forwarding.arrived).cookie K config.cookieKey =
        (CookieInput.fromRequest K request).cookie K config.cookieKey ↔
      routingState K forwarding.arrived = routingState K request := by
  have arrived : forwarding.arrived ∈ request :: forwardings.map Forwarding.arrived :=
    List.mem_cons_of_mem _ (List.mem_map_of_mem member)
  have now : request ∈ request :: forwardings.map Forwarding.arrived := List.mem_cons_self
  have states := encodeRoutingState_eq_iff (distinguishable.fits _ arrived)
    (distinguishable.fits _ now)
  constructor
  · intro sameCookie
    apply states.mp
    exact distinguishable.collisionFree _ (List.mem_map_of_mem arrived) _ (List.mem_map_of_mem now)
      (hex_injective sameCookie)
  · intro sameState
    rw [CookieInput.cookie, CookieInput.cookie, states.mpr sameState]

/-- A `Via` of ours carries the cookie of the request exactly if one that was pushed in
its routing state still stands in it. -/
theorem carries_iff (distinguishable : Distinguishable K config forwardings request)
    (macLength : MacLength K) :
    (∃ via ∈ viasOf K request, isOurVia via config = true ∧ carriedCookie via =
        some ((CookieInput.fromRequest K request).cookie K config.cookieKey)) ↔
      ∃ forwarding ∈ forwardings, forwarding.StandsIn request ∧
        routingState K forwarding.arrived = routingState K request := by
  constructor
  · rintro ⟨via, standing, isOurs, carried⟩
    obtain ⟨forwarding, member, pushed⟩ := distinguishable.unforged via standing isOurs carried
    refine ⟨forwarding, member, ⟨via, standing, pushed⟩, ?_⟩
    rw [distinguishable.carriedCookie_eq macLength member pushed] at carried
    exact (distinguishable.cookie_eq_iff member).mp (Option.some.inj carried)
  · rintro ⟨forwarding, member, ⟨via, standing, pushed⟩, sameState⟩
    obtain ⟨recognized, isVia, -, isOurs⟩ := distinguishable.recognized forwarding member
    obtain rfl := Option.some.inj (isVia.symm.trans pushed)
    refine ⟨recognized, standing, isOurs, ?_⟩
    rw [distinguishable.carriedCookie_eq macLength member pushed,
      (distinguishable.cookie_eq_iff member).mpr sameState]

end Distinguishable

/-- Loop detection is exact among the requests that pass the checks before it, and no
request is forwarded again in a routing state in which a `Via` it still carries was
pushed. -/
theorem validate_detects_loops (macLength : MacLength K) :
    (∀ first second : CookieInput, first.routingState.Fits → second.routingState.Fits →
      (first.encodeRoutingState = second.encodeRoutingState ↔
        first.routingState = second.routingState)) ∧
    (∀ (config : ProxyConfig) (input : CookieInput) (index : Nat),
      cookieOf (branchFor K config input index) = some (input.cookie K config.cookieKey)) ∧
    ∀ (config : ProxyConfig) (forwardings : List (Forwarding K)) (request : Request K.Uri),
      Distinguishable K config forwardings request →
        (validate K request config = .error .loopDetected ↔
          passesEarlierChecks K request config = true ∧
            ∃ forwarding ∈ forwardings, forwarding.StandsIn request ∧
              routingState K forwarding.arrived = routingState K request) ∧
        ((∃ forwarding ∈ forwardings, forwarding.StandsIn request ∧
            routingState K forwarding.arrived = routingState K request) →
          ∀ validated, validate K request config ≠ .ok validated) := by
  refine ⟨fun _ _ => encodeRoutingState_eq_iff, cookieOf_branchFor macLength, ?_⟩
  intro config forwardings request distinguishable
  have exact : validate K request config = .error .loopDetected ↔
      passesEarlierChecks K request config = true ∧
        ∃ forwarding ∈ forwardings, forwarding.StandsIn request ∧
          routingState K forwarding.arrived = routingState K request := by
    rw [validate_eq_loopDetected_iff, distinguishable.carries_iff macLength]
  refine ⟨exact, ?_⟩
  intro revisits validated accepted
  have detected := exact.mpr ⟨passesEarlierChecks_of_validate accepted, revisits⟩
  rw [accepted] at detected
  contradiction

/-- The reference kernel's MAC has the length relied on. -/
theorem macLength_reference : MacLength Reference.kernel := by
  have width : ∀ count value, (Reference.bytes32 count value).length = count := by
    intro count
    induction count with
    | zero => exact fun _ => rfl
    | succ count ih => simp [Reference.bytes32, ih]
  exact fun _ _ => width 32 _

/-- Sends a request on to where it is addressed. -/
def onward (request : Request Reference.kernel.Uri) (maxForwards : Nat) :
    ForwardPlan Reference.kernel.Uri where
  original := request
  validated := ⟨maxForwards, 60, .fromRequest Reference.kernel request⟩
  target := phone "sip:bob@b.example" 1000
  index := 0
  parallelBranches := 1
  recordRoute := true
  tokens := none

/-- `invite`, sent on to where it is addressed. -/
def firstHop : Forwarding Reference.kernel :=
  ⟨edge, invite, onward invite 70, by decide +kernel, by decide +kernel⟩

theorem distinguishable_firstHop :
    Distinguishable Reference.kernel edge [firstHop] firstHop.copy.request where
  oneKey := by decide +kernel
  recognized := by
    intro forwarding member
    obtain rfl := List.mem_singleton.mp member
    exact ⟨⟨bytes "edge-1.example", none, some (utf8 firstHop.copy.branch.branch)⟩,
      by decide +kernel⟩
  unforged := by decide +kernel
  collisionFree := by decide +kernel
  fits := by decide +kernel

/-- The copy that comes back as it went out is refused. -/
theorem validate_detects_loops_firstHop :
    validate Reference.kernel firstHop.copy.request edge = .error .loopDetected := by
  apply (((validate_detects_loops macLength_reference).2.2 edge _ _ distinguishable_firstHop).1).mpr
  exact ⟨by decide +kernel, firstHop, List.mem_singleton_self _, by decide +kernel⟩

/-- The same request with one hop left. -/
def inviteAtLastHop : Request Reference.kernel.Uri :=
  { invite with headers := Reference.row .maxForwards "1" :: invite.headers }

/-- It, sent on to where it is addressed. -/
def lastHop : Forwarding Reference.kernel :=
  ⟨edge, inviteAtLastHop, onward inviteAtLastHop 1, by decide +kernel, by decide +kernel⟩

theorem distinguishable_lastHop :
    Distinguishable Reference.kernel edge [lastHop] lastHop.copy.request where
  oneKey := by decide +kernel
  recognized := by
    intro forwarding member
    obtain rfl := List.mem_singleton.mp member
    exact ⟨⟨bytes "edge-1.example", none, some (utf8 lastHop.copy.branch.branch)⟩,
      by decide +kernel⟩
  unforged := by decide +kernel
  collisionFree := by decide +kernel
  fits := by decide +kernel

/-- A copy that comes back with no hop left is refused for that, before loops are looked
for. -/
theorem not_loopDetected_lastHop :
    ¬ ∀ (forwardings : List (Forwarding Reference.kernel)) (request : Request Reference.kernel.Uri),
      Distinguishable Reference.kernel edge forwardings request →
        (validate Reference.kernel request edge = .error .loopDetected ↔
          ∃ forwarding ∈ forwardings, forwarding.StandsIn request ∧
            routingState Reference.kernel forwarding.arrived =
              routingState Reference.kernel request) := by
  intro exact
  have detected := (exact [lastHop] lastHop.copy.request distinguishable_lastHop).mpr
    ⟨lastHop, List.mem_singleton_self _, by decide +kernel⟩
  have refused : validate Reference.kernel lastHop.copy.request edge = .error .tooManyHops := by
    decide +kernel
  rw [refused] at detected
  contradiction

end SipxClstr.Proxy
