import SipxClstr.Proxy.Reachable

/-!
# The `ACK` for a 2xx

An `ACK` for a 2xx is a request of its own that nothing answers, so it is routed by a function and
not by a response context.  The two share validation, preprocessing and the edits of a copy.  For a
request within a dialog they take the same decision.
-/

namespace SipxClstr.Proxy

open SipxClstr.Sip ResponseContext

/-- Why an `ACK` was not forwarded: a drop with a reason. -/
inductive AckRefusal where
  | refused (refusal : Refusal)
  | notForwardable (error : ForwardError)
  | unverifiableToken
  deriving DecidableEq, Repr

/-- What to do with an `ACK` for a 2xx. -/
inductive AckRoute (Uri : Type) where
  /-- Forward this, with no transaction of its own and no response. -/
  | forward (request : Request Uri) (nextHop : Bytes)
  /-- A popped platform `Route` carried a token, which is verified first. -/
  | verify (token : Bytes) (partner : Option Bytes)
  | unroutable (refusal : AckRefusal)

variable (K : Kernel)

/-- What the one copy of an `ACK` is built from. -/
def ackPlan (request : Request K.Uri) (validated : Validated) : ForwardPlan K.Uri where
  original := request
  validated := validated
  target := predeterminedTarget K request
  index := 0
  parallelBranches := 1
  recordRoute := false
  tokens := none

/-- The route of a copy that was built, or the reason none was. -/
def ofForward : Except ForwardError (BranchId × Request K.Uri × Bytes) → AckRoute K.Uri
  | .ok (_, forwarded, nextHop) => .forward forwarded nextHop
  | .error error => .unroutable (.notForwardable error)

/-- Route an `ACK` for a 2xx.  `verdict` answers a previous call's `verify`. -/
def routeAck (request : Request K.Uri) (config : ProxyConfig) (verdict : Option TokenVerdict) :
    AckRoute K.Uri :=
  match validate K request config with
  | .error refusal => .unroutable (.refused refusal)
  | .ok validated =>
      let (preprocessed, carriage) := preprocess K request config
      match carriage, verdict with
      | some _, some .invalid => .unroutable .unverifiableToken
      | some { token, partner }, none => .verify token partner
      | _, _ => ofForward K (forward K (ackPlan K preprocessed validated) config)

/-! ## Decisions -/

namespace Effect

variable {Uri : Type}

/-- The copy this effect forwards and the hop it goes to, if it forwards one. -/
@[simp]
def forwarded? : Effect Uri → Option (Request Uri × Bytes)
  | .forward _ request _ nextHop => some (request, nextHop)
  | _ => none

/-- The token and the partner this effect asks the verdict on, if it asks. -/
@[simp]
def verified? : Effect Uri → Option (Bytes × Option Bytes)
  | .verifyToken token partner => some (token, partner)
  | _ => none

end Effect

/-- The copies forwarded and their hops, in order. -/
def forwards {Uri : Type} (effects : List (Effect Uri)) : List (Request Uri × Bytes) :=
  effects.filterMap Effect.forwarded?

/-- The verdicts asked for, in order. -/
def verifications {Uri : Type} (effects : List (Effect Uri)) : List (Bytes × Option Bytes) :=
  effects.filterMap Effect.verified?

namespace AckRoute

variable {Uri : Type}

/-- The copy forwarded and its hop. -/
def forwards : AckRoute Uri → List (Request Uri × Bytes)
  | .forward request nextHop => [(request, nextHop)]
  | _ => []

/-- The verdict asked for. -/
def verifications : AckRoute Uri → List (Bytes × Option Bytes)
  | .verify token partner => [(token, partner)]
  | _ => []

end AckRoute

/-- A fresh context and the `ACK` path decide alike: they refuse for one reason or neither
refuses, they ask the verdict on the same token and partner, and they forward the same copy to
the same hop. -/
structure Agrees (config : ProxyConfig) (request : Request K.Uri) (outcome : Outcome K.Uri)
    (route : AckRoute K.Uri) : Prop where
  refuses : (∃ refusal, outcome = refuse K (.new config) request refusal ∧
      route = .unroutable (.refused refusal)) ∨
    (outcome.1.request.isSome = true ∧ ∀ refusal, route ≠ .unroutable (.refused refusal))
  asks : verifications outcome.2 = route.verifications
  copies : forwards outcome.2 = route.forwards

variable {K}

/-! ## The one copy -/

/-- A context that forks one target builds the copy an `ACK` is built as. -/
theorem forkPlan_predetermined {context : ResponseContext K.Uri} {request : Request K.Uri}
    (validated : Validated) (noBranches : context.branches = []) (noTokens : context.tokens = none)
    (inDialog : isInDialog K request = true) :
    forkPlan K context request validated 1 0 (predeterminedTarget K request) =
      ackPlan K request validated := by
  simp [forkPlan, ackPlan, noBranches, noTokens, isDialogForming, inDialog, u32Max]

theorem forwards_respondAndFinish (context : ResponseContext K.Uri) (request : Request K.Uri)
    (status : Nat) (reason : Text) :
    forwards (respondAndFinish K context request status reason).2 = [] ∧
      verifications (respondAndFinish K context request status reason).2 = [] := by
  have quiet : ∀ effect ∈ (respondAndFinish K context request status reason).2,
      effect.forwarded? = none ∧ effect.verified? = none := by
    intro effect member
    unfold respondAndFinish at member
    split at member
    · simp only [List.cons_append, List.mem_cons, List.mem_append, List.mem_map,
        List.not_mem_nil, or_false] at member
      rcases member with rfl | ⟨id, -, rfl⟩ | rfl <;> exact ⟨rfl, rfl⟩
    · rw [List.mem_singleton.mp member]
      exact ⟨rfl, rfl⟩
  exact ⟨List.filterMap_eq_nil_iff.mpr fun effect member => (quiet effect member).1,
    List.filterMap_eq_nil_iff.mpr fun effect member => (quiet effect member).2⟩

theorem forwards_refuse (context : ResponseContext K.Uri) (request : Request K.Uri)
    (refusal : Refusal) :
    forwards (refuse K context request refusal).2 = [] ∧
      verifications (refuse K context request refusal).2 = [] := by
  unfold refuse
  split <;> exact ⟨rfl, rfl⟩

theorem isInDialog_preprocess (request : Request K.Uri) (config : ProxyConfig) :
    isInDialog K (preprocess K request config).1 = isInDialog K request := by
  have same : Headers.get (preprocess K request config).1.headers .toHeader =
      Headers.get request.headers .toHeader :=
    Headers.get_congr (getAll_preprocess (by decide) request config)
  unfold isInDialog Headers.value
  rw [same]

/-- One target is forwarded as the copy its plan builds, or not at all. -/
theorem launch_one (config : ProxyConfig) (plan : Nat → Target → ForwardPlan K.Uri)
    (target : Target) :
    forwards (launch K config plan 0 [target]).1 =
        (ofForward K (forward K (plan 0 target) config)).forwards ∧
      verifications (launch K config plan 0 [target]).1 = [] ∧
        ((launch K config plan 0 [target]).2 = [] →
          (ofForward K (forward K (plan 0 target) config)).forwards = []) := by
  unfold launch
  cases forward K (plan 0 target) config with
  | error error => exact ⟨rfl, rfl, fun _ => rfl⟩
  | ok copy =>
      obtain ⟨branch, forwarded, nextHop⟩ := copy
      refine ⟨?_, ?_, fun none => by contradiction⟩
      · by_cases invites : (plan 0 target).original.method = .invite <;>
          simp [forwards, launch, invites, ofForward, AckRoute.forwards]
      · by_cases invites : (plan 0 target).original.method = .invite <;>
          simp [verifications, launch, invites]

/-- Routing a request within a dialog forwards the copy of an `ACK`, where one can be built. -/
theorem routeIt_inDialog {context : ResponseContext K.Uri} {request : Request K.Uri}
    {validated : Validated} (requestEq : context.request = some request)
    (validatedEq : context.validated = some validated) (noBranches : context.branches = [])
    (noTokens : context.tokens = none) (inDialog : isInDialog K request = true) :
    (routeIt K context).1.request = some request ∧ verifications (routeIt K context).2 = [] ∧
      forwards (routeIt K context).2 =
        (ofForward K (forward K (ackPlan K request validated) context.config)).forwards := by
  have sole : routeIt K context =
      forkNextGroup K { context with queued := [predeterminedTarget K request] } := by
    simp [routeIt, requestEq, inDialog, onTargets, orderByQ]
  have one : groupSize [predeterminedTarget K request] validated.maxBreadth = 1 := by
    have breadth : 1 ≤ max validated.maxBreadth 1 := le_max_right _ _
    simp [groupSize, breadth]
  have group : nextGroup K { context with queued := [predeterminedTarget K request] } validated =
      [predeterminedTarget K request] := by
    simp [nextGroup, one]
  have plan : forkPlan K { context with queued := [predeterminedTarget K request] } request
      validated 1 0 (predeterminedTarget K request) = ackPlan K request validated :=
    forkPlan_predetermined validated noBranches noTokens inDialog
  obtain ⟨copies, quiet, unbuilt⟩ := launch_one context.config
    (forkPlan K { context with queued := [predeterminedTarget K request] } request validated 1)
    (predeterminedTarget K request)
  rw [plan] at copies unbuilt
  rw [sole]
  rcases @forkNextGroup_cases K { context with queued := [predeterminedTarget K request] } request
    validated requestEq validatedEq (List.cons_ne_nil _ _) with
    ⟨noneLaunched, -, forked⟩ | ⟨-, forked⟩
  · rw [forked, respondAndFinish_fst]
    obtain ⟨noForward, noAsk⟩ := forwards_respondAndFinish
      (forkedContext K { context with queued := [predeterminedTarget K request] } request validated)
      request 480 (text "Temporarily Unavailable")
    rw [forkedContext, launchGroup, group] at noneLaunched
    refine ⟨requestEq, noAsk, ?_⟩
    rw [noForward, unbuilt (List.append_eq_nil_iff.mp noneLaunched).2]
  · rw [forked]
    refine ⟨requestEq, ?_, ?_⟩
    · rw [launchGroup, group]
      exact quiet
    · rw [launchGroup, group]
      exact copies

theorem ofForward_ne_refused (result : Except ForwardError (BranchId × Request K.Uri × Bytes)) :
    (∀ refusal, ofForward K result ≠ .unroutable (.refused refusal)) ∧
      (ofForward K result).verifications = [] := by
  rcases result with error | ⟨branch, forwarded, nextHop⟩
  · exact ⟨fun _ same => by simp [ofForward] at same, rfl⟩
  · exact ⟨fun _ same => by simp [ofForward] at same, rfl⟩

/-- What is asked of both entry points: a fresh context takes the request, and the verdict where it
asks for one. -/
structure RoutesAlike (K : Kernel) (config : ProxyConfig) (request : Request K.Uri)
    (verdict : TokenVerdict) : Prop where
  arrival : Agrees K config request (onInput K (.new config) (.upstream request))
    (routeAck K request config none)
  decided : (routeAck K request config none).verifications ≠ [] →
    Agrees K config request
      (onInput K (onInput K (.new config) (.upstream request)).1 (.tokenFact verdict))
      (routeAck K request config (some verdict))
  invalid : (routeAck K request config none).verifications ≠ [] → verdict = .invalid →
    (routeAck K request config (some verdict)).forwards = []

/-- Within a dialog the `ACK` path and a fresh context take the same decisions. -/
theorem routesAlike (config : ProxyConfig) {request : Request K.Uri}
    (inDialog : isInDialog K request = true) (verdict : TokenVerdict) :
    RoutesAlike K config request verdict := by
  have kept : isInDialog K (preprocess K request config).1 = true :=
    (isInDialog_preprocess request config).trans inDialog
  cases accepted : validate K request config with
  | error refusal =>
      have arrives : onInput K (.new config) (.upstream request) =
          refuse K (.new config) request refusal := by
        simp [onInput, ResponseContext.new, onUpstream, accepted]
      have routes : routeAck K request config none = .unroutable (.refused refusal) := by
        simp [routeAck, accepted]
      obtain ⟨noForward, noAsk⟩ := forwards_refuse (.new config) request refusal
      constructor
      · constructor
        · exact .inl ⟨refusal, arrives, routes⟩
        · rw [arrives, routes, noAsk]
          rfl
        · rw [arrives, routes, noForward]
          rfl
      · intro asks
        rw [routes] at asks
        contradiction
      · intro asks
        rw [routes] at asks
        contradiction
  | ok validated =>
      -- Both go on from the same context, with or without the verdict.
      have routed : ∀ context : ResponseContext K.Uri, context.config = config →
          context.request = some (preprocess K request config).1 →
            context.validated = some validated → context.branches = [] → context.tokens = none →
              Agrees K config request (routeIt K context)
                (ofForward K (forward K (ackPlan K (preprocess K request config).1 validated)
                  config)) := by
        rintro context rfl requestEq validatedEq noBranches noTokens
        obtain ⟨held, noAsk, copies⟩ :=
          routeIt_inDialog requestEq validatedEq noBranches noTokens kept
        obtain ⟨unrefused, noVerify⟩ := ofForward_ne_refused
          (forward K (ackPlan K (preprocess K request context.config).1 validated) context.config)
        exact ⟨.inr ⟨by rw [held]; rfl, unrefused⟩, noAsk.trans noVerify.symm, copies⟩
      cases carried : (preprocess K request config).2 with
      | none =>
          have arrives : onInput K (.new config) (.upstream request) =
              routeIt K (arrivedContext K (.new config) request validated) := by
            simp [onInput, ResponseContext.new, onUpstream, accepted, carried, arrivedContext]
          have routes : routeAck K request config none =
              ofForward K (forward K (ackPlan K (preprocess K request config).1 validated)
                config) := by
            simp [routeAck, accepted, carried]
          have quiet : (routeAck K request config none).verifications = [] := by
            rw [routes]
            exact (ofForward_ne_refused _).2
          constructor
          · rw [arrives, routes]
            exact routed _ rfl rfl rfl rfl rfl
          · exact fun asks => absurd quiet asks
          · exact fun asks => absurd quiet asks
      | some carriage =>
          have arrives : onInput K (.new config) (.upstream request) =
              ({ arrivedContext K (.new config) request validated with awaitingVerdict := true },
                [.verifyToken carriage.token carriage.partner]) := by
            simp [onInput, ResponseContext.new, onUpstream, accepted, carried, arrivedContext]
          have routes : routeAck K request config none =
              .verify carriage.token carriage.partner := by
            simp [routeAck, accepted, carried]
          have forbids : routeAck K request config (some .invalid) =
              .unroutable .unverifiableToken := by
            simp [routeAck, accepted, carried]
          constructor
          · rw [arrives, routes]
            exact ⟨.inr ⟨rfl, fun _ same => by simp at same⟩, rfl, rfl⟩
          · intro _
            rw [arrives]
            cases verdict with
            | valid tenant =>
                have resumes : routeAck K request config (some (.valid tenant)) =
                    ofForward K (forward K (ackPlan K (preprocess K request config).1 validated)
                      config) := by
                  simp [routeAck, accepted, carried]
                have resumed : onInput K { arrivedContext K (.new config) request validated with
                    awaitingVerdict := true } (.tokenFact (.valid tenant)) =
                      routeIt K (arrivedContext K (.new config) request validated) :=
                  rfl
                rw [resumes, resumed]
                exact routed _ rfl rfl rfl rfl rfl
            | invalid =>
                obtain ⟨noForward, noAsk⟩ := forwards_respondAndFinish
                  (arrivedContext K (.new config) request validated)
                  (preprocess K request config).1 403 (text "Forbidden")
                have rejects : onInput K { arrivedContext K (.new config) request validated with
                    awaitingVerdict := true } (.tokenFact .invalid) =
                      respondAndFinish K (arrivedContext K (.new config) request validated)
                        (preprocess K request config).1 403 (text "Forbidden") :=
                  rfl
                rw [forbids, rejects]
                refine ⟨.inr ⟨?_, fun _ same => by simp at same⟩, noAsk, noForward⟩
                rw [respondAndFinish_fst]
                rfl
          · rintro _ rfl
            rw [forbids]
            rfl

/-- The caller's `ACK`, over our `Route` and its token. -/
def tokenedAck : Request Reference.kernel.Uri where
  method := .ack
  uri := Reference.uri "sip:bob@10.0.0.1"
  headers := [callerVia, Reference.row .route "<sip:edge-1.example;lr;aft=dG9r>",
    Reference.row .callId "call-1", Reference.row .cSeq "1 ACK",
    Reference.row .fromHeader "<sip:alice@a.example>;tag=af",
    Reference.row .toHeader "<sip:bob@b.example>;tag=bt"]
  body := []

/-- Both ask the verdict on the token, and neither forwards when it is `Invalid`. -/
theorem routesAlike_tokened :
    (routeAck Reference.kernel tokenedAck edge none).verifications = [(bytes "dG9r", none)] ∧
      RoutesAlike Reference.kernel edge tokenedAck .invalid := by
  constructor
  · decide +kernel
  · exact routesAlike edge (by decide +kernel) .invalid

end SipxClstr.Proxy
