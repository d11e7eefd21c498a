import SipxClstr.Proxy.Reachable

/-!
# Routing behind a token

A request whose popped `Route`s carried a token waits for the verdict on it
before it goes anywhere.  This file says which inputs route it all the same
while the verdict is outstanding, and that without them nothing is asked or
forwarded before a `Valid` and an `Invalid` is answered by one `403`.
-/

namespace SipxClstr.Proxy

open SipxClstr.Sip ResponseContext Reactive Reactive.Machine

variable (K : Kernel)

/-- Whether this input routes while a verdict is outstanding: a resolved target
set that is not empty, or a second request that carries no token. -/
def bypassesGate (context : ResponseContext K.Uri) : Input K.Uri → Bool
  | .targetsResolved targets => context.awaitingVerdict && !targets.isEmpty
  | .upstream request => context.awaitingVerdict &&
      match validate K request context.config with
      | .ok _ => (preprocess K request context.config).2.isNone
      | .error _ => false
  | _ => false

/-- At this step nothing routes an unfinished context around its token. -/
def Gated (context : ResponseContext K.Uri) (input : Input K.Uri) : Prop :=
  context.finished = false → bypassesGate K context input = false

instance (context : ResponseContext K.Uri) (input : Input K.Uri) :
    Decidable (Gated K context input) :=
  inferInstanceAs (Decidable (_ → _))

/-- An input that is a `Valid` verdict. -/
def isValidVerdict {Uri : Type} : Input Uri → Bool
  | .tokenFact (.valid _) => true
  | _ => false

/-- Nothing is forwarded and nobody is asked for targets before a `Valid`
verdict, and an `Invalid` that answers the question is followed by one `403`
and by nothing else. -/
structure TokenGates (config : ProxyConfig) (past : List (Input K.Uri)) (request : Request K.Uri)
    (later : List (Input K.Uri)) : Prop where
  holds : (∀ input ∈ later, isValidVerdict input = false) →
    launches (emitted (onInput K) (.new config) (past ++ .upstream request :: later)) = [] ∧
      queries (emitted (onInput K) (.new config) (past ++ .upstream request :: later)) = []
  rejects : ∀ held rest, later = held ++ .tokenFact .invalid :: rest →
    (∀ input ∈ held, isValidVerdict input = false) →
      (after (onInput K) (.new config) (past ++ .upstream request :: held)).finished = false →
        (answers (emitted (onInput K) (.new config) (past ++ .upstream request :: later))).map
            (fun response => response.status.code) = [403] ∧
          launches (emitted (onInput K) (.new config) (past ++ .upstream request :: later)) = []

variable {K}

/-! ## Before the request -/

/-- A context that no request has reached. -/
structure Unreached (context : ResponseContext K.Uri) : Prop where
  request : context.request = none
  branches : context.branches = []
  awaiting : context.awaitingVerdict = false

/-- Nothing was sent, and nothing forwarded or asked. -/
structure Silent (effects : List (Effect K.Uri)) : Prop where
  answers : answers effects = []
  launches : launches effects = []
  queries : queries effects = []

theorem silent_nil : Silent ([] : List (Effect K.Uri)) :=
  ⟨rfl, rfl, rfl⟩

theorem Silent.append {first second : List (Effect K.Uri)} (left : Silent first)
    (right : Silent second) : Silent (first ++ second) where
  answers := by rw [answers_append, left.answers, right.answers, List.append_nil]
  launches := by rw [launches_append, left.launches, right.launches, List.append_nil]
  queries := by rw [queries_append, left.queries, right.queries, List.append_nil]

/-- Without a request a step sends nothing, and the context stays unreached or ends. -/
theorem Step.unreached {context : ResponseContext K.Uri} {input : Input K.Uri}
    {outcome : Outcome K.Uri} (step : Step K context input outcome)
    (unreached : Unreached context) (notUpstream : ∀ request, input ≠ .upstream request) :
    Silent outcome.2 ∧ (outcome.1.finished = true ∨ Unreached outcome.1) := by
  have noRequest : ∀ {request}, context.request ≠ some request := by
    simp [unreached.request]
  have notDetermined : ∀ {determined request}, ¬ Determines K context input determined request := by
    intro determined request determines
    cases determines with
    | arrival request _ _ _ => exact notUpstream request rfl
    | verdict _ _ _ requestEq => exact noRequest requestEq
  cases step with
  | absorbed _ => exact ⟨silent_nil, .inr unreached⟩
  | premature _ _ => exact ⟨⟨rfl, rfl, rfl⟩, .inl rfl⟩
  | minted _ =>
      exact ⟨silent_nil, .inr ⟨unreached.request, unreached.branches, unreached.awaiting⟩⟩
  | refused request _ _ => exact absurd rfl (notUpstream request)
  | held request _ _ _ _ => exact absurd rfl (notUpstream request)
  | asked determines _ => exact absurd determines notDetermined
  | taken takes _ =>
      cases takes with
      | predetermined determines _ => exact absurd determines notDetermined
      | resolved _ _ requestEq _ => exact absurd requestEq noRequest
  | concluded requestEq _ => exact absurd requestEq noRequest
  | provisional _ _ _ requestEq _ _ _ => exact absurd requestEq noRequest
  | accepted _ _ _ requestEq _ _ _ => exact absurd requestEq noRequest
  | rejected _ _ _ requestEq _ _ => exact absurd requestEq noRequest
  | recorded requestEq _ _ => exact absurd requestEq noRequest
  | stopped branch stuck =>
      simp [sawProvisional, unreached.branches] at stuck
  | withdrawn =>
      have same := sameButBranches_onUpstreamCancelled context
      have effects := onUpstreamCancelled_effects context
      have noBranches : (onUpstreamCancelled context).1.branches = [] := by
        have ids := same.ids
        rw [show context.concludeTargetSet.branches = [] from unreached.branches] at ids
        exact List.map_eq_nil_iff.mp ids
      exact ⟨⟨effects.1, effects.2.2.1, effects.2.2.2⟩,
        .inr ⟨same.request.trans unreached.request, noBranches,
          same.awaitingVerdict.trans unreached.awaiting⟩⟩

/-! ## While the verdict is outstanding -/

/-- A context held for the verdict on its request's token. -/
structure Held (context : ResponseContext K.Uri) : Prop where
  awaiting : context.awaitingVerdict = true
  branches : context.branches = []
  respondable : ∃ request, context.request = some request ∧ isRespondable K request = true

theorem held_of_accepted {context : ResponseContext K.Uri} {request : Request K.Uri}
    {validated : Validated} (noBranches : context.branches = [])
    (accepted : validate K request context.config = .ok validated) :
    Held { arrivedContext K context request validated with awaitingVerdict := true } where
  awaiting := rfl
  branches := noBranches
  respondable := ⟨_, rfl, by
    rw [isRespondable_preprocess]
    exact isRespondable_of_validate K accepted⟩

/-- The request arrives: it is held, or refused without being routed. -/
theorem Step.arrives {context : ResponseContext K.Uri} {request : Request K.Uri}
    {outcome : Outcome K.Uri} (step : Step K context (.upstream request) outcome)
    (noBranches : context.branches = [])
    {carriage : TokenCarriage} (tokened : (preprocess K request context.config).2 = some carriage) :
    launches outcome.2 = [] ∧ queries outcome.2 = [] ∧
      (outcome.1.finished = true ∨ Held outcome.1 ∧ answers outcome.2 = []) := by
  have notDetermined : ∀ {determined request'},
      ¬ Determines K context (.upstream request) determined request' := by
    intro determined request' determines
    cases determines with
    | arrival _ _ _ untokened =>
        rw [tokened] at untokened
        contradiction
  cases step with
  | absorbed absorbs => exact absorbs.elim
  | premature needs _ => exact needs.elim
  | refused _ refusal _ =>
      have effects := refuse_effects context request refusal
      exact ⟨effects.2.2.1, effects.2.2.2, .inl (by rw [refuse_fst])⟩
  | held _ validated _ accepted _ =>
      exact ⟨rfl, rfl, .inr ⟨held_of_accepted noBranches accepted, rfl⟩⟩
  | asked determines _ => exact absurd determines notDetermined
  | taken takes _ =>
      cases takes with
      | predetermined determines _ => exact absurd determines notDetermined
  | concluded _ concludes => cases concludes
  | recorded _ records _ => cases records

/-- A held context that nothing routes around its token asks nobody and
forwards nothing, and stays held without a word or ends. -/
theorem Step.held_of_gated {context : ResponseContext K.Uri} {input : Input K.Uri}
    {outcome : Outcome K.Uri} (step : Step K context input outcome) (held : Held context)
    (gated : bypassesGate K context input = false) (notValid : isValidVerdict input = false) :
    launches outcome.2 = [] ∧ queries outcome.2 = [] ∧
      (outcome.1.finished = true ∨ Held outcome.1 ∧ answers outcome.2 = []) := by
  have unknown : ∀ {branch}, context.knows branch ≠ true := by
    simp [knows, held.branches]
  have notPending : ∀ {branch saw}, context.sawProvisional branch ≠ some saw := by
    simp [sawProvisional, held.branches]
  have notDetermined : ∀ {determined request}, ¬ Determines K context input determined request := by
    intro determined request determines
    cases determines with
    | arrival request validated accepted untokened =>
        simp [bypassesGate, held.awaiting, accepted, untokened] at gated
    | verdict _ _ _ _ => simp [isValidVerdict] at notValid
  cases step with
  | absorbed _ => exact ⟨rfl, rfl, .inr ⟨held, rfl⟩⟩
  | premature _ _ => exact ⟨rfl, rfl, .inl rfl⟩
  | minted _ => exact ⟨rfl, rfl, .inr ⟨⟨held.awaiting, held.branches, held.respondable⟩, rfl⟩⟩
  | refused request refusal _ =>
      have effects := refuse_effects context request refusal
      exact ⟨effects.2.2.1, effects.2.2.2, .inl (by rw [refuse_fst])⟩
  | held _ validated _ accepted _ =>
      exact ⟨rfl, rfl, .inr ⟨held_of_accepted held.branches accepted, rfl⟩⟩
  | asked determines _ => exact absurd determines notDetermined
  | taken takes _ =>
      cases takes with
      | predetermined determines _ => exact absurd determines notDetermined
      | resolved _ _ _ nonempty => simp [bypassesGate, held.awaiting, nonempty] at gated
  | concluded _ _ =>
      exact ⟨launches_respondAndFinish _ _ _ _, queries_respondAndFinish _ _ _ _,
        .inl (by rw [respondAndFinish_fst])⟩
  | provisional _ _ _ _ known _ _ => exact absurd known unknown
  | accepted _ _ _ _ known _ _ => exact absurd known unknown
  | rejected _ _ _ _ known _ => exact absurd known unknown
  | recorded _ records _ =>
      cases records with
      | received _ _ known _ _ _ _ => exact absurd known unknown
      | unavailable _ _ known _ => exact absurd known unknown
      | failed _ known => exact absurd known unknown
      | silent _ silent => exact absurd silent notPending
  | stopped _ stuck => exact absurd stuck notPending
  | withdrawn =>
      have same := sameButBranches_onUpstreamCancelled context
      have effects := onUpstreamCancelled_effects context
      have noBranches : (onUpstreamCancelled context).1.branches = [] := by
        have ids := same.ids
        rw [show context.concludeTargetSet.branches = [] from held.branches] at ids
        exact List.map_eq_nil_iff.mp ids
      refine ⟨effects.2.2.1, effects.2.2.2, .inr ⟨⟨?_, noBranches, ?_⟩, effects.1⟩⟩
      · exact same.awaitingVerdict.trans held.awaiting
      · rw [same.request]
        exact held.respondable

/-! ## Every run -/

/-- Before a request arrives nothing is sent, forwarded or asked. -/
theorem silent_before_request (config : ProxyConfig) {past : List (Input K.Uri)}
    (noRequest : ∀ request, .upstream request ∉ past) :
    Silent (emitted (onInput K) (.new config) past) ∧
      ((after (onInput K) (.new config) past).finished = true ∨
        Unreached (after (onInput K) (.new config) past)) := by
  refine step_induction (coherent_new config)
    (fun effects state => Silent effects ∧ (state.finished = true ∨ Unreached state))
    ⟨silent_nil, .inr ⟨rfl, rfl, rfl⟩⟩
    (fun effects state input outcome holds unfinished _
        (notUpstream : ∀ request, input ≠ .upstream request) step => ?_)
    (along_of_inputs (onInput K) _ fun input member request isUpstream =>
      noRequest request (isUpstream ▸ member))
  have next := step.unreached (holds.2.resolve_left (by simp [unfinished])) notUpstream
  exact ⟨holds.1.append next.1, next.2⟩

/-- A context that is held, or over, stays so until a `Valid` verdict. -/
theorem held_until_valid {start : ResponseContext K.Uri} (coherent : Coherent start)
    (waiting : start.finished = true ∨ Held start) {inputs : List (Input K.Uri)}
    (gated : Along (onInput K) (Gated K) start inputs)
    (noValid : ∀ input ∈ inputs, isValidVerdict input = false) :
    launches (emitted (onInput K) start inputs) = [] ∧
      queries (emitted (onInput K) start inputs) = [] ∧
        ((after (onInput K) start inputs).finished = true ∨
          Held (after (onInput K) start inputs) ∧ answers (emitted (onInput K) start inputs) = []) := by
  refine step_induction coherent
    (fun effects state => launches effects = [] ∧ queries effects = [] ∧
      (state.finished = true ∨ Held state ∧ answers effects = []))
    ⟨rfl, rfl, waiting.imp_right fun held => ⟨held, rfl⟩⟩
    (fun effects state input outcome holds unfinished _ (condition : Gated K state input ∧
        isValidVerdict input = false) step => ?_)
    (gated.and (along_of_inputs (onInput K) _ noValid))
  obtain ⟨noLaunch, noQuery, waiting⟩ := holds
  obtain ⟨held, unanswered⟩ := waiting.resolve_left (by simp [unfinished])
  have next := step.held_of_gated held (condition.1 unfinished) condition.2
  refine ⟨?_, ?_, ?_⟩
  · rw [launches_append, noLaunch, next.1, List.append_nil]
  · rw [queries_append, noQuery, next.2.1, List.append_nil]
  · refine next.2.2.imp_right fun stillHeld => ⟨stillHeld.1, ?_⟩
    rw [answers_append, unanswered, stillHeld.2, List.append_nil]

/-- An `Invalid` verdict on a held request is answered by one `403`, and ends
the context. -/
theorem rejected_of_invalid (responds : K.Responds) {context : ResponseContext K.Uri}
    (unfinished : context.finished = false) (held : Held context) :
    (answers (onInput K context (.tokenFact .invalid)).2).map
        (fun response => response.status.code) = [403] ∧
      launches (onInput K context (.tokenFact .invalid)).2 = [] ∧
        (onInput K context (.tokenFact .invalid)).1.finished = true := by
  obtain ⟨request, requestEq, respondable⟩ := held.respondable
  have rejected : onInput K context (.tokenFact .invalid) =
      respondAndFinish K { context with awaitingVerdict := false } request 403
        (text "Forbidden") := by
    simp [onInput, unfinished, onToken, held.awaiting, rejectToken, requestEq]
  obtain ⟨response, responseEq⟩ := Option.isSome_iff_exists.mp
    (responds.answers request ⟨403, by decide⟩ (text "Forbidden") respondable)
  have built : buildResponse K request 403 (text "Forbidden") = some response := by
    simp [buildResponse, StatusCode.new, responseEq]
  have status : response.status = ⟨403, by decide⟩ := responds.status _ _ _ _ responseEq
  rw [rejected, answers_respondAndFinish, built, respondAndFinish_fst]
  exact ⟨by simp [status], launches_respondAndFinish _ _ _ _, rfl⟩

/-- The first request to arrive carries a token: it is held, or it is over. -/
theorem held_on_arrival (config : ProxyConfig) {past : List (Input K.Uri)}
    {request : Request K.Uri} (first : ∀ earlier, .upstream earlier ∉ past)
    (tokened : (preprocess K request config).2.isSome = true) :
    launches (emitted (onInput K) (.new config) (past ++ [.upstream request])) = [] ∧
      queries (emitted (onInput K) (.new config) (past ++ [.upstream request])) = [] ∧
        ((after (onInput K) (.new config) (past ++ [.upstream request])).finished = true ∨
          Held (after (onInput K) (.new config) (past ++ [.upstream request])) ∧
            answers (emitted (onInput K) (.new config) (past ++ [.upstream request])) = []) := by
  obtain ⟨silent, reached⟩ := silent_before_request config first
  obtain ⟨carriage, tokenedEq⟩ := Option.isSome_iff_exists.mp tokened
  rw [emitted_append, after_append, emitted_cons, emitted_nil, List.append_nil, after_cons,
    after_nil, launches_append, queries_append, answers_append, silent.launches, silent.queries,
    silent.answers, List.nil_append, List.nil_append, List.nil_append]
  have coherent := coherent_after config past
  have sameConfig := config_after config past
  generalize after (onInput K) (.new config) past = state at *
  cases finished : state.finished with
  | true =>
      rw [onInput_finished finished]
      exact ⟨rfl, rfl, .inl finished⟩
  | false =>
      have unreached : Unreached state := reached.resolve_left (by simp [finished])
      exact (onInput_step coherent finished (.upstream request)).arrives unreached.branches
        (by rw [sameConfig]; exact tokenedEq)

/-- The first request to arrive carries a token: if nothing routes it around
the verdict, the token gates it. -/
theorem tokenGates_of_gated (responds : K.Responds) (config : ProxyConfig)
    (past later : List (Input K.Uri)) (request : Request K.Uri)
    (first : ∀ earlier, .upstream earlier ∉ past)
    (tokened : (preprocess K request config).2.isSome = true)
    (gated : Along (onInput K) (Gated K)
      (after (onInput K) (.new config) (past ++ [.upstream request])) later) :
    TokenGates K config past request later := by
  obtain ⟨noLaunch, noQuery, waiting⟩ := held_on_arrival config first tokened
  have coherent := coherent_after config (past ++ [.upstream request])
  have started : (after (onInput K) (.new config) (past ++ [.upstream request])).finished = true ∨
      Held (after (onInput K) (.new config) (past ++ [.upstream request])) :=
    waiting.imp_right And.left
  constructor
  · intro noValid
    have held := held_until_valid coherent started gated noValid
    rw [List.append_cons, emitted_append, launches_append, queries_append, noLaunch, noQuery,
      held.1, held.2.1]
    exact ⟨rfl, rfl⟩
  · intro heldInputs rest laterEq noValid unfinished
    subst laterEq
    rw [List.append_cons, after_append] at unfinished
    rw [along_append] at gated
    obtain ⟨heldLaunch, -, stillHeld⟩ := held_until_valid coherent started gated.1 noValid
    -- Neither the arrival nor the wait was over, so nothing was sent yet.
    obtain ⟨heldNow, unanswered⟩ := stillHeld.resolve_left (by simp [unfinished])
    have arrivalUnanswered :
        answers (emitted (onInput K) (.new config) (past ++ [.upstream request])) = [] := by
      rcases waiting with ended | held
      · rw [after_of_finished ended] at unfinished
        rw [ended] at unfinished
        contradiction
      · exact held.2
    obtain ⟨forbidden, verdictLaunch, ended⟩ := rejected_of_invalid responds unfinished heldNow
    rw [List.append_cons, emitted_append _ _ (past ++ [Input.upstream request]),
      emitted_append _ _ heldInputs, emitted_cons, emitted_of_finished ended, answers_append,
      answers_append, answers_append,
      arrivalUnanswered, unanswered, launches_append, launches_append, launches_append, noLaunch,
      heldLaunch, verdictLaunch]
    exact ⟨by simpa using forbidden, rfl⟩

/-- A location answer nobody asked for forwards the request while the verdict
on its token is outstanding. -/
theorem not_tokenGates_unasked_targets :
    ¬ TokenGates Reference.kernel edge []
      (inviteVia [Reference.row .route "<sip:edge-1.example;lr;aft=ORIG>"])
      [.targetsResolved [phone "sip:bob@10.0.0.1" 1000]] := by
  intro gates
  have held := gates.holds (by decide)
  revert held
  decide +kernel

/-- A forged token, and a CANCEL before the verdict on it. -/
theorem tokenGates_forged :
    TokenGates Reference.kernel edge []
      (inviteVia [Reference.row .route "<sip:edge-1.example;lr;aft=ORIG>"])
      [.upstreamCancelled, .tokenFact .invalid,
        .targetsResolved [phone "sip:bob@10.0.0.1" 1000]] :=
  tokenGates_of_gated Reference.kernel_responds edge [] _ _ (by simp) (by decide +kernel)
    (by decide +kernel)

end SipxClstr.Proxy
