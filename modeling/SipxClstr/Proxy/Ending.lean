import SipxClstr.Proxy.Progress
import SipxClstr.Proxy.Selection

/-!
# How a context ends

A context that held an answerable request and is over has sent a final response.
-/

namespace SipxClstr.Proxy

open SipxClstr.Sip ResponseContext Reactive Reactive.Machine

variable {K : Kernel}

/-- A final response is among the effects. -/
def SendsFinal {Uri : Type} (effects : List (Effect Uri)) : Prop :=
  ∃ response ∈ answers effects, 200 ≤ response.status.code

theorem SendsFinal.append_left {Uri : Type} {first : List (Effect Uri)} (sends : SendsFinal first)
    (second : List (Effect Uri)) : SendsFinal (first ++ second) := by
  obtain ⟨response, member, final⟩ := sends
  refine ⟨response, ?_, final⟩
  rw [answers_append]
  exact List.mem_append_left _ member

theorem SendsFinal.append_right {Uri : Type} (first : List (Effect Uri)) {second : List (Effect Uri)}
    (sends : SendsFinal second) : SendsFinal (first ++ second) := by
  obtain ⟨response, member, final⟩ := sends
  refine ⟨response, ?_, final⟩
  rw [answers_append]
  exact List.mem_append_right _ member

theorem final_of_not_provisional {status : StatusCode} (final : status.isProvisional = false) :
    200 ≤ status.code := by
  by_contra below
  rw [status.isProvisional_iff.mpr (by omega)] at final
  contradiction

/-- A final built here has the status asked for. -/
theorem final_of_buildResponse (responds : K.Responds) {request : Request K.Uri} {status : Nat}
    {reason : Text} {response : Response} (isFinal : 200 ≤ status)
    (built : buildResponse K request status reason = some response) :
    200 ≤ response.status.code := by
  obtain ⟨code, isCode, built⟩ := buildResponse_eq_some built
  rw [responds.status _ _ _ _ built]
  unfold StatusCode.new at isCode
  split at isCode
  · rw [← Option.some.inj isCode]
    exact isFinal
  · contradiction

theorem sendsFinal_respondAndFinish (responds : K.Responds) (context : ResponseContext K.Uri)
    {request : Request K.Uri} (respondable : isRespondable K request = true) {status : Nat}
    (isFinal : 200 ≤ status ∧ status ≤ 999) (reason : Text) :
    SendsFinal (respondAndFinish K context request status reason).2 := by
  have isCode : StatusCode.new status = some ⟨status, by omega⟩ := dif_pos _
  obtain ⟨response, built, statusEq⟩ := exists_buildResponse responds respondable isCode reason
  refine ⟨response, ?_, ?_⟩
  · rw [answers_respondAndFinish, built]
    exact List.mem_singleton_self response
  · rw [statusEq]
    exact isFinal.1

/-- Whatever the finals are, the one chosen is a final. -/
theorem final_of_chosenFinal (responds : K.Responds) {context : ResponseContext K.Uri}
    {request : Request K.Uri} {best : Nat} {response : Response}
    (finals : ∀ response ∈ context.finals, 200 ≤ response.status.code)
    (chosen : chosenFinal K context request best = some response) :
    200 ≤ response.status.code := by
  unfold chosenFinal at chosen
  split at chosen
  · next challenge =>
      obtain ⟨built, isBuilt, same⟩ := Option.bind_eq_some_iff.mp chosen
      have kept : response.status = built.status := by
        rw [← Option.some.inj same]
      rw [kept]
      exact final_of_buildResponse responds (by omega) isBuilt
  · exact finals response (List.mem_of_find?_eq_some chosen)

/-! ## The finals recorded -/

theorem Records.finals_final (responds : K.Responds) {context recorded : ResponseContext K.Uri}
    {request : Request K.Uri} {input : Input K.Uri} {branch : BranchId}
    (records : Records K context request input branch recorded)
    (finals : ∀ response ∈ context.finals, 200 ≤ response.status.code) :
    ∀ response ∈ recorded.finals, 200 ≤ response.status.code := by
  have built : ∀ status reason, 200 ≤ status →
      ∀ response ∈ (recordBuilt K context request branch status reason).finals,
        200 ≤ response.status.code := by
    intro status reason isFinal response member
    rcases List.mem_append.mp member with earlier | now
    · exact finals response earlier
    · exact final_of_buildResponse responds isFinal (Option.mem_toList.mp now)
  cases records with
  | received response _ _ final _ _ _ =>
      intro other member
      rcases List.mem_append.mp member with earlier | now
      · exact finals other earlier
      · rw [List.mem_singleton.mp now]
        exact final_of_not_provisional final
  | unavailable _ _ _ _ => exact built 503 _ (by decide)
  | failed _ _ => exact built 503 _ (by decide)
  | silent _ _ => exact built 408 _ (by decide)

theorem Step.finals_final (responds : K.Responds) {context : ResponseContext K.Uri}
    {input : Input K.Uri} {outcome : Outcome K.Uri} (step : Step K context input outcome)
    (finals : ∀ response ∈ context.finals, 200 ≤ response.status.code) :
    ∀ response ∈ outcome.1.finals, 200 ≤ response.status.code := by
  cases step with
  | absorbed _ => exact finals
  | premature _ _ => exact finals
  | minted _ => exact finals
  | refused _ _ _ =>
      rw [refuse_fst]
      exact finals
  | held _ _ _ _ _ => exact finals
  | asked determines _ =>
      rw [determines.frame.finals]
      exact finals
  | taken takes tail =>
      rw [tail.finals_eq, takes.frame.finals]
      exact finals
  | concluded _ concludes =>
      rw [respondAndFinish_fst]
      intro response member
      exact finals response (concludes.frame.finals ▸ member)
  | provisional response branch request _ _ _ _ =>
      rw [(sameButBranches_forwardProvisional context request response branch).finals]
      exact finals
  | accepted _ _ _ _ _ _ _ => exact finals
  | rejected response branch _ _ _ global =>
      have extended : ∀ other ∈ context.finals ++ [response], 200 ≤ other.status.code := by
        intro other member
        rcases List.mem_append.mp member with earlier | now
        · exact finals other earlier
        · rw [List.mem_singleton.mp now]
          unfold StatusCode.hundreds at global
          omega
      rw [finishIfSettled_rejected]
      split <;> exact extended
  | recorded _ records tail =>
      rw [tail.finals_eq]
      exact records.finals_final responds finals
  | stopped _ _ => exact finals
  | withdrawn =>
      rw [(sameButBranches_onUpstreamCancelled context).finals]
      exact finals

theorem finals_final_after (responds : K.Responds) (config : ProxyConfig)
    (inputs : List (Input K.Uri)) :
    ∀ response ∈ (after (onInput K) (.new config) inputs).finals, 200 ≤ response.status.code :=
  step_induction (coherent_new config)
    (fun _ state => ∀ response ∈ state.finals, 200 ≤ response.status.code)
    (fun _ member => by contradiction)
    (fun _ _ _ _ finals _ _ _ step => step.finals_final responds finals)
    (along_of_forall (onInput K) (fun _ _ => trivial) _ inputs)

/-! ## Ending -/

/-- A tail that ends an unanswered context sends a final response. -/
theorem Tail.sendsFinal (responds : K.Responds) {context : ResponseContext K.Uri}
    {request : Request K.Uri} {outcome : Outcome K.Uri} (tail : Tail K context request outcome)
    (respondable : isRespondable K request = true)
    (finals : ∀ response ∈ context.finals, 200 ≤ response.status.code)
    (unfinished : context.finished = false) (unanswered : context.answered = false)
    (finished : outcome.1.finished = true) : SendsFinal outcome.2 := by
  cases tail with
  | waits _ =>
      rw [unfinished] at finished
      contradiction
  | forks _ _ _ _ => exact absurd (unfinished.symm.trans finished) (by decide)
  | exhausts _ _ _ => exact sendsFinal_respondAndFinish responds _ respondable (by decide) _
  | fails _ _ => exact sendsFinal_respondAndFinish responds _ respondable (by decide) _
  | selects _ response _ _ _ _ _ chosen =>
      refine ⟨popVia response, by simp, ?_⟩
      show 200 ≤ response.status.code
      exact final_of_chosenFinal responds finals chosen
  | ends _ answered =>
      rw [unanswered] at answered
      contradiction

/-- Only a request that cannot be answered is dropped. -/
theorem ne_drop_of_validate {request : Request K.Uri} {config : ProxyConfig} {refusal : Refusal}
    (respondable : isRespondable K request = true)
    (rejected : validate K request config = .error refusal) : refusal ≠ .drop := by
  rintro rfl
  simp only [validate, respondable, Bool.not_true, Bool.false_eq_true, if_false, bind, Except.bind,
    pure, Except.pure, throw, throwThe, MonadExceptOf.throw] at rejected
  grind

/-- A refusal that is not a drop is answered. -/
theorem sendsFinal_refuse (responds : K.Responds) (context : ResponseContext K.Uri)
    {request : Request K.Uri} (respondable : isRespondable K request = true) {refusal : Refusal}
    (answerable : refusal ≠ .drop) : SendsFinal (refuse K context request refusal).2 := by
  have statusEq : ∃ status, refusal.status = some status ∧ 200 ≤ status ∧ status ≤ 999 := by
    cases refusal with
    | drop => contradiction
    | unsupportedScheme => exact ⟨416, rfl, by decide⟩
    | tooManyHops => exact ⟨483, rfl, by decide⟩
    | loopDetected => exact ⟨482, rfl, by decide⟩
    | maxBreadthExceeded => exact ⟨440, rfl, by decide⟩
    | badExtension _ => exact ⟨420, rfl, by decide⟩
  obtain ⟨status, statusEq, isFinal, inRange⟩ := statusEq
  have isCode : StatusCode.new status = some ⟨status, by omega⟩ := dif_pos _
  obtain ⟨response, built, codeEq⟩ :=
    exists_buildResponse responds respondable isCode refusal.reason
  refine ⟨withUnsupported K response refusal, ?_, ?_⟩
  · rw [(refuse_effects context request refusal).1, refusalResponse, statusEq]
    simp [built]
  · have kept : (withUnsupported K response refusal).status = response.status := by
      unfold withUnsupported
      split
      · split <;> rfl
      · rfl
    rw [kept, codeEq]
    exact isFinal

/-- A step that ends an unanswered context sends a final response, unless the context
holds no request, or one that cannot be answered arrives. -/
theorem Step.sendsFinal (responds : K.Responds) {context : ResponseContext K.Uri}
    {input : Input K.Uri} {outcome : Outcome K.Uri} (step : Step K context input outcome)
    (held : ∀ request, context.request = some request → isRespondable K request = true)
    (arrives : ∀ request, input = .upstream request → isRespondable K request = true)
    (present : context.request ≠ none ∨ ∃ request, input = .upstream request)
    (finals : ∀ response ∈ context.finals, 200 ≤ response.status.code)
    (unfinished : context.finished = false) (unanswered : context.answered = false)
    (finished : outcome.1.finished = true) : SendsFinal outcome.2 := by
  cases step with
  | absorbed _ =>
      rw [unfinished] at finished
      contradiction
  | premature needs absent =>
      rcases present with some_ | ⟨request, rfl⟩
      · contradiction
      · exact absurd needs id
  | minted _ => exact absurd (unfinished.symm.trans finished) (by decide)
  | refused request refusal rejected =>
      have respondable := arrives request rfl
      exact sendsFinal_refuse responds context respondable
        (ne_drop_of_validate respondable rejected)
  | held _ _ _ _ _ => exact absurd (unfinished.symm.trans finished) (by decide)
  | asked determines _ =>
      rw [determines.frame.finished, unfinished] at finished
      contradiction
  | @taken _ targeted request _ takes tail =>
      have frame := takes.frame
      have respondable : isRespondable K request = true := by
        have kept := (Step.taken takes tail).respondable held request
        rw [tail.request_eq.2.1, takes.request_eq] at kept
        exact kept rfl
      apply tail.sendsFinal responds respondable _ (frame.finished.trans unfinished)
        (frame.answered.trans unanswered) finished
      rw [frame.finals]
      exact finals
  | concluded requestEq concludes =>
      have respondable := held _ requestEq
      cases concludes <;> exact sendsFinal_respondAndFinish responds _ respondable (by decide) _
  | provisional response branch request _ _ _ _ =>
      rw [(sameButBranches_forwardProvisional context request response branch).finished, unfinished]
        at finished
      contradiction
  | accepted response _ _ _ _ success _ =>
      refine ⟨popVia response, by simp, ?_⟩
      unfold StatusCode.hundreds at success
      show 200 ≤ response.status.code
      omega
  | rejected response _ _ _ _ global =>
      refine ⟨popVia response, by simp, ?_⟩
      unfold StatusCode.hundreds at global
      show 200 ≤ response.status.code
      omega
  | recorded requestEq records tail =>
      obtain ⟨status, final, recordedEq⟩ := records.frame
      apply tail.sendsFinal responds (held _ requestEq) (records.finals_final responds finals) _ _
        finished
      · rw [recordedEq]
        exact unfinished
      · rw [recordedEq]
        exact unanswered
  | stopped _ _ => exact absurd (unfinished.symm.trans finished) (by decide)
  | withdrawn =>
      have same := (sameButBranches_onUpstreamCancelled context).finished
      exact absurd (unfinished.symm.trans (same.symm.trans finished)) (by decide)

/-- The first step of a run takes the request up, or ends the run. -/
theorem Step.holds_request {context : ResponseContext K.Uri} {request : Request K.Uri}
    {outcome : Outcome K.Uri} (step : Step K context (.upstream request) outcome) :
    outcome.1.finished = true ∨ outcome.1.request.isSome = true := by
  cases step with
  | absorbed absorbs => exact absurd absorbs id
  | premature needs _ => exact absurd needs id
  | refused _ _ _ =>
      rw [refuse_fst]
      exact .inl rfl
  | held _ _ _ _ _ => exact .inr rfl
  | asked determines _ =>
      rw [determines.request_eq]
      exact .inr rfl
  | taken takes tail =>
      rw [tail.request_eq.2.1, takes.request_eq]
      exact .inr rfl
  | concluded _ concludes => cases concludes
  | recorded _ records _ => cases records

/-- A run that begins with a request holds one until it ends. -/
theorem holds_request_after (config : ProxyConfig) (request : Request K.Uri)
    (later : List (Input K.Uri)) :
    (after (onInput K) (.new config) (.upstream request :: later)).finished = true ∨
      (after (onInput K) (.new config) (.upstream request :: later)).request.isSome = true := by
  induction later using List.reverseRecOn with
  | nil => exact (onInput_step (coherent_new config) rfl (.upstream request)).holds_request
  | append_singleton past input ih =>
      have advances := onInput_advances (coherent_after config (.upstream request :: past)) input
      rw [← List.cons_append, after_concat]
      rcases ih with finished | held
      · exact .inl (advances.finished finished)
      · exact .inr (advances.request held)

/-- A run that begins with an answerable request, and has ended, has sent a final
response. -/
theorem sendsFinal_of_finished (responds : K.Responds) (config : ProxyConfig)
    {request : Request K.Uri} (respondable : isRespondable K request = true)
    {later : List (Input K.Uri)} (once : ∀ input ∈ later, ∀ request, input ≠ .upstream request)
    (finished : (after (onInput K) (.new config) (.upstream request :: later)).finished = true) :
    SendsFinal (emitted (onInput K) (.new config) (.upstream request :: later)) := by
  induction later using List.reverseRecOn with
  | nil =>
      have step := onInput_step (coherent_new config) rfl (.upstream request)
      rw [emitted_cons, emitted_nil, List.append_nil]
      apply step.sendsFinal responds _ _ (.inr ⟨request, rfl⟩) _ rfl rfl finished
      · intro held absent
        contradiction
      · rintro arrived ⟨⟩
        exact respondable
      · intro response member
        contradiction
  | append_singleton past input ih =>
      have oncePast : ∀ input ∈ past, ∀ request, input ≠ .upstream request :=
        fun earlier member => once earlier (List.mem_append_left _ member)
      have notUpstream := once input (List.mem_append_right _ (List.mem_singleton_self input))
      rw [← List.cons_append] at finished ⊢
      rw [after_concat] at finished
      rw [emitted_concat]
      cases ended : (after (onInput K) (.new config) (.upstream request :: past)).finished with
      | true => exact (ih oncePast ended).append_left _
      | false =>
          cases answered : (after (onInput K) (.new config) (.upstream request :: past)).answered with
          | true =>
              rcases final_of_answered config _ answered with stopped | sent
              · rw [ended] at stopped
                contradiction
              · exact SendsFinal.append_left sent _
          | false =>
              have step := onInput_step (coherent_after config (.upstream request :: past)) ended input
              have held : (after (onInput K) (.new config) (.upstream request :: past)).request ≠
                  none := by
                rcases holds_request_after config request past with stopped | some_
                · rw [ended] at stopped
                  contradiction
                · exact Option.isSome_iff_ne_none.mp some_
              apply SendsFinal.append_right
              apply step.sendsFinal responds (fun _ => respondable_after config (.upstream request :: past)) _
                (.inl held)
                (finals_final_after responds config _) ended answered finished
              intro arrived isUpstream
              exact absurd isUpstream (notUpstream arrived)

end SipxClstr.Proxy
