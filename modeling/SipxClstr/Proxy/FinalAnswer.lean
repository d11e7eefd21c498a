import SipxClstr.Proxy.Reachable

/-!
# After a final response

A context that has answered is not over while branches it cancelled have still
to settle.  This file says which inputs make it answer again, and that without
them only 2xx responses to an `INVITE` follow a final response.
-/

namespace SipxClstr.Proxy

open SipxClstr.Sip ResponseContext Reactive Reactive.Machine

variable (K : Kernel)

/-- Whether this input leaves an answered context quiet.  Those that do not are
a provisional or a 6xx from a branch, an empty or unavailable target set, a
rejected token and a second request that is refused. -/
def keepsQuiet (context : ResponseContext K.Uri) : Input K.Uri → Bool
  | .branchResponse response branch =>
      !context.knows branch || response.status.code = 100 ||
        (!response.status.isProvisional && response.status.hundreds ≠ 6)
  | .targetsResolved targets => !targets.isEmpty
  | .targetsUnavailable => false
  | .tokenFact .invalid => !context.awaitingVerdict
  | .upstream request => match validate K request context.config with
    | .error refusal => refusal.status.isNone
    | .ok _ => true
  | _ => true

/-- At this step an answered context, if it is not over, is kept quiet. -/
def QuietOnceAnswered (context : ResponseContext K.Uri) (input : Input K.Uri) : Prop :=
  context.answered = true → context.finished = false → keepsQuiet K context input = true

instance (context : ResponseContext K.Uri) (input : Input K.Uri) :
    Decidable (QuietOnceAnswered K context input) :=
  inferInstanceAs (Decidable (_ → _ → _))

/-- A step answers at most once, and once a final response has been sent every
later response is a 2xx to an `INVITE`. -/
structure FinalIsLast (config : ProxyConfig) (inputs : List (Input K.Uri)) : Prop where
  single : ∀ past input future, inputs = past ++ input :: future →
    (answers (onInput K (after (onInput K) (.new config) past) input).2).length ≤ 1
  later : ∀ past input future, inputs = past ++ input :: future →
    (∃ response ∈ answers (emitted (onInput K) (.new config) past), 200 ≤ response.status.code) →
      ∀ response ∈ answers (onInput K (after (onInput K) (.new config) past) input).2,
        response.status.hundreds = 2 ∧
          (after (onInput K) (.new config) past).request.map Request.method = some .invite

variable {K}

/-! ## One step -/

theorem popVia_status (response : Response) : (popVia response).status = response.status :=
  rfl

theorem Tail.answers_length {context : ResponseContext K.Uri} {request : Request K.Uri}
    {outcome : Outcome K.Uri} (tail : Tail K context request outcome) :
    (answers outcome.2).length ≤ 1 := by
  cases tail with
  | waits _ => simp
  | forks _ _ _ _ => simp
  | exhausts _ _ _ =>
      rw [answers_respondAndFinish]
      exact Option.length_toList_le
  | fails _ _ =>
      rw [answers_respondAndFinish]
      exact Option.length_toList_le
  | selects _ _ _ _ _ _ _ _ => simp
  | ends _ _ => simp

/-- A tail that answers ends the context. -/
theorem Tail.finished_of_answers {context : ResponseContext K.Uri} {request : Request K.Uri}
    {outcome : Outcome K.Uri} (tail : Tail K context request outcome)
    (answered : answers outcome.2 ≠ []) : outcome.1.finished = true := by
  cases tail with
  | waits _ => simp at answered
  | forks _ _ _ _ => simp at answered
  | exhausts _ _ _ => rw [respondAndFinish_fst]
  | fails _ _ => rw [respondAndFinish_fst]
  | selects _ _ _ _ _ _ _ _ => rfl
  | ends _ _ => rfl

/-- A tail of an answered context that has branches does not answer. -/
theorem Tail.answers_of_answered {context : ResponseContext K.Uri} {request : Request K.Uri}
    {outcome : Outcome K.Uri} (tail : Tail K context request outcome)
    (answered : context.answered = true) (branches : context.branches ≠ []) :
    answers outcome.2 = [] := by
  cases tail with
  | waits _ => simp
  | forks _ _ _ _ => simp
  | exhausts _ noBranches _ =>
      exact absurd (List.append_eq_nil_iff.mp noBranches).1 branches
  | fails _ unanswered =>
      rw [answered] at unanswered
      contradiction
  | selects _ _ _ _ unanswered _ _ _ =>
      rw [answered] at unanswered
      contradiction
  | ends _ _ => simp

theorem Step.answers_length {context : ResponseContext K.Uri} {input : Input K.Uri}
    {outcome : Outcome K.Uri} (step : Step K context input outcome) :
    (answers outcome.2).length ≤ 1 := by
  cases step with
  | absorbed _ => simp
  | premature _ _ => simp [terminate]
  | minted _ => simp
  | refused request refusal _ =>
      rw [(refuse_effects context request refusal).1]
      exact Option.length_toList_le
  | held _ _ _ _ _ => simp
  | asked _ _ => simp
  | taken _ tail => exact tail.answers_length
  | concluded _ _ =>
      rw [answers_respondAndFinish]
      exact Option.length_toList_le
  | provisional response branch request _ _ _ _ =>
      rw [(forwardProvisional_effects context request response branch).1]
      simp
  | accepted _ _ _ _ _ _ _ => simp [cancelPending]
  | rejected response branch _ _ _ _ =>
      rw [finishIfSettled_rejected]
      split <;> simp [cancelPending]
  | recorded _ _ tail => exact tail.answers_length
  | stopped _ _ => simp
  | withdrawn => simp [(onUpstreamCancelled_effects context).1]

/-- A step that sends a final response leaves an answered or a finished context. -/
theorem Step.answered_of_final {context : ResponseContext K.Uri} {input : Input K.Uri}
    {outcome : Outcome K.Uri} (step : Step K context input outcome) {response : Response}
    (sent : response ∈ answers outcome.2) (final : 200 ≤ response.status.code) :
    outcome.1.answered = true ∨ outcome.1.finished = true := by
  cases step with
  | absorbed _ => simp at sent
  | premature _ _ => simp [terminate] at sent
  | minted _ => simp at sent
  | refused request refusal _ => exact .inr (by rw [refuse_fst])
  | held _ _ _ _ _ => simp at sent
  | asked _ _ => simp at sent
  | taken _ tail => exact .inr (tail.finished_of_answers (List.ne_nil_of_mem sent))
  | concluded _ _ => exact .inr (by rw [respondAndFinish_fst])
  | provisional received branch request _ _ _ isProvisional =>
      -- Only the provisional itself is sent.
      rw [(forwardProvisional_effects context request received branch).1,
        List.mem_singleton] at sent
      rw [StatusCode.isProvisional_iff] at isProvisional
      rw [sent, popVia_status] at final
      omega
  | accepted _ _ _ _ _ _ _ => exact .inl rfl
  | rejected received branch _ _ _ _ =>
      rw [finishIfSettled_rejected]
      split
      · exact .inl rfl
      · exact .inr rfl
  | recorded _ _ tail => exact .inr (tail.finished_of_answers (List.ne_nil_of_mem sent))
  | stopped _ _ => simp at sent
  | withdrawn => simp [(onUpstreamCancelled_effects context).1] at sent

/-- Only a 2xx or a 6xx from a branch makes a context answered and leaves it
unfinished. -/
theorem Step.branches_of_answered {context : ResponseContext K.Uri} {input : Input K.Uri}
    {outcome : Outcome K.Uri} (step : Step K context input outcome)
    (answered : outcome.1.answered = true) (unfinished : outcome.1.finished = false) :
    context.answered = true ∨ context.branches ≠ [] := by
  have known_branches : ∀ {branch}, context.knows branch = true → context.branches ≠ [] := by
    intro branch known empty
    simp [knows, empty] at known
  have tail_answered : ∀ {middle : ResponseContext K.Uri} {request : Request K.Uri},
      Tail K middle request outcome → middle.answered = true := by
    intro middle request tail
    cases tail with
    | waits _ => exact answered
    | forks _ _ _ _ => exact answered
    | exhausts _ _ _ => simp [respondAndFinish_fst] at unfinished
    | fails _ _ => simp [respondAndFinish_fst] at unfinished
    | selects _ _ _ _ _ _ _ _ => simp at unfinished
    | ends _ _ => simp at unfinished
  cases step with
  | absorbed _ => exact .inl answered
  | premature _ _ => exact .inl answered
  | minted _ => exact .inl answered
  | refused request refusal _ => simp [refuse_fst] at unfinished
  | held _ _ _ _ _ => exact .inl answered
  | asked determines _ => exact .inl (determines.frame.answered ▸ answered)
  | taken takes tail => exact .inl (takes.frame.answered ▸ tail_answered tail)
  | concluded _ _ => simp [respondAndFinish_fst] at unfinished
  | provisional _ _ _ _ known _ _ => exact .inr (known_branches known)
  | accepted _ _ _ _ known _ _ => exact .inr (known_branches known)
  | rejected _ _ _ _ known _ => exact .inr (known_branches known)
  | recorded _ records tail =>
      obtain ⟨status, final, recordedEq⟩ := records.frame
      have wasAnswered := tail_answered tail
      rw [recordedEq] at wasAnswered
      exact .inl wasAnswered
  | stopped _ _ => exact .inl answered
  | withdrawn =>
      exact .inl ((sameButBranches_onUpstreamCancelled context).answered ▸ answered)

/-- A step that keeps an answered context quiet sends nothing but a 2xx to an
`INVITE`. -/
theorem Step.success_of_quiet {context : ResponseContext K.Uri} {input : Input K.Uri}
    {outcome : Outcome K.Uri} (step : Step K context input outcome)
    (answered : context.answered = true) (branches : context.branches ≠ [])
    (quiet : keepsQuiet K context input = true) :
    ∀ response ∈ answers outcome.2,
      response.status.hundreds = 2 ∧ context.request.map Request.method = some .invite := by
  intro response sent
  cases step with
  | absorbed _ => simp at sent
  | premature _ _ => simp [terminate] at sent
  | minted _ => simp at sent
  | refused request refusal rejected =>
      have dropped : refusal.status = none := by simpa [keepsQuiet, rejected] using quiet
      rw [(refuse_effects context request refusal).1] at sent
      simp [refusalResponse, dropped] at sent
  | held _ _ _ _ _ => simp at sent
  | asked _ _ => simp at sent
  | taken takes tail =>
      rw [tail.answers_of_answered (takes.frame.answered.trans answered)
        (takes.frame.branches ▸ branches)] at sent
      simp at sent
  | concluded _ concludes =>
      cases concludes with
      | noTargets => simp [keepsQuiet] at quiet
      | unavailable => simp [keepsQuiet] at quiet
      | rejected awaiting => simp [keepsQuiet, awaiting] at quiet
  | provisional received branch request _ known notTrying isProvisional =>
      simp [keepsQuiet, known, notTrying, isProvisional] at quiet
  | accepted received branch request requestEq known success isInvite =>
      have sentIs : response = popVia received := by simpa [cancelPending] using sent
      rw [sentIs, popVia_status, requestEq, Option.map_some, isInvite]
      exact ⟨success, rfl⟩
  | rejected received branch _ _ known global =>
      have notTrying : received.status.code ≠ 100 := by
        intro trying
        simp [StatusCode.hundreds, trying] at global
      simp [keepsQuiet, known, notTrying, global] at quiet
  | recorded _ records tail =>
      obtain ⟨status, final, recordedEq⟩ := records.frame
      have silent := tail.answers_of_answered (by rw [recordedEq]; exact answered) (by
        rw [recordedEq]
        simpa [concludeBranch, updateBranch] using branches)
      rw [silent] at sent
      simp at sent
  | stopped _ _ => simp at sent
  | withdrawn => simp [(onUpstreamCancelled_effects context).1] at sent

/-! ## Every run -/

/-- After any run, a context that has sent a final response is answered or
finished, and one that is answered and not finished has branches. -/
theorem answered_after_final (config : ProxyConfig) (inputs : List (Input K.Uri)) :
    ((∃ response ∈ answers (emitted (onInput K) (.new config) inputs),
          200 ≤ response.status.code) →
        (after (onInput K) (.new config) inputs).answered = true ∨
          (after (onInput K) (.new config) inputs).finished = true) ∧
      ((after (onInput K) (.new config) inputs).answered = true →
        (after (onInput K) (.new config) inputs).finished = false →
          (after (onInput K) (.new config) inputs).branches ≠ []) := by
  refine step_induction (coherent_new config)
    (fun effects state =>
      ((∃ response ∈ answers effects, 200 ≤ response.status.code) →
        state.answered = true ∨ state.finished = true) ∧
      (state.answered = true → state.finished = false → state.branches ≠ []))
    ⟨by simp, by simp [ResponseContext.new]⟩
    (fun effects state input outcome holds finished coherent _ step => ?_)
    (along_of_forall (onInput K) (fun _ _ => trivial) _ inputs)
  obtain ⟨answeredOnce, hasBranches⟩ := holds
  have advances := step.advances coherent
  constructor
  · rintro ⟨response, sent, final⟩
    rw [answers_append, List.mem_append] at sent
    rcases sent with earlier | now
    · rcases answeredOnce ⟨response, earlier, final⟩ with answered | ended
      · exact .inl (advances.answered answered)
      · exact .inr (advances.finished ended)
    · exact step.answered_of_final now final
  · intro answered unfinished empty
    have ids := advances.ids
    rw [empty, List.map_nil, eq_comm, List.append_eq_nil_iff, List.map_eq_nil_iff] at ids
    rcases step.branches_of_answered answered unfinished with before | branches
    · exact hasBranches before finished ids.1
    · exact branches ids.1

/-- In a run that keeps its context quiet once it has answered, every step
answers at most once, and nothing but a 2xx to an `INVITE` follows a final
response. -/
theorem finalIsLast_of_quiet (config : ProxyConfig) (inputs : List (Input K.Uri))
    (quiet : Along (onInput K) (QuietOnceAnswered K) (.new config) inputs) :
    FinalIsLast K config inputs := by
  constructor
  · intro past input future split
    cases finished : (after (onInput K) (.new config) past).finished with
    | true => simp [onInput_finished finished]
    | false => exact (onInput_step (coherent_after config past) finished input).answers_length
  · intro past input future split final response sent
    obtain ⟨answeredOnce, hasBranches⟩ := answered_after_final config past
    cases finished : (after (onInput K) (.new config) past).finished with
    | true => simp [onInput_finished finished] at sent
    | false =>
        have answered : (after (onInput K) (.new config) past).answered = true := by
          rcases answeredOnce final with answered | ended
          · exact answered
          · rw [finished] at ended
            contradiction
        have step := onInput_step (coherent_after config past) finished input
        exact step.success_of_quiet answered (hasBranches answered finished)
          ((quiet.at_step split).2 answered finished) response sent

/-- A `200` on the first branch is forwarded, and so is the `180` that the
second, being cancelled, still sends. -/
theorem not_finalIsLast_late_provisional :
    ¬ FinalIsLast Reference.kernel edge
      [.upstream invite,
        .targetsResolved [phone "sip:bob@10.0.0.1" 1000, phone "sip:bob@10.0.0.2" 1000],
        .branchResponse (reply ⟨200, by decide⟩ branchA) branchA,
        .branchResponse (reply ⟨180, by decide⟩ branchB) branchB] := by
  intro isLast
  have later := isLast.later
    [.upstream invite,
      .targetsResolved [phone "sip:bob@10.0.0.1" 1000, phone "sip:bob@10.0.0.2" 1000],
      .branchResponse (reply ⟨200, by decide⟩ branchA) branchA]
    (.branchResponse (reply ⟨180, by decide⟩ branchB) branchB) [] rfl (by decide +kernel)
    (popVia (reply ⟨180, by decide⟩ branchB)) (by decide +kernel)
  exact absurd later.1 (by decide)

/-- When the second branch settles with its `487`, the `200` stays the last. -/
theorem finalIsLast_settled :
    FinalIsLast Reference.kernel edge
      [.upstream invite,
        .targetsResolved [phone "sip:bob@10.0.0.1" 1000, phone "sip:bob@10.0.0.2" 1000],
        .branchResponse (reply ⟨200, by decide⟩ branchA) branchA,
        .branchResponse (reply ⟨487, by decide⟩ branchB) branchB] :=
  finalIsLast_of_quiet edge _ (by decide +kernel)

end SipxClstr.Proxy
