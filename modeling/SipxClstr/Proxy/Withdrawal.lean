import SipxClstr.Proxy.Reachable

/-!
# After a CANCEL

C7 concludes the target set of a request the caller withdrew by emptying the
queue.  Nothing is forked from an empty queue; what can still forward a
withdrawn request is a target set that is taken up afterwards.
-/

namespace SipxClstr.Proxy

open SipxClstr.Sip ResponseContext Reactive Reactive.Machine

variable (K : Kernel)

/-- At this step an unfinished context is handed no target. -/
def NoTargets (context : ResponseContext K.Uri) (input : Input K.Uri) : Prop :=
  context.finished = false → (targetedBy K context input).isNone = true

instance (context : ResponseContext K.Uri) (input : Input K.Uri) :
    Decidable (NoTargets K context input) :=
  inferInstanceAs (Decidable (_ → _))

variable {K}

/-- From an empty queue a tail forwards nothing and leaves the queue empty. -/
theorem Tail.launches_of_queued_nil {context : ResponseContext K.Uri} {request : Request K.Uri}
    {outcome : Outcome K.Uri} (tail : Tail K context request outcome)
    (noQueue : context.queued = []) : launches outcome.2 = [] ∧ outcome.1.queued = [] := by
  cases tail with
  | waits _ => exact ⟨rfl, noQueue⟩
  | forks _ _ queued _ => exact absurd noQueue queued
  | exhausts _ _ _ => simp [respondAndFinish_fst, forkedContext, noQueue]
  | fails _ _ => simp [respondAndFinish_fst, noQueue]
  | selects _ _ _ _ _ _ _ _ => exact ⟨rfl, noQueue⟩
  | ends _ _ => exact ⟨rfl, noQueue⟩

/-- A context with no queue that is handed no target forwards nothing, and still
has no queue. -/
theorem Step.launches_of_noTargets {context : ResponseContext K.Uri} {input : Input K.Uri}
    {outcome : Outcome K.Uri} (step : Step K context input outcome)
    (noQueue : context.queued = [])
    (noTargets : (targetedBy K context input).isNone = true) :
    launches outcome.2 = [] ∧ outcome.1.queued = [] := by
  cases step with
  | absorbed _ => exact ⟨rfl, noQueue⟩
  | premature _ _ => exact ⟨rfl, noQueue⟩
  | minted _ => exact ⟨rfl, noQueue⟩
  | refused request refusal _ =>
      rw [refuse_fst]
      exact ⟨(refuse_effects context request refusal).2.2.1, noQueue⟩
  | held _ _ _ _ _ => exact ⟨rfl, noQueue⟩
  | asked determines _ =>
      cases determines <;> exact ⟨rfl, noQueue⟩
  | taken takes _ =>
      rw [takes.targetedBy_eq] at noTargets
      contradiction
  | concluded _ concludes =>
      rw [respondAndFinish_fst]
      cases concludes <;> exact ⟨launches_respondAndFinish _ _ _ _, noQueue⟩
  | provisional response branch request _ _ _ _ =>
      have same := sameButBranches_forwardProvisional context request response branch
      exact ⟨(forwardProvisional_effects context request response branch).2.2.1,
        same.queued.trans noQueue⟩
  | accepted _ _ _ _ _ _ _ => simp [cancelPending, acceptedContext]
  | rejected response branch _ _ _ _ =>
      rw [finishIfSettled_rejected]
      split <;> simp [cancelPending, rejectedContext]
  | recorded _ records tail =>
      obtain ⟨status, final, recordedEq⟩ := records.frame
      exact tail.launches_of_queued_nil (by rw [recordedEq]; exact noQueue)
  | stopped _ _ => exact ⟨rfl, noQueue⟩
  | withdrawn =>
      exact ⟨(onUpstreamCancelled_effects context).2.2.1,
        (sameButBranches_onUpstreamCancelled context).queued⟩

/-- A run that starts with nothing queued and is handed no target forwards
nothing. -/
theorem launches_of_noTargets {start : ResponseContext K.Uri} (coherent : Coherent start)
    (noQueue : start.finished = true ∨ start.queued = []) {inputs : List (Input K.Uri)}
    (noTargets : Along (onInput K) (NoTargets K) start inputs) :
    launches (emitted (onInput K) start inputs) = [] := by
  have invariant := step_induction coherent
    (fun effects state => (state.finished = true ∨ state.queued = []) ∧ launches effects = [])
    ⟨noQueue, rfl⟩
    (fun effects state input outcome holds unfinished _ handsNone step => by
      have empty := holds.1.resolve_left (by simp [unfinished])
      have next := step.launches_of_noTargets empty (handsNone unfinished)
      exact ⟨.inr next.2, by rw [launches_append, holds.2, next.1]; rfl⟩)
    noTargets
  exact invariant.2

/-- Wherever a CANCEL arrives in a run, neither it nor any later input forwards
anything, as long as no later input hands the withdrawn request a target. -/
theorem withdrawn_forwards_nothing (config : ProxyConfig) (past later : List (Input K.Uri))
    (noTargets : Along (onInput K) (NoTargets K)
      (after (onInput K) (.new config) (past ++ [.upstreamCancelled])) later) :
    launches (emitted (onInput K) (after (onInput K) (.new config) past)
      (.upstreamCancelled :: later)) = [] := by
  have coherent := coherent_after config past
  rw [after_append, after_cons, after_nil] at noTargets
  rw [emitted_cons, launches_append, List.append_eq_nil_iff]
  generalize after (onInput K) (.new config) past = state at *
  have advances := onInput_advances coherent .upstreamCancelled
  cases finished : state.finished with
  | true =>
      rw [onInput_finished finished] at noTargets ⊢
      exact ⟨rfl, launches_of_noTargets coherent (.inl finished) noTargets⟩
  | false =>
      have cancelled : onInput K state .upstreamCancelled = onUpstreamCancelled state := by
        simp [onInput, finished]
      rw [cancelled] at noTargets advances ⊢
      exact ⟨(onUpstreamCancelled_effects state).2.2.1,
        launches_of_noTargets advances.coherent
          (.inr (sameButBranches_onUpstreamCancelled state).queued) noTargets⟩

/-- A location answer that arrives after the CANCEL is forwarded. -/
theorem not_withdrawn_forwards_nothing :
    launches (emitted (onInput Reference.kernel)
      (after (onInput Reference.kernel) (.new edge) [.upstream invite])
      [.upstreamCancelled, .targetsResolved [phone "sip:bob@10.0.0.1" 1000]]) ≠ [] := by
  decide +kernel

/-- A CANCEL between two `q` groups: the second group never goes out. -/
theorem withdrawn_between_groups :
    launches (emitted (onInput Reference.kernel)
      (after (onInput Reference.kernel) (.new edge)
        [.upstream invite,
          .targetsResolved [phone "sip:bob@10.0.0.1" 1000, phone "sip:bob@10.0.0.2" 500]])
      [.upstreamCancelled,
        .branchResponse (reply ⟨180, by decide⟩ branchA) branchA,
        .branchResponse (reply ⟨487, by decide⟩ branchA) branchA]) = [] :=
  withdrawn_forwards_nothing edge _ _ (by decide +kernel)

end SipxClstr.Proxy
