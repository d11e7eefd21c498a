import SipxClstr.Proxy.Reachable

/-!
# Forwarding of a late 2xx

R5 forwards a 2xx to an `INVITE` immediately and always.  A finished context
takes nothing in, so what is forwarded always is a 2xx that reaches a context
that has not finished.
-/

namespace SipxClstr.Proxy

open SipxClstr.Sip ResponseContext Reactive Reactive.Machine

variable {K : Kernel}

/-- A 2xx is not a provisional, not a `100` and not a `503`. -/
theorem success_code {status : StatusCode} (success : status.hundreds = 2) :
    200 ≤ status.code ∧ status.code < 300 := by
  simp only [StatusCode.hundreds] at success
  omega

/-- R5, for one step: a 2xx on a known branch of an `INVITE` goes upstream with
our `Via` popped, and nothing else does. -/
theorem answers_of_success {context : ResponseContext K.Uri} (coherent : Coherent context)
    (unfinished : context.finished = false)
    (isInvite : ∀ request, context.request = some request → request.method = .invite)
    {response : Response} {branch : BranchId} (known : context.knows branch = true)
    (success : response.status.hundreds = 2) :
    answers (onInput K context (.branchResponse response branch)).2 = [popVia response] := by
  obtain ⟨low, high⟩ := success_code success
  have step := onInput_step coherent unfinished (.branchResponse response branch)
  generalize onInput K context (.branchResponse response branch) = outcome at step ⊢
  cases step with
  | absorbed absorbs =>
      rcases absorbs.2 with unknown | trying
      · rw [known] at unknown
        contradiction
      · omega
  | premature _ absent =>
      have forwarded : context.branches ≠ [] := by
        intro empty
        simp [knows, empty] at known
      have some_ := coherent.branches forwarded
      rw [absent] at some_
      contradiction
  | asked determines _ => cases determines
  | taken takes _ =>
      cases takes with
      | predetermined determines _ => cases determines
  | concluded _ concludes => cases concludes
  | provisional _ _ _ _ _ _ isProvisional =>
      rw [StatusCode.isProvisional_iff] at isProvisional
      omega
  | accepted _ _ _ _ _ _ _ => simp [cancelPending]
  | rejected _ _ _ _ _ global =>
      rw [success] at global
      contradiction
  | recorded requestEq records _ =>
      cases records with
      | received _ _ _ _ _ notAccepted _ =>
          exact absurd ⟨success, isInvite _ requestEq⟩ notAccepted
      | unavailable _ _ _ failed => omega

/-- In every run over an `INVITE`, a 2xx delivered for a forwarded branch goes
upstream, once and on its own, exactly when the context has not finished. -/
theorem accepted_iff_unfinished (config : ProxyConfig) (inputs : List (Input K.Uri))
    (isInvite : ∀ request, .upstream request ∈ inputs → request.method = .invite)
    (branch : BranchId)
    (forwarded : branch ∈ launches (emitted (onInput K) (.new config) inputs))
    (response : Response) (success : response.status.hundreds = 2) :
    answers (onInput K (after (onInput K) (.new config) inputs)
        (.branchResponse response branch)).2 = [popVia response] ↔
      (after (onInput K) (.new config) inputs).finished = false := by
  constructor
  · intro answered
    by_contra finished
    rw [Bool.not_eq_false] at finished
    rw [onInput_finished finished] at answered
    contradiction
  · intro unfinished
    apply answers_of_success (coherent_after config inputs) unfinished ?_
      ((knows_after_iff config inputs branch).mpr forwarded) success
    intro request held
    obtain ⟨arrived, _, member, requestEq⟩ := request_after config inputs held
    rw [requestEq, preprocess_method]
    exact isInvite arrived member

/-- A branch that stayed silent until Timer C is concluded as a timeout, the
context answers and finishes, and the `200` that arrives next is not forwarded. -/
theorem not_accepted_after_timeout :
    branchA ∈ launches (emitted (onInput Reference.kernel) (.new edge)
        [.upstream invite, .targetsResolved [phone "sip:bob@10.0.0.1" 1000],
          .timerFired .c (some branchA)]) ∧
      answers (onInput Reference.kernel (after (onInput Reference.kernel) (.new edge)
          [.upstream invite, .targetsResolved [phone "sip:bob@10.0.0.1" 1000],
            .timerFired .c (some branchA)])
          (.branchResponse (reply ⟨200, by decide⟩ branchA) branchA)).2 ≠
        [popVia (reply ⟨200, by decide⟩ branchA)] := by
  decide +kernel

/-- Before anything else is heard, the branch's `200` is forwarded. -/
theorem accepted_first :
    answers (onInput Reference.kernel (after (onInput Reference.kernel) (.new edge)
        [.upstream invite, .targetsResolved [phone "sip:bob@10.0.0.1" 1000]])
        (.branchResponse (reply ⟨200, by decide⟩ branchA) branchA)).2 =
      [popVia (reply ⟨200, by decide⟩ branchA)] :=
  (accepted_iff_unfinished edge
    [.upstream invite, .targetsResolved [phone "sip:bob@10.0.0.1" 1000]]
    (by
      intro request member
      simp only [List.mem_cons, Input.upstream.injEq, reduceCtorEq, List.not_mem_nil,
        or_false] at member
      rw [member]
      rfl)
    branchA (by decide +kernel) _ rfl).mpr (by decide +kernel)

end SipxClstr.Proxy
