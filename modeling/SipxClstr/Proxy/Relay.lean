import SipxClstr.Proxy.Transparency

/-!
# What a context relays

Over a whole run, every copy that goes out is a transparent copy of a request that arrived, and what
is made here rather than received carries none of the rows that building a response leaves out.
-/

namespace SipxClstr.Proxy

open SipxClstr.Sip ResponseContext Reactive Reactive.Machine

variable (K : Kernel)

/-- Building a response writes no row of this name. -/
def LeavesOut (name : HeaderName) : Prop :=
  ∀ request status reason response, K.toRequest request status reason = some response →
    Headers.getAll response.headers name = []

/-- The names an element writes rows of into the responses it makes. -/
def isWritten (name : HeaderName) : Bool :=
  name ∈ [HeaderName.via, .unsupported, .wwwAuthenticate, .proxyAuthenticate]

variable {K}

/-! ## Copies -/

theorem Determines.original {context determined : ResponseContext K.Uri} {input : Input K.Uri}
    {request : Request K.Uri} (determines : Determines K context input determined request) :
    context.request = some request ∨
      ∃ arrived, input = .upstream arrived ∧ request = (preprocess K arrived context.config).1 := by
  cases determines with
  | arrival arrived validated accepted untokened => exact .inr ⟨arrived, rfl, rfl⟩
  | verdict request tenant awaiting requestEq => exact .inl requestEq

/-- A copy is built from the request held, or from the one that arrives at this step. -/
theorem original_of_mem_plansOf {context : ResponseContext K.Uri} (coherent : Coherent context)
    {input : Input K.Uri} {plan : ForwardPlan K.Uri} (member : plan ∈ plansOf K context input) :
    context.request = some plan.original ∨ ∃ arrived, input = .upstream arrived ∧
      plan.original = (preprocess K arrived context.config).1 := by
  have isRequest : ∀ {forking : ResponseContext K.Uri} {request : Request K.Uri}
      {validated : Validated}, plan ∈ groupPlans K forking request validated →
        plan.original = request := by
    intro forking request validated planned
    obtain ⟨offset, bound, rfl⟩ := List.mem_mapIdx.mp planned
    rfl
  cases onInput_course coherent input with
  | ended finished => simp [plansOf_of_finished finished] at member
  | takes unfinished takes validatedEq forks =>
      rw [plansOf_of_takes unfinished takes validatedEq] at member
      rw [isRequest member]
      cases takes with
      | predetermined determines predetermined => exact determines.original
      | resolved request targets requestEq nonempty => exact .inl requestEq
  | records unfinished requestEq records validatedEq continues =>
      rw [plansOf_of_records unfinished requestEq records validatedEq] at member
      split at member
      · contradiction
      · rw [isRequest member]
        exact .inl requestEq
  | stands unfinished untargeted unrecorded =>
      simp [plansOf_of_stands untargeted unrecorded] at member

/-- The request held is one that arrived, as preprocessing left it. -/
theorem preprocessed_after (config : ProxyConfig) (inputs : List (Input K.Uri))
    {request : Request K.Uri}
    (held : (after (onInput K) (.new config) inputs).request = some request) :
    ∃ arrived, .upstream arrived ∈ inputs ∧ request = (preprocess K arrived config).1 := by
  induction inputs using List.reverseRecOn with
  | nil => contradiction
  | append_singleton past input ih =>
      rw [after_concat] at held
      rcases onInput_request (coherent_after config past) input with same | ⟨arrived, rfl, isArrived⟩
      · rw [same] at held
        obtain ⟨arrived, member, isRequest⟩ := ih held
        exact ⟨arrived, List.mem_append_left _ member, isRequest⟩
      · rw [isArrived, config_after, Option.some.injEq] at held
        exact ⟨arrived, by simp, held.symm⟩

/-- Every copy that goes out in a run is a transparent copy of a request that arrived in it. -/
theorem exists_transparent (accepts : AcceptsNumbers K) (config : ProxyConfig)
    (inputs : List (Input K.Uri)) {copy : Copy K.Uri}
    (member : copy ∈ copies (emitted (onInput K) (.new config) inputs)) :
    ∃ arrived, .upstream arrived ∈ inputs ∧ Transparent arrived copy.request := by
  have originals : ∀ plan ∈ (forkedGroups K config inputs).flatten,
      ∃ arrived, .upstream arrived ∈ inputs ∧
        plan.original = (preprocess K arrived config).1 := by
    clear member
    induction inputs using List.reverseRecOn with
    | nil => exact fun plan member => absurd member List.not_mem_nil
    | append_singleton past input ih =>
        intro plan member
        rw [forkedGroups_concat, List.flatten_concat] at member
        rcases List.mem_append.mp member with before | now
        · obtain ⟨arrived, isPast, isOriginal⟩ := ih plan before
          exact ⟨arrived, List.mem_append_left _ isPast, isOriginal⟩
        · rcases original_of_mem_plansOf (coherent_after config past) now with
            held | ⟨arrived, rfl, isOriginal⟩
          · obtain ⟨arrived, isPast, isOriginal⟩ := preprocessed_after config past held
            exact ⟨arrived, List.mem_append_left _ isPast, isOriginal⟩
          · rw [config_after] at isOriginal
            exact ⟨arrived, by simp, isOriginal⟩
  rw [copies_emitted, List.mem_filterMap] at member
  obtain ⟨plan, planned, built⟩ := member
  obtain ⟨arrived, isInput, isOriginal⟩ := originals plan planned
  refine ⟨arrived, isInput, ?_⟩
  unfold buildCopy at built
  split at built
  · contradiction
  · next branch forwarded nextHop isForwarded =>
      rw [← Option.some.inj built]
      exact forward_transparent accepts isOriginal isForwarded

/-! ## Responses made here -/

theorem getAll_buildResponse {name : HeaderName} (leaves : LeavesOut K name)
    {request : Request K.Uri} {status : Nat} {reason : Text} {response : Response}
    (built : buildResponse K request status reason = some response) :
    Headers.getAll response.headers name = [] := by
  obtain ⟨code, -, answered⟩ := buildResponse_eq_some built
  exact leaves request code reason response answered

theorem getAll_popVia {name : HeaderName} (notVia : name ≠ .via) (response : Response) :
    Headers.getAll (popVia response).headers name = Headers.getAll response.headers name :=
  Headers.getAll_removeFirst_of_ne _ notVia

/-- What is made here carries no row that is neither built nor written. -/
theorem MadeHere.getAll {name : HeaderName} (leaves : LeavesOut K name)
    (unwritten : isWritten name = false) {response : Response} (made : MadeHere K response) :
    Headers.getAll response.headers name = [] := by
  simp only [isWritten, decide_eq_false_iff_not, List.mem_cons, List.not_mem_nil, or_false,
    not_or] at unwritten
  obtain ⟨notVia, notUnsupported, notUnauthorized, notProxy⟩ := unwritten
  cases made with
  | answer request status reason response built => exact getAll_buildResponse leaves built
  | refusal request refusal response refused =>
      simp only [refusalResponse, Option.bind_eq_bind, Option.bind_eq_some_iff, Option.pure_def,
        Option.some.injEq] at refused
      obtain ⟨status, -, base, built, extended⟩ := refused
      rw [← extended, ← getAll_buildResponse leaves built]
      unfold withUnsupported
      split
      · split
        · next tags header named =>
            apply Headers.getAll_push_of_ne
            rw [Header.build_name named]
            exact Ne.symm notUnsupported
        · rfl
      · rfl
  | final request status reason response built =>
      rw [getAll_popVia notVia]
      exact getAll_buildResponse leaves built
  | challenges context request status response aggregated =>
      rw [getAll_popVia notVia]
      simp only [aggregateChallenges, Option.bind_eq_bind, Option.bind_eq_some_iff, Option.pure_def,
        Option.some.injEq] at aggregated
      obtain ⟨base, built, extended⟩ := aggregated
      rw [← extended, Headers.getAll_append, getAll_buildResponse leaves built, List.nil_append]
      apply List.filter_eq_nil_iff.mpr
      intro header member isName
      obtain ⟨final, -, challenge⟩ := List.mem_flatMap.mp member
      have named := of_decide_eq_true (List.mem_filter.mp challenge).2
      rw [of_decide_eq_true isName] at named
      split at named
      · exact notUnauthorized named
      · exact notProxy named

end SipxClstr.Proxy
