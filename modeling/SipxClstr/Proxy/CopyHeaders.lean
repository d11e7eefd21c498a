import SipxClstr.Proxy.Forward
import SipxClstr.Sip.Utf8

/-!
# What a copy carries

A built copy is taken apart into the edits it went through, and the rows that
each edit leaves alone are kept.
-/

namespace SipxClstr.Proxy

open SipxClstr.Sip

variable {K : Kernel}

/-! ## Rows an edit is not about -/

theorem getAll_setHeader_self (headers : Headers) (name : HeaderName) (value : Text) :
    Headers.getAll (setHeader K headers name value) name =
      (Header.build K name (utf8 value)).toList := by
  have cleared : Headers.getAll (Headers.removeAll headers name) name = [] := by
    simp [Headers.getAll, Headers.removeAll, List.filter_filter]
  unfold setHeader
  simp only
  split
  · next header built =>
      have named := Header.build_name built
      rw [built]
      simpa [Headers.getAll, Headers.pushFront, named] using cleared
  · next unbuilt =>
      rw [unbuilt]
      exact cleared

theorem getAll_setHeader_of_ne {name set : HeaderName} (different : name ≠ set)
    (headers : Headers) (value : Text) :
    Headers.getAll (setHeader K headers set value) name = Headers.getAll headers name := by
  unfold setHeader
  simp only
  split
  · next header built =>
      rw [Headers.getAll_pushFront_of_ne, Headers.getAll_removeAll_of_ne _ different]
      rw [Header.build_name built]
      exact different.symm
  · exact Headers.getAll_removeAll_of_ne _ different

theorem getAll_pushRecordRoutes {name : HeaderName} (different : name ≠ .recordRoute)
    {headers pushed : Headers} {values : List Text}
    (ok : pushRecordRoutes K headers values = .ok pushed) :
    Headers.getAll pushed name = Headers.getAll headers name := by
  induction values generalizing headers with
  | nil =>
      rw [← Except.ok.inj ok]
  | cons value rest ih =>
      unfold pushRecordRoutes at ok
      split at ok
      · next header built =>
          have named := Header.build_name built
          rw [ih ok, Headers.getAll_pushFront_of_ne]
          rw [named]
          exact different.symm
      · contradiction

theorem getAll_pushRouteSet {name : HeaderName} (different : name ≠ .route) (headers : Headers)
    (routeSet : List Bytes) :
    Headers.getAll (pushRouteSet K headers routeSet) name = Headers.getAll headers name := by
  rw [pushRouteSet, Headers.getAll_append, List.append_left_eq_self]
  simp only [Headers.getAll, List.filter_eq_nil_iff, List.mem_filterMap, decide_eq_true_eq]
  rintro header ⟨route, _, built⟩ named
  exact different (named.symm.trans (Header.build_name built))

theorem getAll_applyStrictRouteSwap {name : HeaderName} (different : name ≠ .route)
    (request : Request K.Uri) :
    Headers.getAll (applyStrictRouteSwap K request).1.headers name =
      Headers.getAll request.headers name := by
  unfold applyStrictRouteSwap
  split
  · rfl
  · split
    · rfl
    · split
      · rfl
      · exact getAll_setRoutes different request _

/-! ## The edits of a copy -/

/-- F3: the copy's headers with the hop limits of this hop. -/
def hopHeaders (K : Kernel) (plan : ForwardPlan K.Uri) : Headers :=
  setHeader K (setHeader K plan.original.headers .maxForwards
    (decimal (plan.validated.maxForwards - 1))) .maxBreadth
      (decimal (breadthShare plan.validated plan.parallelBranches))

/-- F4: the copy's headers with the `Record-Route` stamps, where it is stamped. -/
def stampedHeaders (K : Kernel) (plan : ForwardPlan K.Uri) (config : ProxyConfig) :
    Except ForwardError Headers :=
  if plan.recordRoute then do
    let values ← recordRouteValues config plan.tokens
    pushRecordRoutes K (hopHeaders K plan) values
  else pure (hopHeaders K plan)

/-- F6: the stamped copy toward its target, and whether it was reformatted. -/
def routedCopy (K : Kernel) (plan : ForwardPlan K.Uri) (uri : K.Uri) (stamped : Headers) :
    Request K.Uri × Bool :=
  applyStrictRouteSwap K { plan.original with
    uri := uri, headers := pushRouteSet K stamped plan.target.routeSet }

/-- A copy is stamped, turned toward its target, and given our `Via`. -/
theorem forward_eq (plan : ForwardPlan K.Uri) (config : ProxyConfig) :
    forward K plan config =
      (K.parseUri plan.target.uri).elim (.error .badTarget) (fun uri =>
        stampedHeaders K plan config >>= fun stamped =>
          (Header.build K .via (viaValue config
              (branchFor K config plan.validated.cookieInput plan.index))).elim
            (.error .badRecordRoute) (fun via =>
              .ok (⟨branchFor K config plan.validated.cookieInput plan.index⟩,
                { (routedCopy K plan uri stamped).1 with
                  headers := Headers.pushFront (routedCopy K plan uri stamped).1.headers via },
                nextHopOf K { (routedCopy K plan uri stamped).1 with
                  headers := Headers.pushFront (routedCopy K plan uri stamped).1.headers via }
                  (routedCopy K plan uri stamped).2))) := by
  unfold forward stampedHeaders hopHeaders
  cases K.parseUri plan.target.uri with
  | none => rfl
  | some uri =>
      cases plan.recordRoute with
      | false =>
          simp only [bind, Except.bind, pure, Except.pure, Bool.false_eq_true, if_false]
          cases Header.build K .via (viaValue config
            (branchFor K config plan.validated.cookieInput plan.index)) <;> rfl
      | true =>
          simp only [bind, Except.bind, pure, Except.pure, if_true]
          cases recordRouteValues config plan.tokens with
          | error refused => rfl
          | ok values =>
              simp only
              cases stamping : pushRecordRoutes K
                  (setHeader K (setHeader K plan.original.headers .maxForwards
                    (decimal (plan.validated.maxForwards - 1))) .maxBreadth
                    (decimal (breadthShare plan.validated plan.parallelBranches))) values with
              | error refused =>
                  rfl
              | ok stamped =>
                  cases Header.build K .via (viaValue config
                    (branchFor K config plan.validated.cookieInput plan.index)) <;> rfl

/-- What a built copy is made of. -/
theorem forward_eq_ok {plan : ForwardPlan K.Uri} {config : ProxyConfig} {branch : BranchId}
    {request : Request K.Uri} {nextHop : Bytes}
    (built : forward K plan config = .ok (branch, request, nextHop)) :
    ∃ uri stamped via, K.parseUri plan.target.uri = some uri ∧
      stampedHeaders K plan config = .ok stamped ∧
      Header.build K .via (viaValue config
        (branchFor K config plan.validated.cookieInput plan.index)) = some via ∧
      branch = ⟨branchFor K config plan.validated.cookieInput plan.index⟩ ∧
      nextHop = nextHopOf K request (routedCopy K plan uri stamped).2 ∧
      request = { (routedCopy K plan uri stamped).1 with
        headers := Headers.pushFront (routedCopy K plan uri stamped).1.headers via } := by
  rw [forward_eq] at built
  cases parsed : K.parseUri plan.target.uri with
  | none =>
      rw [parsed] at built
      contradiction
  | some uri =>
      rw [parsed] at built
      cases stamping : stampedHeaders K plan config with
      | error refused =>
          rw [stamping] at built
          contradiction
      | ok stamped =>
          rw [stamping] at built
          cases pushed : Header.build K .via (viaValue config
              (branchFor K config plan.validated.cookieInput plan.index)) with
          | none =>
              rw [pushed] at built
              contradiction
          | some via =>
              rw [pushed] at built
              cases built
              exact ⟨uri, stamped, via, rfl, rfl, rfl, rfl, rfl, rfl⟩

/-- F4 edits no row but `Record-Route`. -/
theorem getAll_stampedHeaders_hop {name : HeaderName} (notRecordRoute : name ≠ .recordRoute)
    {plan : ForwardPlan K.Uri} {config : ProxyConfig} {stamped : Headers}
    (stamping : stampedHeaders K plan config = .ok stamped) :
    Headers.getAll stamped name = Headers.getAll (hopHeaders K plan) name := by
  unfold stampedHeaders at stamping
  split at stamping
  · cases values : recordRouteValues config plan.tokens with
    | error refused => simp [values, bind, Except.bind] at stamping
    | ok values' =>
        simp only [values, bind, Except.bind] at stamping
        exact getAll_pushRecordRoutes notRecordRoute stamping
  · rw [Except.ok.inj stamping]

/-- Up to F4 only the hop limits and `Record-Route` are edited. -/
theorem getAll_stampedHeaders {name : HeaderName} (notForwards : name ≠ .maxForwards)
    (notBreadth : name ≠ .maxBreadth) (notRecordRoute : name ≠ .recordRoute)
    {plan : ForwardPlan K.Uri} {config : ProxyConfig} {stamped : Headers}
    (stamping : stampedHeaders K plan config = .ok stamped) :
    Headers.getAll stamped name = Headers.getAll plan.original.headers name := by
  rw [getAll_stampedHeaders_hop notRecordRoute stamping, hopHeaders,
    getAll_setHeader_of_ne notBreadth, getAll_setHeader_of_ne notForwards]

/-- From F4 on only `Route` and `Via` are edited, and our `Via` goes on top. -/
theorem getAll_routedCopy {name : HeaderName} (notRoute : name ≠ .route)
    (plan : ForwardPlan K.Uri) (uri : K.Uri) (stamped : Headers) :
    Headers.getAll (routedCopy K plan uri stamped).1.headers name = Headers.getAll stamped name := by
  rw [routedCopy, getAll_applyStrictRouteSwap notRoute, getAll_pushRouteSet notRoute]

/-- A copy carries its share of `Max-Breadth`, where the kernel accepts it. -/
theorem getAll_maxBreadth_forward {plan : ForwardPlan K.Uri} {config : ProxyConfig}
    {branch : BranchId} {request : Request K.Uri} {nextHop : Bytes}
    (built : forward K plan config = .ok (branch, request, nextHop)) :
    Headers.getAll request.headers .maxBreadth =
      (Header.build K .maxBreadth
        (utf8 (decimal (breadthShare plan.validated plan.parallelBranches)))).toList := by
  obtain ⟨uri, stamped, via, -, stamping, pushed, -, -, rfl⟩ := forward_eq_ok built
  have notVia : via.name ≠ .maxBreadth := by
    rw [Header.build_name pushed]
    decide
  rw [Headers.getAll_pushFront_of_ne _ notVia, getAll_routedCopy (by decide),
    getAll_stampedHeaders_hop (by decide) stamping]
  exact getAll_setHeader_self _ _ _

/-- `Header::build` accepts a number under every name. -/
def AcceptsNumbers (K : Kernel) : Prop :=
  ∀ name value, K.acceptsValue name (utf8 (decimal value)) = true

/-- A number written under a name is read back from it. -/
theorem headerNumber_of_getAll {request : Request K.Uri} {name : HeaderName} {max value : Nat}
    (rows : Headers.getAll request.headers name = [⟨name, utf8 (decimal value)⟩])
    (fits : value ≤ max) : headerNumber K max request name = some value := by
  have digits : ∀ c ∈ decimal value, isWhitespace c = false :=
    fun _ member => isWhitespace_of_isDigit (isDigit_of_mem_decimal member)
  simp [headerNumber, Headers.value, Headers.get, rows, trim_eq_self digits,
    parseUnsigned_decimal fits]

/-- The `Max-Breadth` a copy carries is its share. -/
theorem headerNumber_maxBreadth_forward (accepts : AcceptsNumbers K) {plan : ForwardPlan K.Uri}
    {config : ProxyConfig} {branch : BranchId} {request : Request K.Uri} {nextHop : Bytes}
    (built : forward K plan config = .ok (branch, request, nextHop))
    (fits : breadthShare plan.validated plan.parallelBranches ≤ u32Max) :
    headerNumber K u32Max request .maxBreadth =
      some (breadthShare plan.validated plan.parallelBranches) := by
  apply headerNumber_of_getAll _ fits
  rw [getAll_maxBreadth_forward built, Header.build, if_pos (accepts _ _)]
  rfl

end SipxClstr.Proxy
