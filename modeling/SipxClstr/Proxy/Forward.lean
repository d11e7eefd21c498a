import SipxClstr.Proxy.Route
import SipxClstr.Proxy.Validate

/-!
# Building the forwarded request

Everything untouched keeps its bytes; the edits below are the ones RFC 3261
§16.6 lists, in the order it lists them.
-/

namespace SipxClstr.Proxy

open SipxClstr.Sip

/-- The size budget of the token parameter. -/
def tokenParamBudget : Nat := 200

/-- What is needed to forward one copy. -/
structure ForwardPlan (Uri : Type) where
  original : Request Uri
  validated : Validated
  target : Target
  /-- Which fork this is, for the branch's unique part. -/
  index : Nat
  /-- How many branches share this request's `Max-Breadth`. -/
  parallelBranches : Nat
  recordRoute : Bool
  tokens : Option RecordRouteTokens

/-- Why a copy could not be built. -/
inductive ForwardError where
  | badTarget
  | tokenTooLarge (size : Nat)
  | badRecordRoute
  deriving DecidableEq, Repr

/-- The host part of the configured `Record-Route`, for the `Via` sent-by. -/
def ProxyConfig.recordRouteHost (config : ProxyConfig) : Text :=
  let trimmed := ((fromUtf8Lossy config.recordRouteUri).dropWhile (· = '<')).rdropWhile (· = '>')
  let inner := trimmed.takeWhile (· ≠ ';')
  if ':' ∈ inner then (inner.dropWhile (· ≠ ':')).drop 1 else inner

/-- The `Record-Route` value: the configured URI with the token parameter added. -/
def recordRouteValue (config : ProxyConfig) : Option Bytes → Except ForwardError Text
  | none => .ok (fromUtf8Lossy config.recordRouteUri)
  | some token =>
      let base := fromUtf8Lossy config.recordRouteUri
      let parameter := [';'] ++ tokenParam ++ ['='] ++ fromUtf8Lossy token
      if tokenParamBudget < (utf8 parameter).length then
        .error (.tokenTooLarge (utf8 parameter).length)
      else if '>' ∈ base then
        -- Inside the last closing bracket, so that the parameter is the URI's.
        let opening := (base.rdropWhile (· ≠ '>')).dropLast
        .ok (opening ++ parameter ++ ['>'] ++ base.rtakeWhile (· ≠ '>'))
      else
        .ok (['<'] ++ base ++ parameter ++ ['>'])

/-- The `Record-Route` values to push, in push order: ORIG first, so that TERM
ends up on top. -/
def recordRouteValues (config : ProxyConfig) :
    Option RecordRouteTokens → Except ForwardError (List Text)
  | none => .ok [fromUtf8Lossy config.recordRouteUri]
  | some tokens => do
      let originating ← recordRouteValue config (some tokens.originating)
      let terminating ← recordRouteValue config (some tokens.terminating)
      return [originating, terminating]

variable (K : Kernel)

/-- Replace a single-valued header, or add it if absent. -/
def setHeader (headers : Headers) (name : HeaderName) (value : Text) : Headers :=
  let others := Headers.removeAll headers name
  match Header.build K name (utf8 value) with
  | some header => Headers.pushFront others header
  | none => others

/-- F4: push each `Record-Route` value to the front, in order. -/
def pushRecordRoutes (headers : Headers) : List Text → Except ForwardError Headers
  | [] => .ok headers
  | value :: rest =>
      match Header.build K .recordRoute (utf8 value) with
      | some header => pushRecordRoutes (Headers.pushFront headers header) rest
      | none => .error .badRecordRoute

/-- A route of a target's route set as a header value; a bare URI is bracketed. -/
def routeSetValue (route : Bytes) : Bytes :=
  if route.head? = some 0x3C then utf8 (fromUtf8Lossy route)
  else utf8 (['<'] ++ fromUtf8Lossy route ++ ['>'])

/-- The target's route set ahead of every `Route` that survived preprocessing. -/
def pushRouteSet (headers : Headers) (routeSet : List Bytes) : Headers :=
  (routeSet.filterMap fun route => Header.build K .route (routeSetValue route)) ++ headers

/-- F6: if the next hop is a strict router, the Request-URI moves to the end of
the `Route` set and the first `Route` becomes the Request-URI.  Returns whether
it did. -/
def applyStrictRouteSwap (request : Request K.Uri) : Request K.Uri × Bool :=
  match routesOf K request with
  | [] => (request, false)
  | first :: rest =>
      match K.parseAddress first with
      | none => (request, false)
      | some address =>
          if K.hasParam address.uri lrParam then
            (request, false)
          else
            let requestUri := utf8 (['<'] ++ fromUtf8Lossy (K.uriBytes request.uri) ++ ['>'])
            ({ setRoutes K request (rest ++ [requestUri]) with uri := address.uri }, true)

/-- F8's `Via` value. -/
def viaValue (config : ProxyConfig) (branch : Text) : Bytes :=
  utf8 (text "SIP/2.0/UDP " ++ config.recordRouteHost ++ text ";branch=" ++ branch)

/-- F3's share of `Max-Breadth`: the incoming value divided across the parallel
branches, each getting at least 1. -/
def breadthShare (validated : Validated) (parallelBranches : Nat) : Nat :=
  max (validated.maxBreadth / max parallelBranches 1) 1

/-- Build one forwarded copy, the branch it goes out on, and F7's next hop. -/
def forward (plan : ForwardPlan K.Uri) (config : ProxyConfig) :
    Except ForwardError (BranchId × Request K.Uri × Bytes) := do
  -- F2
  let some uri := K.parseUri plan.target.uri | throw .badTarget
  -- F3
  let headers := setHeader K plan.original.headers .maxForwards
    (decimal (plan.validated.maxForwards - 1))
  let headers := setHeader K headers .maxBreadth
    (decimal (breadthShare plan.validated plan.parallelBranches))
  -- F4
  let headers ← if plan.recordRoute then do
      let values ← recordRouteValues config plan.tokens
      pushRecordRoutes K headers values
    else pure headers
  let headers := pushRouteSet K headers plan.target.routeSet
  -- F6
  let (request, reformatted) := applyStrictRouteSwap K { plan.original with uri, headers }
  -- F8
  let branch := branchFor K config plan.validated.cookieInput plan.index
  let some via := Header.build K .via (viaValue config branch) | throw .badRecordRoute
  let request := { request with headers := Headers.pushFront request.headers via }
  -- F7
  return (⟨branch⟩, request, nextHopOf K request reformatted)

/-- A copy goes out on the branch its index and the request's routing state name. -/
theorem forward_branch {K : Kernel} {plan : ForwardPlan K.Uri} {config : ProxyConfig}
    {branch : BranchId} {request : Request K.Uri} {nextHop : Bytes}
    (built : forward K plan config = .ok (branch, request, nextHop)) :
    branch = ⟨branchFor K config plan.validated.cookieInput plan.index⟩ := by
  unfold forward at built
  simp only [bind, Except.bind, pure, Except.pure, throw, throwThe, MonadExceptOf.throw] at built
  grind

/-- F8: the copy carries our `Via` on top. -/
theorem forward_via {K : Kernel} {plan : ForwardPlan K.Uri} {config : ProxyConfig}
    {branch : BranchId} {request : Request K.Uri} {nextHop : Bytes}
    (built : forward K plan config = .ok (branch, request, nextHop)) :
    request.headers.head? = some ⟨.via, viaValue config branch.branch⟩ := by
  unfold forward at built
  simp only [bind, Except.bind, pure, Except.pure, throw, throwThe, MonadExceptOf.throw] at built
  split at built
  · split at built
    · split at built
      · contradiction
      split at built
      · contradiction
      split at built
      · next isVia =>
          rw [Header.eq_of_build isVia] at built
          cases built
          rfl
      · contradiction
    · split at built
      · next isVia =>
          rw [Header.eq_of_build isVia] at built
          cases built
          rfl
      · contradiction
  · contradiction

end SipxClstr.Proxy
