import SipxClstr.Proxy.Types

/-!
# Route preprocessing, target determination and the next hop

The routing decisions that the response context and the `ACK` path share.
Which URI the next hop is is decided here; which address it resolves to is the
driver's.
-/

namespace SipxClstr.Proxy

open SipxClstr.Sip

/-- The affinity token's URI parameter. -/
def tokenParam : Text :=
  text "aft"

/-- The `q` a predetermined target carries. -/
def soleTargetQ : Nat := 1000

/-- The URI parameter a loose router advertises. -/
def lrParam : Text :=
  text "lr"

variable (K : Kernel)

/-- Every `Route` row's value, in order. -/
def routesOf (request : Request K.Uri) : List Bytes :=
  (Headers.getAll request.headers .route).map Header.value

/-- Append one row for every value a header can be built from. -/
def pushRoutes (headers : Headers) (values : List Bytes) : Headers :=
  headers ++ values.filterMap fun value => Header.build K .route value

/-- Replace the whole `Route` set with `values`, in order. -/
def setRoutes (request : Request K.Uri) (values : List Bytes) : Request K.Uri :=
  { request with headers := pushRoutes K (Headers.removeAll request.headers .route) values }

/-- The token parameter's value on a platform URI. -/
def tokenOf (uri : K.Uri) : Option Bytes :=
  K.paramValue uri tokenParam

/-- Whether the Request-URI is a value this platform placed in a `Record-Route`:
one of its hosts, no user part, and `lr`. -/
def isOurRecordRouteValue (request : Request K.Uri) (config : ProxyConfig) : Bool :=
  config.isOurs K request.uri && (K.user request.uri).isNone && K.hasParam request.uri lrParam

/-- P1's recovery: the URI of the last `Route`, when that `Route` parses. -/
def lastRoute (request : Request K.Uri) : Option K.Uri := do
  let last ← (routesOf K request).getLast?
  let address ← K.parseAddress last
  some address.uri

/-- P1: a strict-routing predecessor put our `Record-Route` value in the
Request-URI, so the real Request-URI is the last `Route`. -/
def recoverStrictRouting (request : Request K.Uri) (config : ProxyConfig) : Request K.Uri :=
  if isOurRecordRouteValue K request config then
    match lastRoute K request with
    | some uri => setRoutes K { request with uri } (routesOf K request).dropLast
    | none => request
  else
    request

/-- The tokens of the leading `Route`s that name this platform.  The scan stops
at the first value that does not parse or is not ours. -/
def poppedTokens (config : ProxyConfig) : List Bytes → List (Option Bytes)
  | [] => []
  | value :: rest =>
      match K.parseAddress value with
      | none => []
      | some address =>
          if config.isOurs K address.uri then
            tokenOf K address.uri :: poppedTokens config rest
          else
            []

/-- P2's answer from the tokens popped: the first-popped one governs, and a
second is its partner only when it carried a token. -/
def carriageOf : List (Option Bytes) → Option TokenCarriage
  | [] => none
  | none :: _ => none
  | some token :: rest => some { token, partner := (rest.head?).join }

/-- P1 and P2, in order: the request as preprocessing leaves it, and what the
popped platform `Route`s carried. -/
def preprocess (request : Request K.Uri) (config : ProxyConfig) :
    Request K.Uri × Option TokenCarriage :=
  let recovered := recoverStrictRouting K request config
  let routes := routesOf K recovered
  -- At most two are popped: a minted pair has one entry for each side.
  let popped := poppedTokens K config (routes.take 2)
  match popped with
  | [] => (recovered, none)
  | _ => (setRoutes K recovered (routes.drop popped.length), carriageOf popped)

/-- T1: whether the request is within a dialog. -/
def isInDialog (request : Request K.Uri) : Bool :=
  ((Headers.value request.headers .toHeader).bind K.parseAddress).any fun address =>
    address.tag.isSome

/-- The predetermined target set: the Request-URI, and nothing else. -/
def predeterminedTarget (request : Request K.Uri) : Target where
  uri := K.uriBytes request.uri
  routeSet := []
  q := soleTargetQ

/-- T3: whether a `Route` set survived preprocessing. -/
def routeSetSurvived (request : Request K.Uri) : Bool :=
  (Headers.value request.headers .route).isSome

/-- T2: the URI whose registrations are wanted. -/
def aorQuery (request : Request K.Uri) : TargetQuery where
  uri := K.uriBytes request.uri

/-- The first `Route`, when it parses. -/
def firstRoute (request : Request K.Uri) : Option (Address K.Uri) :=
  (Headers.value request.headers .route).bind K.parseAddress

/-- F7: the next hop of a forwarded copy, read off the copy and off whether the
copy was reformatted for a strict router. -/
def nextHopOf (request : Request K.Uri) (reformattedForStrictRouter : Bool) : Bytes :=
  if reformattedForStrictRouter then
    K.uriBytes request.uri
  else match firstRoute K request with
    | some address => K.uriBytes address.uri
    | none => K.uriBytes request.uri

variable {K : Kernel}

/-- Route edits leave the rows of every other name as they are. -/
theorem getAll_setRoutes {name : HeaderName} (different : name ≠ .route)
    (request : Request K.Uri) (values : List Bytes) :
    Headers.getAll (setRoutes K request values).headers name =
      Headers.getAll request.headers name := by
  have built : ∀ header ∈ values.filterMap fun value => Header.build K .route value,
      header.name ≠ name := by
    intro header member
    obtain ⟨value, -, accepted⟩ := List.mem_filterMap.mp member
    rw [Header.build_name accepted]
    exact Ne.symm different
  have none_left : Headers.getAll (values.filterMap fun value => Header.build K .route value)
      name = [] := by
    simp only [Headers.getAll, List.filter_eq_nil_iff, decide_eq_true_eq]
    exact built
  simp [setRoutes, pushRoutes, none_left, Headers.getAll_removeAll_of_ne _ different]

theorem recoverStrictRouting_method (request : Request K.Uri) (config : ProxyConfig) :
    (recoverStrictRouting K request config).method = request.method := by
  unfold recoverStrictRouting
  split
  · split <;> rfl
  · rfl

theorem getAll_recoverStrictRouting {name : HeaderName} (different : name ≠ .route)
    (request : Request K.Uri) (config : ProxyConfig) :
    Headers.getAll (recoverStrictRouting K request config).headers name =
      Headers.getAll request.headers name := by
  unfold recoverStrictRouting
  split
  · split
    · exact getAll_setRoutes different _ _
    · rfl
  · rfl

/-- Preprocessing keeps the method. -/
theorem preprocess_method (request : Request K.Uri) (config : ProxyConfig) :
    (preprocess K request config).1.method = request.method := by
  unfold preprocess
  simp only
  split
  · exact recoverStrictRouting_method request config
  · exact recoverStrictRouting_method request config

/-- Preprocessing edits no row but `Route`. -/
theorem getAll_preprocess {name : HeaderName} (different : name ≠ .route)
    (request : Request K.Uri) (config : ProxyConfig) :
    Headers.getAll (preprocess K request config).1.headers name =
      Headers.getAll request.headers name := by
  unfold preprocess
  simp only
  split
  · exact getAll_recoverStrictRouting different request config
  · rw [getAll_setRoutes different]
    exact getAll_recoverStrictRouting different request config

/-- Preprocessing keeps a request respondable. -/
theorem isRespondable_preprocess (request : Request K.Uri) (config : ProxyConfig) :
    isRespondable K (preprocess K request config).1 = isRespondable K request := by
  have same : ∀ name, name ≠ .route → Headers.getAll (preprocess K request config).1.headers name =
      Headers.getAll request.headers name :=
    fun _ different => getAll_preprocess different request config
  simp only [isRespondable]
  rw [Headers.get_congr (same .via (by decide)),
    Headers.get_congr (same .callId (by decide)),
    Headers.get_congr (same .cSeq (by decide)),
    Headers.get_congr (same .fromHeader (by decide)),
    Headers.get_congr (same .toHeader (by decide))]

end SipxClstr.Proxy
