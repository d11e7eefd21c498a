import SipxClstr.Proxy.CopyHeaders
import SipxClstr.Proxy.Carriage

/-!
# The path of a copy

A request carries the path before it in its `Route` set and its Request-URI.  A loose router finds
the target in the Request-URI, behind the `Route`s; a strict router finds itself there, and the
target at the end of the `Route`s.  A copy carries one path, whichever of the two its first hop is.
-/

namespace SipxClstr.Proxy

open SipxClstr.Sip

variable (K : Kernel)

/-- A URI in angle brackets. -/
def bracketed (uri : Bytes) : Bytes :=
  utf8 (['<'] ++ fromUtf8Lossy uri ++ ['>'])

/-- The kernel reads back what it wrote: a URI is text that begins with its scheme, a URI in
brackets is an address of that URI, and a row can be built from an address. -/
structure ReadsBack : Prop where
  accepts : ∀ value address, K.parseAddress value = some address →
    K.acceptsValue .route value = true
  bracketed : ∀ uri, K.parseAddress (bracketed (K.uriBytes uri)) = some ⟨uri, none⟩
  bare : ∀ uri, (K.uriBytes uri).head? ≠ some 0x3C

/-- A route of a target's route set, as a bare URI or as an address in brackets. -/
inductive Denotes : Bytes → K.Uri → Prop where
  | bare (uri : K.Uri) : Denotes (K.uriBytes uri) uri
  | bracketed (route : Text) (address : Address K.Uri) (opens : (utf8 route).head? = some 0x3C)
      (parses : K.parseAddress (utf8 route) = some address) : Denotes (utf8 route) address.uri

/-- The URIs of the `Route` rows, each where its row parses. -/
def routeUris (request : Request K.Uri) : List (Option K.Uri) :=
  (routesOf K request).map fun value => (K.parseAddress value).map Address.uri

/-- The path of a request whose Request-URI is the target. -/
def loosePath (request : Request K.Uri) : List (Option K.Uri) :=
  routeUris K request ++ [some request.uri]

/-- The path of a request whose Request-URI is the next hop. -/
def strictPath (request : Request K.Uri) : List (Option K.Uri) :=
  some request.uri :: routeUris K request

/-- Whether the first hop routes loosely, or is the target itself. -/
def looseFirst (path : List K.Uri) : Bool :=
  path.length = 1 || path.head?.any fun hop => K.hasParam hop lrParam

/-- A strict router removes itself: the first `Route` becomes the Request-URI. -/
def strictRouter (request : Request K.Uri) : Option (Request K.Uri) :=
  match routesOf K request with
  | [] => none
  | first :: rest =>
      (K.parseAddress first).map fun address =>
        { setRoutes K request rest with uri := address.uri }

/-- So many strict routers, one after the other. -/
def strictRouters : Nat → Request K.Uri → Option (Request K.Uri)
  | 0, request => some request
  | count + 1, request => (strictRouters count request).bind (strictRouter K)

/-- The copy carries this path and no other `Route`: to a loose router, or to the target itself,
as the `Route`s before the target; to a strict one behind its own URI. -/
structure CarriesPath (path : List K.Uri) (copy : Request K.Uri) (nextHop : Bytes) : Prop where
  loose : looseFirst K path = true → loosePath K copy = path.map some
  strict : looseFirst K path = false → strictPath K copy = path.map some
  nextHop : path.head?.map K.uriBytes = some nextHop
  /-- Strict routers that have removed themselves leave the rest of the path, and so does a
  platform node that recovers the Request-URI from the last `Route`. -/
  removed : looseFirst K path = false → ∀ count < path.length,
    ∃ request, strictRouters K count copy = some request ∧
      strictPath K request = (path.drop count).map some ∧
        ∀ config : ProxyConfig, isOurRecordRouteValue K request config = true →
          count + 1 < path.length →
            loosePath K (recoverStrictRouting K request config) =
              (path.drop (count + 1)).map some

variable {K}

/-! ## Rows that read back -/

theorem accepts_of_routeUris (reads : ReadsBack K) {values : List Bytes} {uris : List K.Uri}
    (parse : values.map (fun value => (K.parseAddress value).map Address.uri) = uris.map some) :
    values.filter (K.acceptsValue .route) = values := by
  rw [List.filter_eq_self]
  intro value member
  have parsed : (K.parseAddress value).map Address.uri ∈ uris.map some := by
    rw [← parse]
    exact List.mem_map_of_mem member
  obtain ⟨uri, -, isSome⟩ := List.mem_map.mp parsed
  obtain ⟨address, isAddress, -⟩ := Option.map_eq_some_iff.mp isSome.symm
  exact reads.accepts value address isAddress

/-- `Route`s that parse are set as they are. -/
theorem routeUris_setRoutes (reads : ReadsBack K) (request : Request K.Uri) {values : List Bytes}
    {uris : List K.Uri}
    (parse : values.map (fun value => (K.parseAddress value).map Address.uri) = uris.map some) :
    routeUris K (setRoutes K request values) = uris.map some := by
  unfold routeUris
  rw [routesOf_setRoutes, accepts_of_routeUris reads parse, parse]

theorem parseAddress_routeSetValue (reads : ReadsBack K) {route : Bytes} {uri : K.Uri}
    (denotes : Denotes K route uri) :
    (K.parseAddress (routeSetValue route)).map Address.uri = some uri := by
  cases denotes with
  | bare =>
      have value : routeSetValue (K.uriBytes uri) = bracketed (K.uriBytes uri) :=
        if_neg (reads.bare uri)
      rw [value, reads.bracketed]
      rfl
  | bracketed route address opens parses =>
      have value : routeSetValue (utf8 route) = utf8 route := by
        unfold routeSetValue
        rw [if_pos opens, fromUtf8Lossy_utf8]
      rw [value, parses]
      rfl

/-- The target's route set is read back ahead of the `Route`s that were there. -/
theorem routeUris_pushRouteSet (reads : ReadsBack K) (request : Request K.Uri)
    {routeSet : List Bytes} {uris : List K.Uri} (denotes : List.Forall₂ (Denotes K) routeSet uris) :
    routeUris K { request with headers := pushRouteSet K request.headers routeSet } =
      uris.map some ++ routeUris K request := by
  induction denotes with
  | nil => rfl
  | @cons route uri routes uris first _ ih =>
      obtain ⟨address, parsed, -⟩ :=
        Option.map_eq_some_iff.mp (parseAddress_routeSetValue reads first)
      have built : Header.build K .route (routeSetValue route) =
          some ⟨.route, routeSetValue route⟩ :=
        if_pos (reads.accepts _ _ parsed)
      have pushed : pushRouteSet K request.headers (route :: routes) =
          ⟨.route, routeSetValue route⟩ :: pushRouteSet K request.headers routes := by
        simp [pushRouteSet, built]
      have rows : routesOf K
          { request with headers := pushRouteSet K request.headers (route :: routes) } =
            routeSetValue route ::
              routesOf K { request with headers := pushRouteSet K request.headers routes } := by
        simp [routesOf, pushed, Headers.getAll]
      unfold routeUris at ih ⊢
      rw [rows, List.map_cons, parseAddress_routeSetValue reads first, ih]
      rfl

/-! ## The copy -/

/-- F6 leaves a path whose first hop is loose as it is, and turns one whose first hop is strict
around. -/
theorem applyStrictRouteSwap_path (reads : ReadsBack K) {request : Request K.Uri}
    {path : List K.Uri} (isPath : loosePath K request = path.map some) :
    (looseFirst K path = true → applyStrictRouteSwap K request = (request, false)) ∧
      (looseFirst K path = false → (applyStrictRouteSwap K request).2 = true ∧
        strictPath K (applyStrictRouteSwap K request).1 = path.map some) := by
  unfold loosePath routeUris at isPath
  unfold applyStrictRouteSwap
  cases rows : routesOf K request with
  | nil =>
      rw [rows, List.map_nil, List.nil_append] at isPath
      have single : path.length = 1 := by
        have lengths := congrArg List.length isPath
        simpa using lengths.symm
      refine ⟨fun _ => rfl, fun strict => ?_⟩
      simp [looseFirst, single] at strict
  | cons first rest =>
      rw [rows, List.map_cons, List.cons_append] at isPath
      cases path with
      | nil => contradiction
      | cons hop later =>
          rw [List.map_cons, List.cons.injEq] at isPath
          obtain ⟨isHop, isLater⟩ := isPath
          obtain ⟨address, parsed, rfl⟩ := Option.map_eq_some_iff.mp isHop
          have several : later ≠ [] := by
            rintro rfl
            simp at isLater
          have isLoose : looseFirst K (address.uri :: later) = K.hasParam address.uri lrParam := by
            simp [looseFirst, several]
          simp only [parsed, isLoose]
          refine ⟨fun loose => if_pos loose, fun strict => ?_⟩
          rw [if_neg (by simp [strict])]
          refine ⟨rfl, ?_⟩
          have target : (K.parseAddress (bracketed (K.uriBytes request.uri))).map Address.uri =
              some request.uri := by
            rw [reads.bracketed]
            rfl
          have turned : (rest ++ [bracketed (K.uriBytes request.uri)]).map
              (fun value => (K.parseAddress value).map Address.uri) = later.map some := by
            rw [List.map_append, List.map_singleton, target]
            exact isLater
          exact congrArg (some address.uri :: ·) (routeUris_setRoutes reads request turned)

/-- A strict router that removes itself leaves the rest of the path. -/
theorem strictRouter_path (reads : ReadsBack K) {request : Request K.Uri} {hop next : K.Uri}
    {rest : List K.Uri} (isPath : strictPath K request = (hop :: next :: rest).map some) :
    ∃ result, strictRouter K request = some result ∧
      strictPath K result = (next :: rest).map some := by
  unfold strictPath at isPath
  rw [List.map_cons, List.cons.injEq] at isPath
  have isRest := isPath.2
  unfold routeUris at isRest
  cases rows : routesOf K request with
  | nil =>
      rw [rows] at isRest
      contradiction
  | cons first later =>
      rw [rows, List.map_cons, List.map_cons, List.cons.injEq] at isRest
      obtain ⟨address, parsed, isNext⟩ := Option.map_eq_some_iff.mp isRest.1
      refine ⟨{ setRoutes K request later with uri := address.uri }, ?_, ?_⟩
      · simp [strictRouter, rows, parsed]
      · have kept := routeUris_setRoutes reads request isRest.2
        show some address.uri :: routeUris K (setRoutes K request later) = _
        rw [kept, isNext]
        rfl

theorem strictRouters_path (reads : ReadsBack K) {copy : Request K.Uri} {path : List K.Uri}
    (isPath : strictPath K copy = path.map some) {count : Nat} (within : count < path.length) :
    ∃ request, strictRouters K count copy = some request ∧
      strictPath K request = (path.drop count).map some := by
  induction count with
  | zero => exact ⟨copy, rfl, isPath⟩
  | succ count ih =>
      obtain ⟨request, reached, remains⟩ := ih (by omega)
      have split : path.drop count = path[count] :: path[count + 1] :: path.drop (count + 2) := by
        rw [List.drop_eq_getElem_cons, List.drop_eq_getElem_cons]
      rw [split] at remains
      obtain ⟨result, removed, rest⟩ := strictRouter_path reads remains
      refine ⟨result, ?_, ?_⟩
      · rw [strictRouters, reached]
        exact removed
      · rw [rest, List.drop_eq_getElem_cons within]

/-- P1 takes the target from the end of the path, and the platform's own hop from its front. -/
theorem recoverStrictRouting_path (reads : ReadsBack K) {request : Request K.Uri}
    {config : ProxyConfig} {hop : K.Uri} {rest : List K.Uri}
    (isPath : strictPath K request = (hop :: rest).map some) (further : rest ≠ [])
    (ours : isOurRecordRouteValue K request config = true) :
    loosePath K (recoverStrictRouting K request config) = rest.map some := by
  unfold strictPath at isPath
  rw [List.map_cons, List.cons.injEq] at isPath
  have isRest := isPath.2
  unfold routeUris at isRest
  rcases List.eq_nil_or_concat (routesOf K request) with empty | ⟨initial, last, rows⟩
  · rw [empty, List.map_nil, eq_comm, List.map_eq_nil_iff] at isRest
    contradiction
  · rcases List.eq_nil_or_concat rest with empty | ⟨between, target, isEnd⟩
    · contradiction
    · rw [List.concat_eq_append] at rows isEnd
      subst isEnd
      rw [rows, List.map_append, List.map_append, List.map_singleton, List.map_singleton] at isRest
      obtain ⟨isBetween, isTarget⟩ := List.append_inj' isRest rfl
      obtain ⟨address, parsed, isUri⟩ := Option.map_eq_some_iff.mp (List.cons.inj isTarget).1
      have recovered : lastRoute K request = some target := by
        simp [lastRoute, rows, parsed, isUri]
      unfold recoverStrictRouting
      rw [if_pos ours, recovered]
      simp only [rows, List.dropLast_concat]
      have kept := routeUris_setRoutes reads { request with uri := target } isBetween
      unfold loosePath
      rw [kept, List.map_append]
      rfl

/-- F7 of a copy that was not reformatted is the first of its path. -/
theorem nextHopOf_of_loosePath {request : Request K.Uri} {path : List K.Uri}
    (isPath : loosePath K request = path.map some) :
    path.head?.map K.uriBytes = some (nextHopOf K request false) := by
  unfold loosePath routeUris at isPath
  have first : (routesOf K request).head? = Headers.value request.headers .route := by
    simp [routesOf, Headers.value, Headers.get]
  unfold nextHopOf firstRoute
  rw [if_neg (by decide), ← first]
  cases rows : routesOf K request with
  | nil =>
      rw [rows] at isPath
      have isHead := congrArg List.head? isPath
      rw [List.head?_map] at isHead
      obtain ⟨hop, isHop, same⟩ := Option.map_eq_some_iff.mp isHead.symm
      rw [isHop, ← Option.some.inj same]
      rfl
  | cons value rest =>
      rw [rows] at isPath
      have isHead := congrArg List.head? isPath
      rw [List.head?_map] at isHead
      obtain ⟨hop, isHop, same⟩ := Option.map_eq_some_iff.mp isHead.symm
      obtain ⟨address, parsed, isUri⟩ := Option.map_eq_some_iff.mp same.symm
      simp [isHop, parsed, isUri]

/-- A copy carries the target's route set, the `Route`s that survived and the target, in this
order, and goes to the first of them. -/
theorem forward_carriesPath (reads : ReadsBack K) {plan : ForwardPlan K.Uri} {config : ProxyConfig}
    {branch : BranchId} {copy : Request K.Uri} {nextHop : Bytes} {routeSet routes : List K.Uri}
    {target : K.Uri} (denotes : List.Forall₂ (Denotes K) plan.target.routeSet routeSet)
    (survived : routeUris K plan.original = routes.map some)
    (isTarget : K.parseUri plan.target.uri = some target)
    (built : forward K plan config = .ok (branch, copy, nextHop)) :
    CarriesPath K (routeSet ++ routes ++ [target]) copy nextHop := by
  obtain ⟨uri, stamped, via, parsed, stamping, pushed, -, hop, isCopy⟩ := forward_eq_ok built
  obtain rfl : uri = target := Option.some.inj (parsed.symm.trans isTarget)
  have sameRows : routesOf K { plan.original with uri := uri, headers := stamped } =
      routesOf K plan.original := by
    unfold routesOf
    rw [getAll_stampedHeaders (by decide) (by decide) (by decide) stamping]
  have isPath : loosePath K { plan.original with
      uri := uri, headers := pushRouteSet K stamped plan.target.routeSet } =
        (routeSet ++ routes ++ [uri]).map some := by
    have pushedRows := routeUris_pushRouteSet reads
      { plan.original with uri := uri, headers := stamped } denotes
    unfold loosePath
    rw [pushedRows]
    unfold routeUris at survived ⊢
    rw [sameRows, survived]
    simp
  obtain ⟨loose, strict⟩ := applyStrictRouteSwap_path reads isPath
  -- The `Via` on top is no `Route`.
  have copyRoutes : routeUris K copy = routeUris K (routedCopy K plan uri stamped).1 := by
    unfold routeUris routesOf
    rw [isCopy, Headers.getAll_pushFront_of_ne]
    rw [Header.build_name pushed]
    decide
  have copyUri : copy.uri = (routedCopy K plan uri stamped).1.uri := by rw [isCopy]
  have copyLoose : loosePath K copy = loosePath K (routedCopy K plan uri stamped).1 := by
    unfold loosePath
    rw [copyRoutes, copyUri]
  have copyStrict : strictPath K copy = strictPath K (routedCopy K plan uri stamped).1 := by
    unfold strictPath
    rw [copyRoutes, copyUri]
  have whenLoose : looseFirst K (routeSet ++ routes ++ [uri]) = true →
      loosePath K copy = (routeSet ++ routes ++ [uri]).map some := by
    intro isLoose
    rw [copyLoose, routedCopy, loose isLoose, isPath]
  have whenStrict : looseFirst K (routeSet ++ routes ++ [uri]) = false →
      strictPath K copy = (routeSet ++ routes ++ [uri]).map some := by
    intro isStrict
    rw [copyStrict, routedCopy, (strict isStrict).2]
  refine ⟨whenLoose, whenStrict, ?_, ?_⟩
  · cases first : looseFirst K (routeSet ++ routes ++ [uri]) with
    | true =>
        have unformatted : (routedCopy K plan uri stamped).2 = false := by
          rw [routedCopy, loose first]
        rw [unformatted] at hop
        rw [hop, nextHopOf_of_loosePath (whenLoose first)]
    | false =>
        have reformatted : (routedCopy K plan uri stamped).2 = true := by
          rw [routedCopy, (strict first).1]
        have isHop := congrArg List.head? (whenStrict first)
        rw [List.head?_map] at isHop
        obtain ⟨next, isNext, same⟩ := Option.map_eq_some_iff.mp isHop.symm
        rw [hop, reformatted, nextHopOf, if_pos rfl, isNext, Option.some.inj same]
        rfl
  · intro isStrict count within
    obtain ⟨request, reached, remains⟩ := strictRouters_path reads (whenStrict isStrict) within
    refine ⟨request, reached, remains, fun platform ours further => ?_⟩
    rw [List.drop_eq_getElem_cons within] at remains
    exact recoverStrictRouting_path reads remains (by simpa using further) ours

/-! ## A strict router behind a path -/

namespace Reading

open Reference

/-- Whether the reference kernel reads this URI back, from its bytes in brackets. -/
def ReadsUriBack (uri : ParsedUri) : Prop :=
  acceptsValue .route (bracketed uri.raw) = true ∧
    (parseAddress (bracketed uri.raw)).map (fun address => (address.uri, address.tag)) =
      some (uri, none) ∧ uri.raw.head? ≠ some 0x3C

instance : DecidablePred ReadsUriBack := fun _ =>
  inferInstanceAs (Decidable (_ ∧ _ ∧ _))

def readable (uri : ParsedUri) : Option { uri // ReadsUriBack uri } :=
  if readsBack : ReadsUriBack uri then some ⟨uri, readsBack⟩ else none

/-- The reference kernel with the URIs it reads back. -/
def kernel : Kernel where
  Uri := { uri // ReadsUriBack uri }
  parseUri value := (Reference.parseUri value).bind readable
  uriBytes uri := uri.1.raw
  scheme uri := Reference.kernel.scheme uri.1
  host uri := Reference.kernel.host uri.1
  port uri := Reference.kernel.port uri.1
  user uri := Reference.kernel.user uri.1
  hasParam uri name := Reference.kernel.hasParam uri.1 name
  paramValue uri name := Reference.kernel.paramValue uri.1 name
  parseAddress value :=
    if acceptsValue .route value then
      (parseAddress value).bind fun address =>
        (readable address.uri).map fun uri => ⟨uri, address.tag⟩
    else
      none
  parseVia := parseVia
  acceptsValue := acceptsValue
  toRequest request := toRequest { request with uri := request.uri.1 }
  sha256 := checksum
  hmacSha256 key message := checksum (key ++ message)

theorem kernel_readsBack : ReadsBack Reading.kernel := by
  constructor
  · intro value address parsed
    simp only [Reading.kernel] at parsed
    split at parsed
    · next accepted => exact accepted
    · contradiction
  · intro uri
    obtain ⟨accepted, parsed, -⟩ := uri.2
    obtain ⟨address, isAddress, same⟩ := Option.map_eq_some_iff.mp parsed
    obtain ⟨isUri, noTag⟩ := Prod.mk.inj same
    have back : readable address.uri = some uri := by
      rw [isUri]
      exact dif_pos uri.2
    simp only [Reading.kernel, accepted, if_true, isAddress, Option.bind_some, back, noTag]
    rfl
  · exact fun uri => uri.2.2.2

instance : DecidableEq Reading.kernel.Uri :=
  inferInstanceAs (DecidableEq { uri // ReadsUriBack uri })

theorem readsUriBack_bob : ReadsUriBack (Reference.uri "sip:bob@b.example") := by
  decide +kernel

/-- A URI of the reading kernel; the callee's when the text does not read back. -/
def uri (value : String) : Reading.kernel.Uri :=
  (Reading.kernel.parseUri (bytes value)).getD ⟨Reference.uri "sip:bob@b.example", readsUriBack_bob⟩

end Reading

open Reference in
/-- A call on its way over one more proxy, to a phone behind a strict router. -/
def strictPlan : ForwardPlan Reading.kernel.Uri where
  original :=
    { method := .invite, uri := Reading.uri "sip:bob@b.example"
      headers := [row .via "SIP/2.0/UDP a.example;branch=z9hG4bK-in",
        row .route "<sip:p2.example;lr>", row .callId "call-1"]
      body := [] }
  validated := ⟨70, 60, ⟨[], none, none, [], 0, none, []⟩⟩
  target := ⟨bytes "sip:bob@10.0.0.1", [bytes "sip:p1.example"], 1000⟩
  index := 0
  parallelBranches := 1
  recordRoute := true
  tokens := none

/-- An edge with a fixed cookie key. -/
def recordingEdge : ProxyConfig :=
  .new (text "edge-1.example") (bytes "<sip:edge-1.example;lr>") (bytes "key")

/-- The strict router is next; the other proxy and the phone are behind it. -/
theorem forward_carriesPath_strict :
    ∃ branch copy nextHop,
      forward Reading.kernel strictPlan recordingEdge = .ok (branch, copy, nextHop) ∧
      CarriesPath Reading.kernel
        ([Reading.uri "sip:p1.example"] ++ [Reading.uri "sip:p2.example;lr"] ++
          [Reading.uri "sip:bob@10.0.0.1"]) copy nextHop := by
  have isBuilt : (forward Reading.kernel strictPlan recordingEdge).toBool = true := by
    decide +kernel
  cases built : forward Reading.kernel strictPlan recordingEdge with
  | error refused =>
      rw [built] at isBuilt
      contradiction
  | ok result =>
      obtain ⟨branch, copy, nextHop⟩ := result
      refine ⟨branch, copy, nextHop, rfl,
        forward_carriesPath Reading.kernel_readsBack ?_ (by decide +kernel) (by decide +kernel)
          built⟩
      have isBytes : bytes "sip:p1.example" =
          Reading.kernel.uriBytes (Reading.uri "sip:p1.example") := by
        decide +kernel
      apply List.Forall₂.cons
      · rw [isBytes]
        exact .bare _
      · exact .nil

end SipxClstr.Proxy
