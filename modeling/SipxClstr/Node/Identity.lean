import SipxClstr.Node.Listen
import SipxClstr.Proxy.Forward
import SipxClstr.Proxy.Reachable
import SipxClstr.Sip.Utf8

/-!
# Recognizing what a node emits

A node puts its advertised address into messages in two places, the `Record-Route` and
the sent-by of its `Via`, and must know both again when they come back.
-/

namespace SipxClstr.Node

open SipxClstr.Sip SipxClstr.Proxy

/-! ## The proxy a node runs -/

/-- The parts of a node's configuration that reach its proxy. -/
structure NodeConfig where
  listeners : Listeners
  timerC : Nat

/-- Add an identity to those held, once. -/
def addIdentity (identities : List EdgeIdentity) (listener : Listener) : List EdgeIdentity :=
  let identity := EdgeIdentity.ofHost listener.advertisedHost
  if identity ∈ identities then identities else identities ++ [identity]

/-- The listener a request is answered for. -/
def NodeConfig.speakingFor (config : NodeConfig) (receiving : Option Listener) : Option Listener :=
  (receiving.or config.listeners.cleartext).or config.listeners.listeners.head?

/-- The proxy this node runs for a request that arrived on `receiving`. -/
def proxyConfigKeyed (config : NodeConfig) (receiving : Option Listener) (cookieKey : Bytes) :
    ProxyConfig :=
  let speakingFor := config.speakingFor receiving
  let recordRoute := (speakingFor.map Listener.recordRouteUri).getD []
  let host := (speakingFor.map Listener.advertisedHost).getD []
  { ProxyConfig.new host recordRoute cookieKey with
    timerC := config.timerC
    identities := config.listeners.listeners.foldl addIdentity [] }

theorem mem_foldl_addIdentity {listeners : List Listener} {held : List EdgeIdentity}
    {identity : EdgeIdentity} :
    identity ∈ listeners.foldl addIdentity held ↔
      identity ∈ held ∨ ∃ listener ∈ listeners,
        identity = EdgeIdentity.ofHost listener.advertisedHost := by
  induction listeners generalizing held with
  | nil => simp
  | cons listener rest ih =>
      have added : identity ∈ addIdentity held listener ↔
          identity ∈ held ∨ identity = EdgeIdentity.ofHost listener.advertisedHost := by
        unfold addIdentity
        by_cases member : EdgeIdentity.ofHost listener.advertisedHost ∈ held
        · simp only [member, if_true]
          constructor
          · exact .inl
          · rintro (isHeld | rfl)
            · exact isHeld
            · exact member
        · simp [member]
      rw [List.foldl_cons, ih, added]
      simp only [List.mem_cons, exists_eq_or_imp, or_assoc]

section ProxyConfig

variable {config : NodeConfig} {receiving : Option Listener} {cookieKey : Bytes}

/-- The identities are the hosts of all listeners, each on any port. -/
theorem mem_identities {identity : EdgeIdentity} :
    identity ∈ (proxyConfigKeyed config receiving cookieKey).identities ↔
      ∃ listener ∈ config.listeners.listeners,
        identity = EdgeIdentity.ofHost listener.advertisedHost := by
  rw [proxyConfigKeyed, mem_foldl_addIdentity]
  simp

theorem recordRouteUri_proxyConfigKeyed (listener : Listener) :
    (proxyConfigKeyed config (some listener) cookieKey).recordRouteUri = listener.recordRouteUri :=
  rfl

/-- A listener of the set advertises this host, up to case. -/
def Answers (listeners : Listeners) (name : Text) : Prop :=
  ∃ listener ∈ listeners.listeners, toAsciiLowercase listener.advertisedHost = name

instance (listeners : Listeners) (name : Text) : Decidable (Answers listeners name) :=
  inferInstanceAs (Decidable (∃ listener ∈ listeners.listeners, _))

/-- The name a host is compared under. -/
def comparedName (host : Bytes) : Text :=
  stripTrailingDot (toAsciiLowercase (fromUtf8Lossy host))

variable {K : Kernel}

theorem matches_ofHost_iff {name : Text} {uri : K.Uri} {host : Bytes}
    (hasHost : K.host uri = some host) :
    (EdgeIdentity.ofHost name).matches K uri = true ↔ toAsciiLowercase name = comparedName host := by
  simp only [EdgeIdentity.matches, hasHost, EdgeIdentity.ofHost, comparedName]
  by_cases same : stripTrailingDot (toAsciiLowercase (fromUtf8Lossy host)) = toAsciiLowercase name
  · simp [same]
  · simp [same, Ne.symm same]

/-- A URI names the platform exactly if a listener answers to its host. -/
theorem isOurs_iff {uri : K.Uri} {host : Bytes} (hasHost : K.host uri = some host) :
    (proxyConfigKeyed config receiving cookieKey).isOurs K uri = true ↔
      Answers config.listeners (comparedName host) := by
  simp only [ProxyConfig.isOurs, List.any_eq_true, mem_identities, Answers]
  constructor
  · rintro ⟨identity, ⟨listener, member, rfl⟩, named⟩
    exact ⟨listener, member, (matches_ofHost_iff hasHost).mp named⟩
  · rintro ⟨listener, member, same⟩
    exact ⟨_, ⟨listener, member, rfl⟩, (matches_ofHost_iff hasHost).mpr same⟩

/-- So is a `Via` by its sent-by. -/
theorem isOurVia_iff {via : Via} :
    isOurVia via (proxyConfigKeyed config receiving cookieKey) = true ↔
      Answers config.listeners (comparedName via.host) := by
  simp only [isOurVia, List.any_eq_true, mem_identities, Answers]
  constructor
  · rintro ⟨identity, ⟨listener, member, rfl⟩, named⟩
    refine ⟨listener, member, ?_⟩
    simp only [EdgeIdentity.ofHost, Bool.and_true] at named
    exact of_decide_eq_true named
  · rintro ⟨listener, member, same⟩
    refine ⟨_, ⟨listener, member, rfl⟩, ?_⟩
    simp [EdgeIdentity.ofHost, same, comparedName]

end ProxyConfig

/-! ## What a listener emits -/

/-- A host name, or an IPv4 address. -/
def IsHostname (host : Text) : Prop :=
  ∀ c ∈ host, c.isAlphanum = true ∨ c = '-' ∨ c = '.'

instance (host : Text) : Decidable (IsHostname host) :=
  List.decidableBAll (fun c : Char => c.isAlphanum = true ∨ c = '-' ∨ c = '.') host

/-- The hosts a deployment advertises: an IPv6 address, or a host name. -/
def Spelled (host : Text) : Prop :=
  isIpv6 host = true ∨ IsHostname host

theorem Spelled.semicolon_notMem {host : Text} (spelled : Spelled host) : ';' ∉ host := by
  intro member
  rcases spelled with isAddress | isName
  · exact notMem_of_isIpv6 isAddress foreign_semicolon member
  · have named := isName _ member
    simp at named

theorem semicolon_notMem_sentBy {listener : Listener} (spelled : Spelled listener.advertisedHost) :
    ';' ∉ listener.sentBy := by
  have inHost : ';' ∉ listener.advertise.hostInUri := by
    unfold Advertised.hostInUri
    split
    · simpa [Listener.advertisedHost] using spelled.semicolon_notMem
    · exact spelled.semicolon_notMem
  rw [Listener.sentBy, List.mem_append, List.mem_cons]
  rintro (isHost | isColon | inPort)
  · exact inHost isHost
  · contradiction
  · have isDigit := isDigit_of_mem_decimal inPort
    contradiction

section Emits

variable {node : NodeConfig} {listener : Listener} {cookieKey : Bytes}

/-- What stands between the angle brackets of the `Record-Route`, behind the scheme. -/
def routeBody (listener : Listener) (params : Text) : Text :=
  listener.sentBy ++ listener.transportParam ++ text ";lr" ++ params

theorem fromUtf8Lossy_recordRouteUri (listener : Listener) :
    fromUtf8Lossy listener.recordRouteUri = '<' :: (text "sip:" ++ routeBody listener [] ++ ['>']) := by
  rw [Listener.recordRouteUri, fromUtf8Lossy_utf8, routeBody, List.append_nil]
  simp only [text, List.append_assoc]
  rfl

theorem params_start (listener : Listener) :
    ∃ rest, listener.transportParam ++ text ";lr" = ';' :: rest := by
  cases isTransport : listener.transport <;> simp [Listener.transportParam, isTransport, text]

/-- The sent-by of the `Via` is the one in the `Record-Route`. -/
theorem recordRouteHost_eq (plain : ';' ∉ listener.sentBy) :
    (proxyConfigKeyed node (some listener) cookieKey).recordRouteHost = listener.sentBy := by
  have opening : ('<' :: (text "sip:" ++ routeBody listener [] ++ ['>'])).dropWhile (· = '<') =
      text "sip:" ++ routeBody listener [] ++ ['>'] := by
    simp [text]
  have closing : (text "sip:" ++ routeBody listener [] ++ ['>']).rdropWhile (· = '>') =
      text "sip:" ++ routeBody listener [] := by
    have ends : text "sip:" ++ routeBody listener [] =
        text "sip:" ++ (listener.sentBy ++ (listener.transportParam ++ text ";l")) ++ ['r'] := by
      simp only [routeBody, text, List.append_assoc, List.append_nil]
      rfl
    rw [List.rdropWhile_concat_pos _ _ _ (by decide), ends,
      List.rdropWhile_concat_neg _ _ _ (by decide)]
  have inner : (text "sip:" ++ routeBody listener []).takeWhile (· ≠ ';') =
      text "sip:" ++ listener.sentBy := by
    obtain ⟨rest, params⟩ := params_start listener
    have before : ∀ c ∈ text "sip:" ++ listener.sentBy, decide (c ≠ ';') = true := by
      intro c member
      rw [decide_eq_true_eq]
      rintro rfl
      rcases List.mem_append.mp member with isScheme | isSentBy
      · exact absurd isScheme (by decide)
      · exact plain isSentBy
    have split : text "sip:" ++ routeBody listener [] =
        text "sip:" ++ listener.sentBy ++ ';' :: rest := by
      rw [← params, routeBody]
      simp only [List.append_assoc, List.append_nil]
    rw [split, List.takeWhile_append_of_pos before]
    simp
  rw [ProxyConfig.recordRouteHost, recordRouteUri_proxyConfigKeyed, fromUtf8Lossy_recordRouteUri]
  simp only [opening, closing, inner]
  simp [text]

/-- The token goes inside the angle brackets, behind `lr`. -/
theorem recordRouteValue_eq {token : Bytes} {value : Text}
    (built : recordRouteValue (proxyConfigKeyed node (some listener) cookieKey) (some token) =
      .ok value) :
    value = '<' :: (text "sip:" ++ routeBody listener (text ";aft=" ++ fromUtf8Lossy token) ++
      ['>']) := by
  have base : fromUtf8Lossy (proxyConfigKeyed node (some listener) cookieKey).recordRouteUri =
      '<' :: (text "sip:" ++ routeBody listener []) ++ ['>'] := by
    rw [recordRouteUri_proxyConfigKeyed, fromUtf8Lossy_recordRouteUri]
    simp
  unfold recordRouteValue at built
  simp only [base] at built
  split at built
  · contradiction
  · rw [if_pos (by simp), List.rdropWhile_concat_neg _ _ _ (by decide), List.dropLast_concat,
      List.rtakeWhile_concat_neg _ _ _ (by decide)] at built
    rw [← Except.ok.inj built]
    simp [routeBody, tokenParam, text]

theorem viaValue_eq (plain : ';' ∉ listener.sentBy) (branch : Text) :
    viaValue (proxyConfigKeyed node (some listener) cookieKey) branch =
      utf8 (text "SIP/2.0/UDP " ++ listener.sentBy ++ text ";branch=" ++ branch) := by
  rw [viaValue, recordRouteHost_eq plain]

end Emits

/-! ## What comes back -/

variable (K : Kernel)

/-- The kernel reads a `Record-Route` of this listener with these parameters. -/
def ReadsRoute (listener : Listener) (params : Text) (rendered : Bytes) : Prop :=
  ∃ address,
    K.parseAddress (utf8 ('<' :: (text "sip:" ++ routeBody listener params ++ ['>']))) =
      some address ∧ K.host address.uri = some rendered ∧ K.user address.uri = none ∧
        K.hasParam address.uri lrParam = true

/-- The kernel reads a `Via` of this listener on this branch. -/
def ReadsVia (listener : Listener) (branch : Text) (rendered : Bytes) : Prop :=
  ∃ via,
    K.parseVia (utf8 (text "SIP/2.0/UDP " ++ listener.sentBy ++ text ";branch=" ++ branch)) =
      some via ∧ via.host = rendered

/-- The kernel's parsers accept what this listener emits with this token and on this
branch, and render its host the same wherever it stands. -/
structure Reads (listener : Listener) (token : Bytes) (branch : Text) (rendered : Bytes) :
    Prop where
  route : ReadsRoute K listener [] rendered
  routeWithToken : ReadsRoute K listener (text ";aft=" ++ fromUtf8Lossy token) rendered
  via : ReadsVia K listener branch rendered

/-- What a node emits for a request received on `listener` it recognizes when it comes
back on `receiving`: the `Record-Route`, alone, with a token and as a Request-URI, and
the `Via`. -/
structure Recognizes (node : NodeConfig) (cookieKey : Bytes) (listener : Listener)
    (receiving : Option Listener) (token : Bytes) (plan : ForwardPlan K.Uri) : Prop where
  route : ∃ address, K.parseAddress listener.recordRouteUri = some address ∧
    (proxyConfigKeyed node receiving cookieKey).isOurs K address.uri = true ∧
      ∀ request : Request K.Uri, request.uri = address.uri →
        isOurRecordRouteValue K request (proxyConfigKeyed node receiving cookieKey) = true
  routeWithToken : ∀ value,
    recordRouteValue (proxyConfigKeyed node (some listener) cookieKey) (some token) = .ok value →
      ∃ address, K.parseAddress (utf8 value) = some address ∧
        (proxyConfigKeyed node receiving cookieKey).isOurs K address.uri = true
  via : ∀ branch request nextHop,
    forward K plan (proxyConfigKeyed node (some listener) cookieKey) =
        .ok (branch, request, nextHop) →
      ∃ row via, request.headers.head? = some row ∧ K.parseVia row.value = some via ∧
        isOurVia via (proxyConfigKeyed node receiving cookieKey) = true

variable {K}

/-- Only a letter is what another character is in lower case. -/
theorem eq_of_toLower_eq {c d : Char} (below : d < 'a') (lower : c.toLower = d) : c = d := by
  unfold Char.toLower at lower
  split at lower
  · next upper =>
      have value : (c.val + ('a'.val - 'A'.val)).toNat = d.val.toNat :=
        congrArg (fun e : Char => e.val.toNat) lower
      have least : 65 ≤ c.val.toNat := upper.1
      have most : c.val.toNat ≤ 90 := upper.2
      have bound : d.val.toNat < 97 := below
      have offset : ('a'.val - 'A'.val).toNat = 32 := by decide
      rw [UInt32.toNat_add, offset] at value
      omega
  · exact lower

/-- A listener's host that ends in no dot is answered to where it is rendered as it is
advertised. -/
theorem answers_own {listeners : Listeners} {listener : Listener}
    (member : listener ∈ listeners.listeners)
    (noDot : listener.advertisedHost.getLast? ≠ some '.') :
    Answers listeners (comparedName (utf8 listener.advertisedHost)) := by
  refine ⟨listener, member, ?_⟩
  rw [comparedName, fromUtf8Lossy_utf8, stripTrailingDot, if_neg]
  intro dotted
  rw [toAsciiLowercase, List.getLast?_map] at dotted
  obtain ⟨last, isLast, lower⟩ := Option.map_eq_some_iff.mp dotted
  rw [eq_of_toLower_eq (by decide) lower] at isLast
  exact noDot isLast

/-- A node recognizes what it emits for a listener exactly if a listener of the set
advertises the host as the kernel renders it, less a trailing dot. -/
theorem recognizes_iff {node : NodeConfig} {cookieKey : Bytes} {listener : Listener}
    (spelled : Spelled listener.advertisedHost) (receiving : Option Listener) {token : Bytes}
    {plan : ForwardPlan K.Uri} {rendered : Bytes}
    (reads : Reads K listener token (branchFor K
      (proxyConfigKeyed node (some listener) cookieKey) plan.validated.cookieInput plan.index)
      rendered) :
    Recognizes K node cookieKey listener receiving token plan ↔
      Answers node.listeners (comparedName rendered) := by
  have isRoute : listener.recordRouteUri =
      utf8 ('<' :: (text "sip:" ++ routeBody listener [] ++ ['>'])) := by
    rw [← fromUtf8Lossy_recordRouteUri, Listener.recordRouteUri, fromUtf8Lossy_utf8]
  have plain := semicolon_notMem_sentBy spelled
  obtain ⟨address, parsed, hasHost, noUser, loose⟩ := reads.route
  rw [← isRoute] at parsed
  constructor
  · rintro ⟨⟨address', parsed', isOurs, -⟩, -, -⟩
    obtain rfl := Option.some.inj (parsed.symm.trans parsed')
    rwa [isOurs_iff hasHost] at isOurs
  · intro answers
    constructor
    · refine ⟨address, parsed, (isOurs_iff hasHost).mpr answers, ?_⟩
      intro request isUri
      simp only [isOurRecordRouteValue, isUri, (isOurs_iff hasHost).mpr answers, noUser, loose,
        Option.isNone_none, Bool.and_true]
    · intro value built
      obtain ⟨withToken, parsedToken, hasHostToken, -, -⟩ := reads.routeWithToken
      rw [recordRouteValue_eq built]
      exact ⟨withToken, parsedToken, (isOurs_iff hasHostToken).mpr answers⟩
    · intro branch request nextHop built
      obtain ⟨via, parsedVia, isHost⟩ := reads.via
      have isBranch := forward_branch built
      refine ⟨_, via, forward_via built, ?_, ?_⟩
      · rw [viaValue_eq plain, isBranch]
        exact parsedVia
      · rw [isOurVia_iff, isHost]
        exact answers

/-! ## A node to run -/

/-- A UDP listener that advertises this address. -/
def listenerAt (advertise : Advertised) : Listener :=
  ⟨.udp, ⟨.v4 [10, 0, 0, 7], 5060, 0⟩, advertise, by decide⟩

/-- A node with this one listener. -/
def nodeOf (listener : Listener) : NodeConfig where
  listeners :=
    { listeners := [listener]
      nonempty := List.cons_ne_nil _ _
      distinct := List.nodup_singleton _
      agree := by
        intro udp tcp isUdp isTcp
        have first := List.mem_singleton.mp (List.mem_of_find?_eq_some isUdp)
        have second := List.mem_singleton.mp (List.mem_of_find?_eq_some isTcp)
        rw [first, second]
        exact ⟨rfl, rfl⟩ }
  timerC := defaultTimerC

/-- The copy of a call it forwards. -/
def callPlan : ForwardPlan Reference.kernel.Uri where
  original := invite
  validated := ⟨70, 60, .fromRequest Reference.kernel invite⟩
  target := phone "sip:bob@10.0.0.1" 1000
  index := 0
  parallelBranches := 1
  recordRoute := true
  tokens := none

/-- A host name in mixed case. -/
def edgeListener : Listener :=
  listenerAt ⟨text "Edge.example", none, by decide, by decide, by decide, by decide⟩

/-- The branch of the call at a listener. -/
def callBranch (listener : Listener) : Text :=
  branchFor Reference.kernel (proxyConfigKeyed (nodeOf listener) (some listener) (bytes "key"))
    callPlan.validated.cookieInput callPlan.index

theorem reads_edge :
    Reads Reference.kernel edgeListener (bytes "abc") (callBranch edgeListener)
      (bytes "Edge.example") where
  route := ⟨_, rfl, by decide +kernel⟩
  routeWithToken := ⟨_, rfl, by decide +kernel⟩
  via := ⟨⟨bytes "Edge.example", some 5060, some (utf8 (callBranch edgeListener))⟩,
    by decide +kernel⟩

/-- A name without a trailing dot is recognized. -/
theorem recognizes_edge :
    Recognizes Reference.kernel (nodeOf edgeListener) (bytes "key") edgeListener none (bytes "abc")
      callPlan := by
  apply (recognizes_iff (.inr (by decide)) none reads_edge).mpr
  have member : edgeListener ∈ (nodeOf edgeListener).listeners.listeners :=
    List.mem_singleton_self edgeListener
  exact answers_own member (by decide)

/-- The same name with its trailing dot. -/
def dottedListener : Listener :=
  listenerAt ⟨text "edge.example.", none, by decide, by decide, by decide, by decide⟩

theorem reads_dotted :
    Reads Reference.kernel dottedListener (bytes "abc") (callBranch dottedListener)
      (bytes "edge.example.") where
  route := ⟨_, rfl, by decide +kernel⟩
  routeWithToken := ⟨_, rfl, by decide +kernel⟩
  via := ⟨⟨bytes "edge.example.", some 5060, some (utf8 (callBranch dottedListener))⟩,
    by decide +kernel⟩

/-- The kernel reads what it emits, but the one identity keeps the dot that the host of
the `Record-Route` is compared without. -/
theorem not_recognizes_dotted :
    Spelled dottedListener.advertisedHost ∧
      Reads Reference.kernel dottedListener (bytes "abc") (callBranch dottedListener)
        (bytes "edge.example.") ∧
      ¬ Recognizes Reference.kernel (nodeOf dottedListener) (bytes "key") dottedListener none
        (bytes "abc") callPlan := by
  refine ⟨.inr (by decide), reads_dotted, ?_⟩
  rintro ⟨⟨address, parsed, isOurs, -⟩, -, -⟩
  have hasHost : Reference.kernel.host address.uri = some (bytes "edge.example.") := by
    obtain ⟨address', parsed', hasHost, -⟩ := reads_dotted.route
    rw [← fromUtf8Lossy_recordRouteUri, Listener.recordRouteUri, fromUtf8Lossy_utf8] at parsed'
    obtain rfl := Option.some.inj (parsed.symm.trans parsed')
    exact hasHost
  rw [isOurs_iff hasHost] at isOurs
  exact absurd isOurs (by decide)

end SipxClstr.Node
