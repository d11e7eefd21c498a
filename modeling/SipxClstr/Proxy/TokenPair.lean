import SipxClstr.Affinity.Pair
import SipxClstr.Proxy.Carriage
import SipxClstr.Proxy.CopyHeaders

/-!
# The token pair of a dialog

A dialog-forming request is stamped with one token for each side.  Each endpoint learns
its route set from the stamps, and its mid-dialog requests bring the pair back: its own
token first, and the other side's as its partner.
-/

namespace SipxClstr.Proxy

open SipxClstr.Sip SipxClstr.Affinity

variable (K : Kernel)

/-! ## Stamping -/

/-- The parameter value of each side's token. -/
def tokenValue (tokens : Direction → Token) (side : Direction) : Bytes :=
  utf8 (tokens side).toParamValue

/-- What the pair is handed to forwarding as. -/
def pairOf (tokens : Direction → Token) : RecordRouteTokens :=
  ⟨tokenValue tokens .originating, tokenValue tokens .terminating⟩

/-- Stamped with this token, the configured value names this platform, and carries the
token as a parameter of its URI. -/
def CarriesToken (config : ProxyConfig) (token : Bytes) : Prop :=
  ∀ value, recordRouteValue config (some token) = .ok value →
    ∃ address, K.parseAddress (utf8 value) = some address ∧
      config.isOurs K address.uri = true ∧ tokenOf K address.uri = some token

/-- Whether the stamped value reads so. -/
def readsToken (config : ProxyConfig) (token : Bytes) : Bool :=
  match recordRouteValue config (some token) with
  | .error _ => true
  | .ok value => (K.parseAddress (utf8 value)).any fun address =>
      config.isOurs K address.uri && tokenOf K address.uri = some token

/-- Every `Record-Route` row's value, in order. -/
def recordRoutesOf (request : Request K.Uri) : List Bytes :=
  (Headers.getAll request.headers .recordRoute).map Header.value

variable {K}

theorem fromUtf8Lossy_tokenValue (tokens : Direction → Token) (side : Direction) :
    fromUtf8Lossy (tokenValue tokens side) = (tokens side).toParamValue :=
  fromUtf8Lossy_utf8 _

/-- Values pushed one at a time end up in reverse. -/
theorem getAll_pushRecordRoutes_self {headers pushed : Headers} {values : List Text}
    (ok : pushRecordRoutes K headers values = .ok pushed) :
    Headers.getAll pushed .recordRoute =
      values.reverse.map (fun value => ⟨.recordRoute, utf8 value⟩) ++
        Headers.getAll headers .recordRoute := by
  induction values generalizing headers with
  | nil =>
      rw [← Except.ok.inj ok]
      rfl
  | cons value rest ih =>
      unfold pushRecordRoutes at ok
      split at ok
      · next header built =>
          rw [ih ok, Header.eq_of_build built, List.reverse_cons, List.map_append,
            List.append_assoc]
          rfl
      · contradiction

theorem getAll_hopHeaders {name : HeaderName} (notHops : name ≠ .maxForwards)
    (notBreadth : name ≠ .maxBreadth) (plan : ForwardPlan K.Uri) :
    Headers.getAll (hopHeaders K plan) name = Headers.getAll plan.original.headers name := by
  have set : ∀ {headers : Headers} {other : HeaderName} {value : Text}, name ≠ other →
      Headers.getAll (setHeader K headers other value) name = Headers.getAll headers name := by
    intro headers other value different
    unfold setHeader
    simp only
    split
    · next header built =>
        rw [Headers.getAll_pushFront_of_ne, Headers.getAll_removeAll_of_ne _ different]
        rw [Header.build_name built]
        exact different.symm
    · exact Headers.getAll_removeAll_of_ne _ different
  rw [hopHeaders, set notBreadth, set notHops]

/-- The stamps of a copy: TERM on top of ORIG, ahead of the rows that were there. -/
theorem recordRoutesOf_forward {plan : ForwardPlan K.Uri} {config : ProxyConfig}
    {branch : BranchId} {copy : Request K.Uri} {nextHop : Bytes} {tokens : RecordRouteTokens}
    (built : forward K plan config = .ok (branch, copy, nextHop)) (stamps : plan.recordRoute = true)
    (withTokens : plan.tokens = some tokens) :
    ∃ originating terminating,
      recordRouteValue config (some tokens.originating) = .ok originating ∧
        recordRouteValue config (some tokens.terminating) = .ok terminating ∧
          recordRoutesOf K copy =
            utf8 terminating :: utf8 originating :: recordRoutesOf K plan.original := by
  obtain ⟨uri, stamped, via, -, stamping, pushed, -, -, rfl⟩ := forward_eq_ok built
  unfold stampedHeaders at stamping
  rw [if_pos stamps, withTokens] at stamping
  unfold recordRouteValues at stamping
  cases first : recordRouteValue config (some tokens.originating) with
  | error refused => simp [first, bind, Except.bind] at stamping
  | ok originating =>
      cases second : recordRouteValue config (some tokens.terminating) with
      | error refused => simp [first, second, bind, Except.bind] at stamping
      | ok terminating =>
          simp only [first, second, bind, Except.bind, pure, Except.pure] at stamping
          have notVia : via.name ≠ .recordRoute := by
            rw [Header.build_name pushed]
            decide
          refine ⟨originating, terminating, rfl, rfl, ?_⟩
          rw [recordRoutesOf, Headers.getAll_pushFront_of_ne _ notVia, routedCopy,
            getAll_applyStrictRouteSwap (by decide), getAll_pushRouteSet (by decide),
            getAll_pushRecordRoutes_self stamping, getAll_hopHeaders (by decide) (by decide)]
          rfl

/-! ## Route sets -/

/-- The route set a side learns: the called side in order, the calling side reversed. -/
def learned (side : Direction) (recordRoutes : List Bytes) : List Bytes :=
  match side with
  | .originating => recordRoutes.reverse
  | .terminating => recordRoutes

/-- The rows of the hops between a side and this platform. -/
def between (side : Direction) (upstream downstream : List Bytes) : List Bytes :=
  match side with
  | .originating => upstream
  | .terminating => downstream

/-- A mid-dialog request of a side, as it reaches this platform: its `Route`s are the
route set the side learned from the copy, to which the hops downstream have added their
rows in front, behind those of the hops on the way. -/
def Arrives (side : Direction) (original copy request : Request K.Uri) : Prop :=
  ∃ downstream, learned side (downstream ++ recordRoutesOf K copy) =
    learned side (between side (recordRoutesOf K original) downstream) ++ routesOf K request

/-- A side finds its own stamp first, and the other side's behind it. -/
theorem routesOf_of_arrives {side : Direction} {original copy request : Request K.Uri}
    (stamp : Direction → Bytes)
    (stamped : recordRoutesOf K copy =
      stamp .terminating :: stamp .originating :: recordRoutesOf K original)
    (arrives : Arrives side original copy request) :
    ∃ rest, routesOf K request = stamp side :: stamp side.complement :: rest := by
  obtain ⟨downstream, split⟩ := arrives
  rw [stamped] at split
  cases side with
  | originating =>
      refine ⟨downstream.reverse, ?_⟩
      have reversed : (downstream ++
          stamp .terminating :: stamp .originating :: recordRoutesOf K original).reverse =
            (recordRoutesOf K original).reverse ++
              stamp .originating :: stamp .terminating :: downstream.reverse := by
        simp
      exact (List.append_cancel_left (reversed.symm.trans split)).symm
  | terminating => exact ⟨recordRoutesOf K original, (List.append_cancel_left split).symm⟩

/-- Two platform `Route`s with tokens are popped, and nothing else is. -/
theorem preprocess_pair {request : Request K.Uri} {config : ProxyConfig} {first second : Bytes}
    {rest : List Bytes} {token partner : Bytes}
    (keeps : recovers K request config = false)
    (leads : routesOf K request = first :: second :: rest)
    (isFirst : platformToken K config first = some (some token))
    (isSecond : platformToken K config second = some (some partner)) :
    preprocess K request config = (setRoutes K request rest, some ⟨token, some partner⟩) := by
  have unchanged : recoverStrictRouting K request config = request := by
    unfold recovers at keeps
    unfold recoverStrictRouting
    split
    · next ours =>
        rw [ours, Bool.true_and, Option.isSome_eq_false_iff, Option.isNone_iff_eq_none] at keeps
        rw [keeps]
    · rfl
  have pops : poppedTokens K config ((first :: second :: rest).take 2) =
      [some token, some partner] := by
    rw [List.take_succ_cons, List.take_succ_cons, List.take_zero, poppedTokens_cons, isFirst,
      poppedTokens_cons, isSecond, poppedTokens_nil]
  unfold preprocess
  rw [unchanged]
  simp only [leads, pops]
  rfl

theorem carriesToken_of_reads {config : ProxyConfig} {token : Bytes}
    (reads : readsToken K config token = true) : CarriesToken K config token := by
  intro value stamped
  rw [readsToken, stamped, Option.any_eq_true] at reads
  obtain ⟨address, parses, holds⟩ := reads
  rw [Bool.and_eq_true, decide_eq_true_eq] at holds
  exact ⟨address, parses, holds.1, holds.2⟩

/-- A stamp is recognized by every node that shares the identities. -/
theorem platformToken_of_carries {edge node : ProxyConfig} {token : Bytes} {value : Text}
    (carries : CarriesToken K edge token) (shared : node.identities = edge.identities)
    (stamped : recordRouteValue edge (some token) = .ok value) :
    platformToken K node (utf8 value) = some (some token) := by
  obtain ⟨address, parses, ours, isToken⟩ := carries value stamped
  have recognized : node.isOurs K address.uri = true := by
    rw [ProxyConfig.isOurs, shared]
    exact ours
  rw [platformToken, parses, Option.filter, if_pos recognized, Option.map_some, isToken]

/-! ## The round trip -/

section RoundTrip

variable {C : Ciphers} {keys : KeySet} {entry : KeyEntry} {claims : Claims}
  {nonces : Direction → Octets 12} {tokens : Direction → Token} {now : UInt32} {expect : Expect}

/-- What is asked of a pair is answered by the claims it was minted for, presented by the
side that comes first. -/
theorem verdictFor_pair (member : entry ∈ keys.entries) (opens : entry.verifiesAt now = true)
    (distinct : nonces .originating ≠ nonces .terminating)
    (minted : ∀ side, mint C (claims.facing side) entry.key (nonces side) = .ok (tokens side))
    (inTime : now ≤ saturatingAdd claims.expiry expect.skew)
    (inTenant : ∀ pinned ∈ expect.tenant, pinned = claims.tenant) (side : Direction) :
    verdictFor C keys now expect (tokenValue tokens side)
        (some (tokenValue tokens side.complement)) =
      .ok (.valid (claims.facing side)) := by
  have apart : nonces side ≠ nonces side.complement := by
    cases side with
    | originating => exact distinct
    | terminating => exact distinct.symm
  have decoded : ∀ side, decodeParamValue (fromUtf8Lossy (tokenValue tokens side)) =
      .ok (tokens side).asBytes := by
    intro side
    rw [fromUtf8Lossy_tokenValue]
    exact decodeParamValue_encodeParamValue _
  simp only [verdictFor, Option.bind_some, decoded, Except.toOption]
  rw [verify_pair apart (minted side) (minted side.complement) member opens inTime inTenant]

/-- The pair a dialog-forming request is stamped with comes back in every mid-dialog
request of either side that is not addressed to this platform's own `Record-Route`: it is
popped, the presenting side's token is offered first, and it verifies with the other as
its partner.  In the other order they verify for the other side. -/
theorem pair_roundTrip {edge node : ProxyConfig} {plan : ForwardPlan K.Uri} {branch : BranchId}
    {copy request : Request K.Uri} {nextHop : Bytes} {side : Direction}
    (member : entry ∈ keys.entries) (opens : entry.verifiesAt now = true)
    (distinct : nonces .originating ≠ nonces .terminating)
    (minted : ∀ side, mint C (claims.facing side) entry.key (nonces side) = .ok (tokens side))
    (inTime : now ≤ saturatingAdd claims.expiry expect.skew)
    (inTenant : ∀ pinned ∈ expect.tenant, pinned = claims.tenant)
    (carries : ∀ side, CarriesToken K edge (tokenValue tokens side))
    (shared : node.identities = edge.identities)
    (stamps : plan.recordRoute = true) (withTokens : plan.tokens = some (pairOf tokens))
    (built : forward K plan edge = .ok (branch, copy, nextHop))
    (arrives : Arrives side plan.original copy request)
    (keeps : recovers K request node = false) :
    preprocess K request node = (setRoutes K request ((routesOf K request).drop 2),
        some ⟨tokenValue tokens side, some (tokenValue tokens side.complement)⟩) ∧
      verdictFor C keys now expect (tokenValue tokens side)
          (some (tokenValue tokens side.complement)) = .ok (.valid (claims.facing side)) ∧
        verdictFor C keys now expect (tokenValue tokens side.complement)
          (some (tokenValue tokens side)) = .ok (.valid (claims.facing side.complement)) := by
  obtain ⟨originating, terminating, isOriginating, isTerminating, stamped⟩ :=
    recordRoutesOf_forward built stamps withTokens
  let stamp : Direction → Text
    | .originating => originating
    | .terminating => terminating
  have isStamp : ∀ side, recordRouteValue edge (some (tokenValue tokens side)) =
      .ok (stamp side) := by
    intro side
    cases side with
    | originating => exact isOriginating
    | terminating => exact isTerminating
  obtain ⟨rest, leads⟩ := routesOf_of_arrives (fun side => utf8 (stamp side)) stamped arrives
  have verdict := verdictFor_pair member opens distinct minted inTime inTenant
  refine ⟨?_, verdict side, ?_⟩
  · rw [preprocess_pair keeps leads (platformToken_of_carries (carries _) shared (isStamp _))
      (platformToken_of_carries (carries _) shared (isStamp _)), leads]
    rfl
  · have other := verdict side.complement
    rw [Direction.complement_complement] at other
    exact other

end RoundTrip

/-! ## A dialog -/

section Dialog

open Sip.Reference

def dialogKey : MintKey :=
  ⟨7, .chaCha20Poly1305, .zeros 32⟩

def dialogEntry : KeyEntry :=
  ⟨dialogKey, 10, 20, true⟩

def dialogKeys : KeySet where
  entries := [dialogEntry]
  windows := by decide
  oneMints := rfl
  apart := List.pairwise_singleton _ _

def dialogClaims : Claims :=
  ⟨1, 2, 3, .originating, 4, 5, 15, [1, 2]⟩

theorem dialogNonce_length : (1 :: Wire.zeroed 11).length = 12 :=
  rfl

def dialogNonces : Direction → Octets 12
  | .originating => .zeros 12
  | .terminating => ⟨1 :: Wire.zeroed 11, dialogNonce_length⟩

/-- The pair of the dialog. -/
def dialogTokens (side : Direction) : Token :=
  (mint default (dialogClaims.facing side) dialogKey (dialogNonces side)).toOption.getD ⟨[], 0⟩

def dialogEdge : ProxyConfig :=
  .new (text "edge.test") (bytes "<sip:edge.test;lr>") (bytes "key")

/-- The request that forms the dialog. -/
def dialogPlan : ForwardPlan kernel.Uri where
  original :=
    { method := .invite
      uri := uri "sip:bob@edge.test"
      headers := [row .via "SIP/2.0/UDP alice.test;branch=z9hG4bK1", row .callId "c"]
      body := [] }
  validated := ⟨70, 60, ⟨bytes "sip:bob@edge.test", none, none, bytes "c", 1, none, []⟩⟩
  target := ⟨bytes "sip:bob@10.0.0.1", [], 1000⟩
  index := 0
  parallelBranches := 1
  recordRoute := true
  tokens := some (pairOf dialogTokens)

/-- What the called side is sent. -/
def dialogCopy : Request kernel.Uri :=
  ((forward kernel dialogPlan dialogEdge).toOption.map fun copy => copy.2.1).getD
    dialogPlan.original

/-- A mid-dialog request of a side to this URI. -/
def midDialog (side : Direction) (target : String) : Request kernel.Uri where
  method := .bye
  uri := uri target
  headers := (learned side (recordRoutesOf kernel dialogCopy)).map fun value => ⟨.route, value⟩
  body := []

theorem dialog_carries (side : Direction) :
    CarriesToken kernel dialogEdge (tokenValue dialogTokens side) := by
  apply carriesToken_of_reads
  cases side <;> decide +kernel

/-- Either side of the dialog brings the pair back. -/
theorem pair_roundTrip_dialog : dialogEntry.verifiesAt 15 = true ∧
    ∀ side, (preprocess kernel (midDialog side "sip:alice@10.0.0.2") dialogEdge).2 =
        some ⟨tokenValue dialogTokens side, some (tokenValue dialogTokens side.complement)⟩ ∧
      verdictFor default dialogKeys 15 .default (tokenValue dialogTokens side)
        (some (tokenValue dialogTokens side.complement)) =
          .ok (.valid (dialogClaims.facing side)) := by
  have opens : dialogEntry.verifiesAt 15 = true := by decide
  refine ⟨opens, ?_⟩
  intro side
  have builds : (forward kernel dialogPlan dialogEdge).toOption.isSome = true := by decide +kernel
  cases copied : forward kernel dialogPlan dialogEdge with
  | error refused =>
      rw [copied] at builds
      contradiction
  | ok copy =>
      obtain ⟨branch, copy, nextHop⟩ := copy
      have isCopy : dialogCopy = copy := by
        rw [dialogCopy, copied]
        rfl
      have minted : ∀ side, mint default (dialogClaims.facing side) dialogEntry.key
          (dialogNonces side) = .ok (dialogTokens side) := by
        intro side
        cases side <;> decide +kernel
      have arrives : Arrives (K := kernel) side dialogPlan.original copy
          (midDialog side "sip:alice@10.0.0.2") := by
        refine ⟨[], ?_⟩
        rw [← isCopy]
        cases side <;> decide +kernel
      have distinct : dialogNonces .originating ≠ dialogNonces .terminating := by decide
      have inTenant : ∀ pinned ∈ Expect.default.tenant, pinned = dialogClaims.tenant :=
        fun pinned isPinned => absurd isPinned (Option.not_mem_none pinned)
      have keeps : recovers kernel (midDialog side "sip:alice@10.0.0.2") dialogEdge = false := by
        cases side <;> decide +kernel
      have inTime : 15 ≤ saturatingAdd dialogClaims.expiry Expect.default.skew := by decide
      have member : dialogEntry ∈ dialogKeys.entries := List.mem_singleton_self _
      have shared : dialogEdge.identities = dialogEdge.identities := rfl
      have trip := pair_roundTrip member opens distinct minted inTime inTenant dialog_carries
        shared rfl rfl copied arrives keeps
      exact ⟨congrArg Prod.snd trip.1, trip.2.1⟩

/-- The reference kernel, taking a value with a comma for several, which are not one
address. -/
def oneAddressKernel : Kernel :=
  { kernel with
    parseAddress := fun raw =>
      if ',' ∈ fromUtf8Lossy raw then none else kernel.parseAddress raw }

/-- The same request with its two `Route`s in one row. -/
def joinedDialog (side : Direction) : Request oneAddressKernel.Uri where
  method := .bye
  uri := uri "sip:alice@10.0.0.2"
  headers := [⟨.route, (bytes ", ").intercalate (learned side (recordRoutesOf kernel dialogCopy))⟩]
  body := []

/-- A request addressed to this platform's own `Record-Route` loses half of the pair to
the recovery of its Request-URI, and one that joins the pair in a row keeps both. -/
theorem not_pair_roundTrip :
    (preprocess kernel (midDialog .originating "sip:edge.test;lr") dialogEdge).2 =
        some ⟨tokenValue dialogTokens .originating, none⟩ ∧
      (preprocess oneAddressKernel (joinedDialog .originating) dialogEdge).2 = none ∧
        (routesOf oneAddressKernel
          (preprocess oneAddressKernel (joinedDialog .originating) dialogEdge).1).length = 1 := by
  decide +kernel

end Dialog

end SipxClstr.Proxy
