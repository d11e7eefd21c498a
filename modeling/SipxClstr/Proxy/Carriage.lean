import Mathlib.Data.List.ReduceOption
import SipxClstr.Proxy.Route
import SipxClstr.Sip.Reference

/-!
# What preprocessing offers for verification

Preprocessing removes platform URIs from a request: the Request-URI that P1
replaces, and the leading `Route`s that P2 pops.  This file compares the
affinity tokens those URIs carried with the carriage handed to verification.
-/

namespace SipxClstr.Proxy

open SipxClstr.Sip

/-- The tokens a carriage offers, the governing one first. -/
def TokenCarriage.tokens (carriage : TokenCarriage) : List Bytes :=
  carriage.token :: carriage.partner.toList

variable (K : Kernel)

/-! ## The tokens consumed -/

/-- Whether P1 replaces the Request-URI. -/
def recovers (request : Request K.Uri) (config : ProxyConfig) : Bool :=
  isOurRecordRouteValue K request config && (lastRoute K request).isSome

/-- The `Route` values P2 reads: those that arrived, or, when P1 took the last
one, the others that a row can be built from. -/
def itinerary (request : Request K.Uri) (config : ProxyConfig) : List Bytes :=
  if recovers K request config then
    (routesOf K request).dropLast.filter (K.acceptsValue .route)
  else
    routesOf K request

/-- The token of a `Route` value that names this platform; `none` when the
value does not parse or names another element. -/
def platformToken (config : ProxyConfig) (value : Bytes) : Option (Option Bytes) :=
  ((K.parseAddress value).filter fun address => config.isOurs K address.uri).map
    fun address => tokenOf K address.uri

/-- The token of the Request-URI that P1 replaces. -/
def recoveredToken (request : Request K.Uri) (config : ProxyConfig) : Option Bytes :=
  if recovers K request config then tokenOf K request.uri else none

/-- The tokens of the `Route`s that P2 pops, tokenless ones included. -/
def popped (request : Request K.Uri) (config : ProxyConfig) : List (Option Bytes) :=
  poppedTokens K config ((routesOf K (recoverStrictRouting K request config)).take 2)

/-- Every token preprocessing removes from the message, in the order removed. -/
def consumedTokens (request : Request K.Uri) (config : ProxyConfig) : List Bytes :=
  (recoveredToken K request config).toList ++ (popped K request config).reduceOption

/-- P1 replaces a Request-URI that carries a token. -/
def ReplacesToken (request : Request K.Uri) (config : ProxyConfig) : Prop :=
  recovers K request config ∧ (tokenOf K request.uri).isSome

/-- Two platform `Route`s lead the itinerary, and only the second has a token. -/
def TokenlessLead (request : Request K.Uri) (config : ProxyConfig) : Prop :=
  ∃ lead follower rest token,
    itinerary K request config = lead :: follower :: rest ∧
      platformToken K config lead = some none ∧
        platformToken K config follower = some (some token)

/-- The carriage offers exactly the tokens consumed: the first as governing
token and the next as its partner.  Nothing is asked when none was consumed. -/
def OffersConsumed (request : Request K.Uri) (config : ProxyConfig) : Prop :=
  consumedTokens K request config ≠ [] →
    (preprocess K request config).2.map TokenCarriage.tokens =
      some (consumedTokens K request config)

variable {K : Kernel}

/-! ## What P1 and P2 leave and take -/

/-- A built row carries the value it was built from. -/
theorem build_eq (name : HeaderName) (value : Bytes) :
    Header.build K name value =
      if K.acceptsValue name value then some ⟨name, value⟩ else none :=
  rfl

/-- The `Route`s set are the ones a row can be built from. -/
theorem routesOf_setRoutes (request : Request K.Uri) (values : List Bytes) :
    routesOf K (setRoutes K request values) = values.filter (K.acceptsValue .route) := by
  have removed : Headers.getAll (Headers.removeAll request.headers .route) .route = [] := by
    simp [Headers.getAll, Headers.removeAll]
  have built : ∀ values : List Bytes,
      (Headers.getAll (values.filterMap fun value => Header.build K .route value) .route).map
        Header.value = values.filter (K.acceptsValue .route) := by
    intro values
    induction values with
    | nil => rfl
    | cons value rest ih =>
        by_cases accepted : K.acceptsValue .route value
        · have builtValue : Header.build K .route value = some ⟨.route, value⟩ := by
            simp [build_eq, accepted]
          simpa [Headers.getAll, builtValue, accepted] using ih
        · have refused : Header.build K .route value = none := by simp [build_eq, accepted]
          simpa [refused, accepted] using ih
  simp only [routesOf, setRoutes, pushRoutes, Headers.getAll_append, removed, List.nil_append]
  exact built values

theorem routesOf_recoverStrictRouting (request : Request K.Uri) (config : ProxyConfig) :
    routesOf K (recoverStrictRouting K request config) = itinerary K request config := by
  unfold recoverStrictRouting itinerary recovers
  by_cases ours : isOurRecordRouteValue K request config
  · cases last : lastRoute K request with
    | none => simp [ours]
    | some uri => simpa [ours] using routesOf_setRoutes { request with uri } _
  · simp [ours]

@[simp]
theorem poppedTokens_nil (config : ProxyConfig) : poppedTokens K config [] = [] :=
  rfl

/-- P2 pops a leading `Route` exactly when it names this platform. -/
theorem poppedTokens_cons (config : ProxyConfig) (value : Bytes) (rest : List Bytes) :
    poppedTokens K config (value :: rest) =
      match platformToken K config value with
      | none => []
      | some token => token :: poppedTokens K config rest := by
  rw [poppedTokens, platformToken]
  cases K.parseAddress value with
  | none => rfl
  | some address =>
      by_cases ours : config.isOurs K address.uri <;> simp [Option.filter, ours]

theorem popped_eq (request : Request K.Uri) (config : ProxyConfig) :
    popped K request config = poppedTokens K config ((itinerary K request config).take 2) := by
  rw [popped, routesOf_recoverStrictRouting]

/-- P2 pops at most a pair. -/
theorem length_popped_le (request : Request K.Uri) (config : ProxyConfig) :
    (popped K request config).length ≤ 2 := by
  have scanned : ∀ values, (poppedTokens K config values).length ≤ values.length := by
    intro values
    induction values with
    | nil => simp [poppedTokens]
    | cons value rest ih =>
        rw [poppedTokens_cons]
        cases platformToken K config value with
        | none => simp
        | some token => simpa using ih
  exact (scanned _).trans (List.length_take_le 2 _)

/-- A tokenless `Route` before a tokened one is what P2 pops of a tokenless
lead, and of nothing else. -/
theorem popped_eq_tokenless_iff (request : Request K.Uri) (config : ProxyConfig) :
    (∃ token, popped K request config = [none, some token]) ↔
      TokenlessLead K request config := by
  rw [popped_eq]
  constructor
  · rintro ⟨token, pair⟩
    match routes : itinerary K request config with
    | [] => simp [routes] at pair
    | [lead] =>
        rw [routes] at pair
        cases platform : platformToken K config lead <;>
          simp [poppedTokens_cons, platform] at pair
    | lead :: follower :: rest =>
        rw [routes] at pair
        simp only [List.take_succ_cons, List.take_zero, poppedTokens_cons,
          poppedTokens_nil] at pair
        cases first : platformToken K config lead with
        | none => simp [first] at pair
        | some leadToken =>
            cases second : platformToken K config follower with
            | none => simp [first, second] at pair
            | some followerToken =>
                simp only [first, second, List.cons.injEq] at pair
                obtain ⟨rfl, rfl, -⟩ := pair
                exact ⟨lead, follower, rest, token, routes, first, second⟩
  · rintro ⟨lead, follower, rest, token, routes, first, second⟩
    exact ⟨token, by simp [routes, poppedTokens_cons, first, second]⟩

theorem preprocess_carriage (request : Request K.Uri) (config : ProxyConfig) :
    (preprocess K request config).2 = carriageOf (popped K request config) := by
  simp only [preprocess, popped]
  split
  · next none_popped => simp [none_popped, carriageOf]
  · rfl

/-- P2 on its own offers what it pops, unless a tokenless `Route` led. -/
theorem carriageOf_offers_iff {tokens : List (Option Bytes)} (pair : tokens.length ≤ 2) :
    (tokens.reduceOption ≠ [] →
        (carriageOf tokens).map TokenCarriage.tokens = some tokens.reduceOption) ↔
      ¬ ∃ token, tokens = [none, some token] := by
  match tokens, pair with
  | [], _ => simp
  | [none], _ => simp
  | [some token], _ => simp [carriageOf, TokenCarriage.tokens]
  | [none, none], _ => simp
  | [none, some token], _ => simp [carriageOf]
  | [some token, none], _ => simp [carriageOf, TokenCarriage.tokens]
  | [some token, some partner], _ =>
      simp [carriageOf, TokenCarriage.tokens]

/-- A carriage never offers more tokens than P2 popped. -/
theorem carriageOf_tokens_length (tokens : List (Option Bytes)) {carriage : TokenCarriage}
    (carried : carriageOf tokens = some carriage) :
    carriage.tokens.length ≤ tokens.reduceOption.length := by
  match tokens, carried with
  | [some token], rfl => simp [TokenCarriage.tokens]
  | some token :: none :: rest, rfl => simp [TokenCarriage.tokens]
  | some token :: some partner :: rest, rfl => simp [TokenCarriage.tokens]

/-! ## The two ways a token is lost -/

/-- Preprocessing offers every token it consumes, in order, except in two
cases: P1 replaces a Request-URI that carries one, or P2 pops a tokenless
platform `Route` in front of a tokened one. -/
theorem offersConsumed_iff (request : Request K.Uri) (config : ProxyConfig) :
    OffersConsumed K request config ↔
      ¬ ReplacesToken K request config ∧ ¬ TokenlessLead K request config := by
  unfold OffersConsumed
  rw [preprocess_carriage, ← popped_eq_tokenless_iff]
  by_cases replaces : ReplacesToken K request config
  · -- The carriage has at most the popped tokens, one fewer than were consumed.
    obtain ⟨fires, carried⟩ := replaces
    obtain ⟨token, tokenEq⟩ := Option.isSome_iff_exists.mp carried
    have consumed : consumedTokens K request config =
        token :: (popped K request config).reduceOption := by
      simp [consumedTokens, recoveredToken, fires, tokenEq]
    have lost : (carriageOf (popped K request config)).map TokenCarriage.tokens ≠
        some (consumedTokens K request config) := by
      intro offered
      obtain ⟨carriage, carriageEq, tokensEq⟩ := Option.map_eq_some_iff.mp offered
      have bounded := carriageOf_tokens_length _ carriageEq
      rw [tokensEq, consumed, List.length_cons] at bounded
      omega
    have consumedSome : consumedTokens K request config ≠ [] := by simp [consumed]
    have replacesAgain : ReplacesToken K request config := ⟨fires, carried⟩
    simp [consumedSome, lost, replacesAgain]
  · have consumed : consumedTokens K request config =
        (popped K request config).reduceOption := by
      cases fires : recovers K request config with
      | false => simp [consumedTokens, recoveredToken, fires]
      | true =>
          have tokenless : tokenOf K request.uri = none := by
            simpa [ReplacesToken, fires] using replaces
          simp [consumedTokens, recoveredToken, fires, tokenless]
    rw [consumed, carriageOf_offers_iff (length_popped_le request config)]
    simp [replaces]

/-- A tokenless platform `Route` in front of a tokened one: both are popped and
no carriage is returned. -/
theorem not_offersConsumed_tokenless_lead :
    ¬ OffersConsumed Reference.kernel
      { method := .bye, uri := Reference.uri "sip:bob@10.0.0.1", body := [],
        headers := [Reference.row .route "<sip:edge-1.example;lr>",
          Reference.row .route "<sip:edge-1.example;lr;aft=TERM>"] }
      (.new (text "edge-1.example") (bytes "<sip:edge-1.example;lr>") (bytes "key")) := by
  unfold OffersConsumed
  decide +kernel

end SipxClstr.Proxy
