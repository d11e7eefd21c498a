import SipxClstr.Registrar.Auth
import SipxClstr.Sip.ReferenceDigest

/-!
# Soundness of authentication

An authenticated request should come from someone who knows the password its
tenant holds for the username presented.  An unknown username is verified
against a placeholder so that it costs what a known one costs, which leaves one
digest that should not authenticate and does.
-/

namespace SipxClstr.Registrar

open SipxClstr.Sip

variable {Uri : Type} {D : DigestKernel Uri}
  (computedFrom : Presented D.Proof → Text → Text → Prop)
  (fresh : D.Authenticator → Presented D.Proof → Nat → Prop)

/-- A decision that records a principal answers credentials whose digest was
computed from a password the store holds for their username. -/
def Sound (auth : TenantAuth D) (request : Request Uri) (store : CredentialStore) (now : Nat) :
    Prop :=
  ∀ principal, (auth.decide request store now).2 = .proceed (some principal) →
    ∃ presented password,
      D.fromRequest request auth.proxy = some presented ∧
        store.password auth.tenant presented.username = some password ∧
          computedFrom presented request.method.token password ∧
            fresh auth.authenticator presented now

/-- The request answers the placeholder: credentials of this realm, over a fresh
nonce, for a username the store does not hold, computed from the text that
stands in for its password. -/
def AnswersPlaceholder (auth : TenantAuth D) (request : Request Uri) (store : CredentialStore)
    (now : Nat) : Prop :=
  auth.required = true ∧
    ∃ presented,
      D.fromRequest request auth.proxy = some presented ∧
        presented.realm = D.realm auth.authenticator ∧
          store.password auth.tenant presented.username = none ∧
            computedFrom presented request.method.token absentUserPlaceholder ∧
              fresh auth.authenticator presented now

/-- A request proceeds as a principal exactly when the tenant authenticates and
the kernel accepts its credentials under the password verification ran
against. -/
theorem decide_eq_proceed_iff (auth : TenantAuth D) (request : Request Uri)
    (store : CredentialStore) (now : Nat) (principal : Bytes) :
    (auth.decide request store now).2 = .proceed (some principal) ↔
      auth.required = true ∧
        ∃ presented,
          D.fromRequest request auth.proxy = some presented ∧
            presented.realm = D.realm auth.authenticator ∧
              (D.verifyAt auth.authenticator presented request.method.token
                  (auth.passwordFor store presented.username) now).2 = .authenticated ∧
                auth.principal presented.username = principal := by
  unfold TenantAuth.decide
  cases required : auth.required with
  | false => simp
  | true =>
      cases offered : D.fromRequest request auth.proxy with
      | none => simp
      | some presented =>
          by_cases realm : presented.realm = D.realm auth.authenticator
          · cases verdict : (D.verifyAt auth.authenticator presented request.method.token
                (auth.passwordFor store presented.username) now).2 with
            | authenticated => simp [realm, verdict]
            | stale => simp [realm, verdict]
            | rejected reason => simp [realm, verdict]
          · simp [realm]

variable {computedFrom fresh}

/-- The same, for a kernel that verifies as it is relied on to. -/
theorem decide_eq_proceed_iff_computedFrom (verifies : D.Verifies computedFrom fresh)
    (auth : TenantAuth D) (request : Request Uri) (store : CredentialStore) (now : Nat)
    (principal : Bytes) :
    (auth.decide request store now).2 = .proceed (some principal) ↔
      auth.required = true ∧
        ∃ presented,
          D.fromRequest request auth.proxy = some presented ∧
            presented.realm = D.realm auth.authenticator ∧
              computedFrom presented request.method.token
                  (auth.passwordFor store presented.username) ∧
                fresh auth.authenticator presented now ∧
                  auth.principal presented.username = principal := by
  rw [decide_eq_proceed_iff]
  refine and_congr_right fun _ => exists_congr fun presented => and_congr_right fun _ =>
    and_congr_right fun realm => ?_
  rw [verifies.authenticated_iff _ _ _ _ _ realm, and_assoc]

/-- Authentication is sound on every request but those that answer the
placeholder. -/
theorem sound_iff_not_answersPlaceholder (verifies : D.Verifies computedFrom fresh)
    (auth : TenantAuth D) (request : Request Uri) (store : CredentialStore) (now : Nat) :
    Sound computedFrom fresh auth request store now ↔
      ¬ AnswersPlaceholder computedFrom fresh auth request store now := by
  constructor
  · -- The placeholder's digest authenticates, and there is no stored password.
    rintro sound ⟨required, presented, offered, realm, absent, computed, freshNonce⟩
    have placeholder : auth.passwordFor store presented.username = absentUserPlaceholder := by
      simp [TenantAuth.passwordFor, absent]
    have proceeds : (auth.decide request store now).2 =
        .proceed (some (auth.principal presented.username)) := by
      rw [decide_eq_proceed_iff_computedFrom verifies]
      exact ⟨required, presented, offered, realm, by rwa [placeholder], freshNonce, rfl⟩
    obtain ⟨again, password, offeredAgain, held, -⟩ := sound _ proceeds
    rw [offered, Option.some.injEq] at offeredAgain
    rw [← offeredAgain, absent] at held
    contradiction
  · intro notPlaceholder principal proceeds
    rw [decide_eq_proceed_iff_computedFrom verifies] at proceeds
    obtain ⟨required, presented, offered, realm, computed, freshNonce, -⟩ := proceeds
    cases held : store.password auth.tenant presented.username with
    | none =>
        have placeholder : auth.passwordFor store presented.username = absentUserPlaceholder := by
          simp [TenantAuth.passwordFor, held]
        rw [placeholder] at computed
        exact absurd ⟨required, presented, offered, realm, held, computed, freshNonce⟩
          notPlaceholder
    | some password =>
        have stored : auth.passwordFor store presented.username = password := by
          simp [TenantAuth.passwordFor, held]
        rw [stored] at computed
        exact ⟨presented, password, offered, held, computed, freshNonce⟩

/-! ## At a tenant with one user -/

/-- `acme`, which authenticates in `acme.example`. -/
def acme : TenantAuth Reference.digest where
  tenant := text "acme"
  authenticator :=
    { realm := text "acme.example", secret := bytes "secret", lifetime := 300, spent := [] }
  required := true
  proxy := false

/-- A store that holds only `alice`. -/
def onlyAlice : CredentialStore :=
  (InMemoryCredentials.record [] (text "acme") (text "alice") (text "wonderland")).store

/-- Credentials for a username, over the nonce `acme` minted at 1000. -/
def credentials (username response : String) : Presented Reference.Proof where
  username := text username
  realm := text "acme.example"
  proof :=
    { nonce := text "1000.0374a04c5ef5dc93862264c6d7f56fbe04805b140b2f09586ca5e426a824ad6d"
      uri := text "sip:acme.example"
      qop := text "auth"
      nc := text "00000001"
      cnonce := text "c"
      response := text response }

/-- A `REGISTER` that presents these credentials. -/
def registerAs (username response : String) : Request Reference.ParsedUri where
  method := .register
  uri := Reference.uri "sip:acme.example"
  headers := [⟨.authorization, utf8 (text "Digest username=\"" ++ text username ++
    text "\", realm=\"acme.example\", nonce=\"1000." ++
    text "0374a04c5ef5dc93862264c6d7f56fbe04805b140b2f09586ca5e426a824ad6d\", " ++
    text "uri=\"sip:acme.example\", qop=auth, nc=00000001, cnonce=\"c\", response=\"" ++
    text response ++ text "\"")⟩]
  body := []

/-- `mallory`, whom the store does not hold, with a digest computed from the
placeholder, proceeds as `acme:mallory`. -/
theorem not_sound_placeholder_digest :
    ¬ Sound Reference.ComputedFrom Reference.Fresh acme
      (registerAs "mallory" "6c8c371d2e927eeec16ed0b26c0031d154c5f43aae73780bba60a6f3a6a155a8")
      onlyAlice 1010 := by
  intro sound
  let mallory :=
    credentials "mallory" "6c8c371d2e927eeec16ed0b26c0031d154c5f43aae73780bba60a6f3a6a155a8"
  have offered : Reference.digest.fromRequest (registerAs "mallory"
      "6c8c371d2e927eeec16ed0b26c0031d154c5f43aae73780bba60a6f3a6a155a8") false =
        some mallory := by
    change Reference.presentedFrom _ false = some mallory
    decide +kernel
  have absent : onlyAlice.password (text "acme") (text "mallory") = none := by decide +kernel
  have placeholder : acme.passwordFor onlyAlice mallory.username = absentUserPlaceholder := by
    decide +kernel
  have computed : Reference.ComputedFrom mallory (text "REGISTER") absentUserPlaceholder := by
    unfold Reference.ComputedFrom
    decide +kernel
  have freshNonce : Reference.Fresh acme.authenticator mallory 1010 := by
    unfold Reference.Fresh
    decide +kernel
  have proceeds := (decide_eq_proceed_iff_computedFrom Reference.digest_verifies acme _
    onlyAlice 1010 (bytes "acme:mallory")).mpr
      ⟨rfl, mallory, offered, rfl, by rw [placeholder]; exact computed, freshNonce, by decide⟩
  obtain ⟨presented, password, offeredAgain, held, -⟩ := sound _ proceeds
  have same : mallory = presented := Option.some.inj (offered.symm.trans offeredAgain)
  rw [← same] at held
  exact Option.some_ne_none _ (held.symm.trans absent)

/-- `alice`, whom the store holds, cannot answer the placeholder. -/
theorem sound_alice :
    Sound Reference.ComputedFrom Reference.Fresh acme
      (registerAs "alice" "53ba372e1dc9872ff16fa5305d2733b2a884f5b776803ef8eb272ff5db53b668")
      onlyAlice 1010 := by
  refine (sound_iff_not_answersPlaceholder Reference.digest_verifies acme _ onlyAlice 1010).mpr ?_
  rintro ⟨-, presented, offered, -, absent, -⟩
  have offeredAlice : Reference.presentedFrom (registerAs "alice"
      "53ba372e1dc9872ff16fa5305d2733b2a884f5b776803ef8eb272ff5db53b668") false =
        some (credentials "alice"
          "53ba372e1dc9872ff16fa5305d2733b2a884f5b776803ef8eb272ff5db53b668") := by
    decide +kernel
  have held : onlyAlice.password (text "acme") (text "alice") = some (text "wonderland") := by
    decide +kernel
  have same := Option.some.inj (offered.symm.trans offeredAlice)
  rw [same] at absent
  exact Option.some_ne_none _ (held.symm.trans absent)

end SipxClstr.Registrar
