import SipxClstr.Registrar.Admission
import SipxClstr.Registrar.Store

/-!
# Answering a REGISTER

The driver admits a request, records what authentication decided, and applies the command
to the store.  Nothing but a command reaches the store.
-/

namespace SipxClstr.Node

open SipxClstr.Sip SipxClstr.Registrar

universe u

/-! ## The policy of a node -/

/-- What the kernel says of configured hosts. -/
structure HostRules where
  /-- `Host::parse_hostport`. -/
  parseHostport : Bytes → Option (Host × Option Nat)
  /-- `Host::equivalent`. -/
  equivalent : Host → Host → Bool

/-- What a node's configuration says of registrations. -/
structure RegistrationConfig where
  tenant : Text
  /-- The domains the tenant serves; none means any. -/
  domains : List Text
  registrationAuthorizations : RegistrationAuthorizations

/-- `impl RegistrationPolicy for NodeConfig`. -/
def RegistrationConfig.policy (rules : HostRules) (config : RegistrationConfig) :
    RegistrationPolicy where
  serves tenant authority :=
    if tenant ≠ config.tenant then
      false
    else if config.domains.isEmpty then
      true
    else
      config.domains.any fun served =>
        match rules.parseHostport (utf8 served) with
        -- A malformed configured domain never turns into serve-any.
        | none => false
        | some (host, _) => rules.equivalent host authority.host
  authorizes tenant principal aor :=
    decide (tenant = config.tenant) && config.registrationAuthorizations.authorizes principal aor

/-! ## The driver -/

/-- `DEFAULT_CAS_RETRIES`. -/
def defaultCasRetries : Nat :=
  3

/-- What an edge answers requests with, beside its authenticator and its store. -/
structure Edge where
  tenant : Text
  policy : TenantPolicy
  registration : RegistrationPolicy
  credentials : InMemoryCredentials

/-- A request, and where it came from. -/
structure Incoming (Uri : Type) where
  request : Request Uri
  source : SourceAddr

/-- What the response is rendered from. -/
inductive RegisterAnswer where
  | challenge (response : ChallengeResponse)
  | decided (outcome : Outcome)

/-- What answering a REGISTER leaves and yields. -/
structure Registered (Auth : Type) (σ : Type u) where
  auth : Auth
  /-- The audit record, if there was anything to record. -/
  record : Option AuthOutcome
  store : σ
  /-- What applying the command did, if the store was asked to. -/
  applied : Option Applied
  answer : RegisterAnswer

variable {K : Kernel} (P : UriParts K) (parseList : Bytes → Option (List (ContactAddress K)))
  {D : DigestKernel K.Uri} (R : ContactRules K) {σ : Type u} (store : LocationStore σ)

/-- What admission makes of the request: the edge adds where it came from. -/
def admission (edge : Edge) (arrival : Incoming K.Uri) (auth : TenantAuth D) (now : Timestamp) :
    TenantAuth D × Admission K × Option AuthOutcome :=
  admitAudited P parseList arrival.request auth edge.credentials.store edge.registration
    { tenant := edge.tenant, received := some arrival.source, flowRef := none } now

/-- `register`. -/
def register (edge : Edge) (arrival : Incoming K.Uri) (auth : TenantAuth D) (now : Timestamp)
    (state : σ) : Registered (TenantAuth D) σ :=
  let (auth, admission, record) := admission P parseList edge arrival auth now
  match admission with
  | .command cmd =>
      let (state, applied) := apply R store ⟨cmd, edge.policy, defaultCasRetries⟩ state
      ⟨auth, record, state, some applied, .decided applied.outcome⟩
  | .challenge response => ⟨auth, record, state, none, .challenge response⟩
  | .reject rejection => ⟨auth, record, state, none, .decided (.reject rejection)⟩

section Results

variable {P} {parseList} {edge : Edge} {arrival : Incoming K.Uri} {auth : TenantAuth D}
  {now : Timestamp}

/-- What no command came out of does not reach the store: it is left, nothing is applied,
and the answer is the same whatever the store. -/
theorem register_of_not_command
    (refused : ∀ cmd, (admission P parseList edge arrival auth now).2.1 ≠ .command cmd) (state : σ) :
    (register P parseList R store edge arrival auth now state).store = state ∧
      (register P parseList R store edge arrival auth now state).applied = none ∧
        ∀ {τ : Type u} (other : LocationStore τ) (otherState : τ),
          (register P parseList R other edge arrival auth now otherState).answer =
            (register P parseList R store edge arrival auth now state).answer := by
  unfold register
  generalize admission P parseList edge arrival auth now = admitted at refused ⊢
  obtain ⟨left, admission, record⟩ := admitted
  cases admission with
  | command cmd => exact absurd rfl (refused cmd)
  | challenge response => exact ⟨rfl, rfl, fun _ _ => rfl⟩
  | reject rejection => exact ⟨rfl, rfl, fun _ _ => rfl⟩

/-- What the driver keeps of admission: the authenticator left, and the record. -/
theorem register_record (state : σ) :
    (register P parseList R store edge arrival auth now state).auth =
        (admission P parseList edge arrival auth now).1 ∧
      (register P parseList R store edge arrival auth now state).record =
        (admission P parseList edge arrival auth now).2.2 := by
  unfold register
  generalize admission P parseList edge arrival auth now = admitted
  obtain ⟨left, admission, record⟩ := admitted
  cases admission <;> exact ⟨rfl, rfl⟩

end Results

/-- Admission is sound for every request, authenticator, credential store, policy, edge and
time, and the driver records what it decided and touches the store for a command only. -/
structure AdmissionSound (P : UriParts K) (parseList : Bytes → Option (List (ContactAddress K)))
    (R : ContactRules K) (D : DigestKernel K.Uri) : Prop where
  admits : ∀ (request : Request K.Uri) (auth : TenantAuth D) (credentials : CredentialStore)
    (policy : RegistrationPolicy) (edge : EdgeContext) (now : Timestamp),
    Admits P request auth credentials policy now
      (admitAudited P parseList request auth credentials policy edge now)
  records : ∀ {σ : Type u} (store : LocationStore σ) (edge : Edge) (arrival : Incoming K.Uri)
    (auth : TenantAuth D) (now : Timestamp) (state : σ),
    (register P parseList R store edge arrival auth now state).auth =
        (admission P parseList edge arrival auth now).1 ∧
      (register P parseList R store edge arrival auth now state).record =
        (admission P parseList edge arrival auth now).2.2
  untouched : ∀ {σ : Type u} (store : LocationStore σ) (edge : Edge) (arrival : Incoming K.Uri)
    (auth : TenantAuth D) (now : Timestamp) (state : σ),
    (∀ cmd, (admission P parseList edge arrival auth now).2.1 ≠ .command cmd) →
      (register P parseList R store edge arrival auth now state).store = state ∧
        (register P parseList R store edge arrival auth now state).applied = none ∧
          ∀ {τ : Type u} (other : LocationStore τ) (otherState : τ),
            (register P parseList R other edge arrival auth now otherState).answer =
              (register P parseList R store edge arrival auth now state).answer

theorem admission_sound (P : UriParts K) (parseList : Bytes → Option (List (ContactAddress K)))
    (R : ContactRules K) (D : DigestKernel K.Uri) : AdmissionSound.{u} P parseList R D where
  admits := admits_admitAudited
  records store _ _ _ _ state := register_record R store state
  untouched store _ _ _ _ state refused := register_of_not_command R store refused state

end SipxClstr.Node
