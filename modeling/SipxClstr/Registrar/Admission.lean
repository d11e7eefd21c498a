import SipxClstr.Registrar.Parse

/-!
# What admission guarantees

A command comes out of admission only through every gate, and says whose it is; the audit
record is that of the decision, wherever there was one.
-/

namespace SipxClstr.Registrar

open SipxClstr.Sip

theorem bind_eq_ok {ε α β : Type} {first : Except ε α} {second : α → Except ε β} {result : β} :
    (first >>= second) = .ok result ↔ ∃ value, first = .ok value ∧ second value = .ok result := by
  cases first with
  | error _ => simp [bind, Except.bind]
  | ok value => simp [bind, Except.bind]

theorem okOr_eq_ok {α : Type} {value : Option α} {rejection : Rejection} {result : α} :
    okOr value rejection = .ok result ↔ value = some result := by
  cases value <;> simp [okOr]

/-- What an audit record says of the decision it records. -/
def Describes : AuthOutcome → Decision → Prop
  | .authenticated principal, decision => decision = .proceed (some principal)
  | .unauthenticated, decision => decision = .proceed none
  | .challenged status, decision =>
      ∃ response, decision = .challenge response ∧ response.status = status ∧
        response.because = none ∧ response.stale = false
  | .refused status stale because, decision =>
      ∃ response, decision = .challenge response ∧ response.status = status ∧
        response.because = because ∧ response.stale = stale ∧
          (because ≠ none ∨ stale = true)
  | .forbidden, decision => decision = .forbidden

theorem describes_outcome (decision : Decision) : Describes decision.outcome decision := by
  cases decision with
  | proceed principal => cases principal <;> rfl
  | forbidden => rfl
  | challenge response =>
      cases because : response.because with
      | none =>
          cases stale : response.stale <;> simp [Decision.outcome, Describes, because, stale]
      | some reason => simp [Decision.outcome, Describes, because]

variable {K : Kernel} {P : UriParts K} {parseList : Bytes → Option (List (ContactAddress K))}
  {D : DigestKernel K.Uri}

/-- What is true of a command that was built for an edge. -/
structure Built (P : UriParts K) (request : Request K.Uri) (tenant : Text)
    (principal : Option Bytes) (policy : RegistrationPolicy) (cmd : RegisterCommand K) : Prop where
  tenant : cmd.tenant = tenant
  principal : cmd.principal = principal
  authorized : policy.authorizes cmd.tenant cmd.principal cmd.aor = true
  /-- The address-of-record is the canonical form of the `To` URI, whose authority is
  served. -/
  addressOfRecord : ∃ value address authority,
    Headers.value request.headers .toHeader = some value ∧ K.parseAddress value = some address ∧
      CanonicalAor.fromUri P address.uri = .ok cmd.aor ∧
        RequestAuthority.fromUri P address.uri = some authority ∧
          policy.serves cmd.tenant authority = true

theorem built_of_command {request : Request K.Uri} {edge : EdgeContext}
    {principal : Option Bytes} {policy : RegistrationPolicy} {now : Timestamp}
    {cmd : RegisterCommand K}
    (built : command P parseList request edge principal policy now = .ok cmd) :
    Built P request edge.tenant principal policy cmd := by
  unfold command at built
  obtain ⟨callId, -, built⟩ := bind_eq_ok.mp built
  obtain ⟨cseq, -, built⟩ := bind_eq_ok.mp built
  obtain ⟨value, isValue, built⟩ := bind_eq_ok.mp built
  obtain ⟨address, isAddress, built⟩ := bind_eq_ok.mp built
  obtain ⟨aor, isAor, built⟩ := bind_eq_ok.mp built
  rw [okOr_eq_ok] at isValue isAddress
  have canonical : CanonicalAor.fromUri P address.uri = .ok aor := by
    cases form : CanonicalAor.fromUri P address.uri with
    | ok key =>
        rw [form] at isAor
        cases isAor
        rfl
    | error reason =>
        rw [form] at isAor
        cases isAor
  cases authorized : policy.authorizes edge.tenant principal aor with
  | false => simp [authorized] at built
  | true =>
      simp only [authorized, Bool.not_true, Bool.false_eq_true, if_false] at built
      obtain ⟨authority, isAuthority, built⟩ := bind_eq_ok.mp built
      rw [okOr_eq_ok] at isAuthority
      cases served : policy.serves edge.tenant authority with
      | false => simp [served] at built
      | true =>
          simp only [served, Bool.not_true, Bool.false_eq_true, if_false] at built
          obtain ⟨contacts, -, built⟩ := bind_eq_ok.mp built
          cases built
          exact ⟨rfl, rfl, authorized,
            ⟨value, address, authority, isValue, isAddress, canonical, isAuthority, served⟩⟩

/-- The tenant serves the authority of the request. -/
def ServesRequest (P : UriParts K) (request : Request K.Uri) (tenant : Text)
    (policy : RegistrationPolicy) : Prop :=
  ∃ authority, RequestAuthority.fromUri P request.uri = some authority ∧
    policy.serves tenant authority = true

/-- Admission is sound: a command has passed every gate, authentication leaves its record
with what it decided wherever it was reached, and nothing where it was not. -/
structure Admits (P : UriParts K) (request : Request K.Uri) (auth : TenantAuth D)
    (credentials : CredentialStore) (policy : RegistrationPolicy) (now : Timestamp)
    (admitted : TenantAuth D × Admission K × Option AuthOutcome) : Prop where
  command : ∀ cmd, admitted.2.1 = .command cmd →
    ServesRequest P request cmd.tenant policy ∧
      ∃ principal, (auth.decide request credentials now.asSecs).2 = .proceed principal ∧
        Built P request auth.tenant principal policy cmd
  reached : ServesRequest P request auth.tenant policy →
    admitted.1 = (auth.decide request credentials now.asSecs).1 ∧
      ∃ outcome, admitted.2.2 = some outcome ∧
        Describes outcome (auth.decide request credentials now.asSecs).2
  unreached : ¬ ServesRequest P request auth.tenant policy →
    admitted.1 = auth ∧ admitted.2.2 = none

/-- Deciding leaves the tenant. -/
theorem tenant_decide (auth : TenantAuth D) (request : Request K.Uri)
    (credentials : CredentialStore) (now : Nat) :
    (auth.decide request credentials now).1.tenant = auth.tenant := by
  unfold TenantAuth.decide
  split
  · rfl
  · split
    · rfl
    · split
      · rfl
      · simp only
        split <;> rfl

theorem admits_admitAudited (request : Request K.Uri) (auth : TenantAuth D)
    (credentials : CredentialStore) (policy : RegistrationPolicy) (edge : EdgeContext)
    (now : Timestamp) :
    Admits P request auth credentials policy now
      (admitAudited P parseList request auth credentials policy edge now) := by
  unfold admitAudited
  cases isAuthority : RequestAuthority.fromUri P request.uri with
  | none =>
      have unserved : ¬ ServesRequest P request auth.tenant policy := by
        rintro ⟨authority, named, -⟩
        rw [isAuthority] at named
        contradiction
      exact ⟨fun _ isCommand => by contradiction, fun served => absurd served unserved,
        fun _ => ⟨rfl, rfl⟩⟩
  | some authority =>
      cases served : policy.serves auth.tenant authority with
      | false =>
          have unserved : ¬ ServesRequest P request auth.tenant policy := by
            rintro ⟨other, named, serves⟩
            rw [isAuthority] at named
            rw [← Option.some.inj named, served] at serves
            contradiction
          simp only [served, Bool.not_false, if_true]
          exact ⟨fun _ isCommand => by contradiction, fun isServed => absurd isServed unserved,
            fun _ => ⟨rfl, rfl⟩⟩
      | true =>
          have isServed : ServesRequest P request auth.tenant policy :=
            ⟨authority, isAuthority, served⟩
          simp only [served, Bool.not_true, Bool.false_eq_true, if_false]
          refine ⟨?_, fun _ => ⟨rfl, _, rfl, describes_outcome _⟩,
            fun unserved => absurd isServed unserved⟩
          intro cmd isCommand
          have sameTenant := tenant_decide auth request credentials now.asSecs
          cases decision : (auth.decide request credentials now.asSecs).2 with
          | challenge response =>
              rw [decision] at isCommand
              contradiction
          | forbidden =>
              rw [decision] at isCommand
              contradiction
          | proceed principal =>
              simp only [decision] at isCommand
              split at isCommand
              · next command isOk =>
                  cases isCommand
                  have built := built_of_command isOk
                  simp only [sameTenant] at built
                  refine ⟨?_, principal, rfl, built⟩
                  rw [built.tenant]
                  exact isServed
              · contradiction

end SipxClstr.Registrar
