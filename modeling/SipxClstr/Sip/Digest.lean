import SipxClstr.Sip.Kernel

/-!
# The kernel's digest authentication

Nonce minting, the hash formulas, verification and the replay window are the
kernel's.  The registrar's policy is written against the interface here.
-/

namespace SipxClstr.Sip

/-- Why the kernel refused credentials. -/
inductive Reason where
  | mismatch
  | foreignNonce
  | replay
  | qopMismatch
  | algorithm
  deriving DecidableEq, Repr

/-- What the kernel says of presented credentials. -/
inductive Verdict where
  | authenticated
  | stale
  | rejected (reason : Reason)
  deriving DecidableEq, Repr

/-- The credentials a request presents.  The kernel keeps what its digest is
computed over in `proof`. -/
structure Presented (Proof : Type) where
  username : Text
  realm : Text
  proof : Proof
  deriving DecidableEq

/-- The kernel's digest primitives, for requests with URIs in `Uri`. -/
structure DigestKernel (Uri : Type) where
  /-- A realm's secret and its replay window. -/
  Authenticator : Type
  Proof : Type
  realm : Authenticator → Text
  /-- `Presented::from_request`; the flag selects `Proxy-Authorization`. -/
  fromRequest : Request Uri → Bool → Option (Presented Proof)
  /-- `Authenticator::verify_at`, for a method, a password and a time. -/
  verifyAt : Authenticator → Presented Proof → Text → Text → Nat → Authenticator × Verdict
  /-- `Authenticator::challenge_at`, stale or not, at a time. -/
  challengeAt : Authenticator → Bool → Nat → Text

/-- `Authenticator::challenge_header`. -/
def challengeHeader (proxy : Bool) : HeaderName :=
  if proxy then .proxyAuthenticate else .wwwAuthenticate

/-- What a digest kernel's verdict is relied on to mean: credentials of this
realm authenticate exactly when their digest was computed from the password
given, over a nonce that is fresh and unreplayed. -/
structure DigestKernel.Verifies {Uri : Type} (D : DigestKernel Uri)
    (computedFrom : Presented D.Proof → Text → Text → Prop)
    (fresh : D.Authenticator → Presented D.Proof → Nat → Prop) : Prop where
  authenticated_iff : ∀ authenticator presented method password now,
    presented.realm = D.realm authenticator →
      ((D.verifyAt authenticator presented method password now).2 = .authenticated ↔
        computedFrom presented method password ∧ fresh authenticator presented now)

end SipxClstr.Sip
