import SipxClstr.Sip.Digest
import SipxClstr.Sip.Reference
import SipxClstr.Sip.Sha256

/-!
# Reference digest authentication

Concrete digest primitives to run the registrar's policy with: SHA-256 with
`qop=auth`, nonces that carry the time they were minted and a tag under the
realm's secret, and a replay window that keeps every pair of nonce and nonce
count it accepted.
-/

namespace SipxClstr.Sip.Reference

open Sha256

/-- A realm, its secret, how long a nonce lives, and the pairs already used. -/
structure Authenticator where
  realm : Text
  secret : Bytes
  lifetime : Nat
  spent : List (Text × Text)

/-- What a response digest is computed over, and the digest. -/
structure Proof where
  nonce : Text
  uri : Text
  qop : Text
  nc : Text
  cnonce : Text
  response : Text
  deriving DecidableEq

/-- A value without the double quotes around it. -/
def unquoted (value : Text) : Text :=
  match value with
  | '"' :: rest => if rest.getLast? = some '"' then rest.dropLast else value
  | _ => value

/-- The parameters of a `Digest` credentials value. -/
def credentialParams (value : Text) : Option (List (Text × Text)) :=
  match splitOnce ' ' (trim value) with
  | (_, none) => none
  | (scheme, some params) =>
      if toAsciiLowercase scheme = text "digest" then
        some ((params.splitOn ',').map fun param =>
          let (name, value) := splitOnce '=' (trim param)
          (toAsciiLowercase name, unquoted (value.getD [])))
      else
        none

/-- The credentials in the `Authorization` or `Proxy-Authorization` row. -/
def presentedFrom (request : Request ParsedUri) (proxy : Bool) : Option (Presented Proof) := do
  let name : HeaderName := if proxy then .proxyAuthorization else .authorization
  let value ← Headers.value request.headers name
  let params ← credentialParams (fromUtf8Lossy value)
  let username ← params.lookup (text "username")
  let realm ← params.lookup (text "realm")
  let nonce ← params.lookup (text "nonce")
  let uri ← params.lookup (text "uri")
  let qop ← params.lookup (text "qop")
  let nc ← params.lookup (text "nc")
  let cnonce ← params.lookup (text "cnonce")
  let response ← params.lookup (text "response")
  return { username, realm, proof := { nonce, uri, qop, nc, cnonce, response } }

/-- The fields with a colon between each two. -/
def colonSeparated (fields : List Text) : Text :=
  List.intercalate [':'] fields

/-- The hash of a text, in hexadecimal. -/
def hashed (value : Text) : Text :=
  hex (sha256 (utf8 value))

/-- The response digest of these credentials under a password. -/
def responseUnder (presented : Presented Proof) (method password : Text) : Text :=
  hashed (colonSeparated
    [hashed (colonSeparated [presented.username, presented.realm, password]),
      presented.proof.nonce, presented.proof.nc, presented.proof.cnonce, presented.proof.qop,
      hashed (colonSeparated [method, presented.proof.uri])])

/-- The nonce minted at a time. -/
def mint (authenticator : Authenticator) (now : Nat) : Text :=
  decimal now ++ ['.'] ++ hex (sha256 (authenticator.secret ++ utf8 (decimal now)))

/-- When a nonce says it was minted. -/
def mintedAt (nonce : Text) : Nat :=
  digitsValue (splitOnce '.' nonce).1

/-- The digest was computed from this password. -/
def ComputedFrom (presented : Presented Proof) (method password : Text) : Prop :=
  presented.proof.response = responseUnder presented method password

/-- The nonce is one of this realm's, alive, and not used with this count. -/
def Fresh (authenticator : Authenticator) (presented : Presented Proof) (now : Nat) : Prop :=
  presented.proof.qop = text "auth" ∧
    presented.proof.nonce = mint authenticator (mintedAt presented.proof.nonce) ∧
      now ≤ mintedAt presented.proof.nonce + authenticator.lifetime ∧
        (presented.proof.nonce, presented.proof.nc) ∉ authenticator.spent

def verifyAt (authenticator : Authenticator) (presented : Presented Proof)
    (method password : Text) (now : Nat) : Authenticator × Verdict :=
  if presented.proof.qop ≠ text "auth" then
    (authenticator, .rejected .qopMismatch)
  else if presented.proof.nonce ≠ mint authenticator (mintedAt presented.proof.nonce) then
    (authenticator, .rejected .foreignNonce)
  else if presented.proof.response ≠ responseUnder presented method password then
    (authenticator, .rejected .mismatch)
  else if mintedAt presented.proof.nonce + authenticator.lifetime < now then
    (authenticator, .stale)
  else if (presented.proof.nonce, presented.proof.nc) ∈ authenticator.spent then
    (authenticator, .rejected .replay)
  else
    ({ authenticator with
        spent := (presented.proof.nonce, presented.proof.nc) :: authenticator.spent },
      .authenticated)

def challengeAt (authenticator : Authenticator) (stale : Bool) (now : Nat) : Text :=
  text "Digest realm=\"" ++ authenticator.realm ++ text "\", qop=\"auth\", algorithm=SHA-256, " ++
    text "nonce=\"" ++ mint authenticator now ++ text "\"" ++
      if stale then text ", stale=true" else []

/-- The reference digest kernel. -/
def digest : DigestKernel ParsedUri where
  Authenticator := Authenticator
  Proof := Proof
  realm := Authenticator.realm
  fromRequest := presentedFrom
  verifyAt := verifyAt
  challengeAt := challengeAt

/-- The reference digest kernel verifies as the kernel is relied on to. -/
theorem digest_verifies : digest.Verifies ComputedFrom Fresh where
  authenticated_iff authenticator presented method password now _ := by
    simp only [digest, verifyAt, ComputedFrom, Fresh]
    constructor
    · intro verdict
      split_ifs at verdict with qop nonce response alive spent
      refine ⟨by simpa using response, by simpa using qop, by simpa using nonce, ?_, spent⟩
      omega
    · rintro ⟨response, qop, nonce, alive, unspent⟩
      rw [if_neg (by simpa using qop), if_neg (by simpa using nonce),
        if_neg (by simpa using response), if_neg (by omega), if_neg unspent]

end SipxClstr.Sip.Reference
