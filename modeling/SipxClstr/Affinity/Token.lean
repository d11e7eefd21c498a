import SipxClstr.Affinity.Keys
import SipxClstr.Wire.Buffer

/-!
# Minting and verifying affinity tokens

A token carries the routing state of a dialog as a header, a body with fixed offsets
and one variable region, and a tag.  Time enters as `now`, randomness as the caller's
nonce, keys as data.
-/

namespace SipxClstr.Affinity

open SipxClstr.Sip Wire

/-- Layout version 1. -/
def version : UInt8 :=
  0x01

/-- The largest a body can be. -/
def maxBodyLen : Nat :=
  bodyFixedLen + maxFacts

/-- The largest a token can be. -/
def maxTokenLen : Nat :=
  headerLen + maxBodyLen + 16

/-- The structural floor: authenticated only, with an empty region. -/
def minTokenLen : Nat :=
  headerLen + bodyFixedLen + 12

def defaultSkew : UInt32 :=
  30

def offTenant : Nat := 0
def offHomeShard : Nat := 4
def offEdge : Nat := 6
def offDirection : Nat := 8
def offMediaNode : Nat := 9
def offPolicyVersion : Nat := 11
def offExpiry : Nat := 15
def offFactsLen : Nat := 19

/-- The dialog side that presents a token. -/
inductive Direction where
  | originating
  | terminating
  deriving DecidableEq, Repr

namespace Direction

def toWire : Direction → UInt8
  | .originating => 0x01
  | .terminating => 0x02

def fromWire (byte : UInt8) : Option Direction :=
  if byte = 0x01 then some .originating
  else if byte = 0x02 then some .terminating
  else none

def complement : Direction → Direction
  | .originating => .terminating
  | .terminating => .originating

end Direction

/-- A dialog's routing state. -/
structure Claims where
  tenant : UInt32
  homeShard : UInt16
  /-- The minting edge. -/
  edge : UInt16
  direction : Direction
  mediaNode : UInt16
  policyVersion : UInt32
  /-- Absolute seconds. -/
  expiry : UInt32
  /-- Opaque here. -/
  moduleFacts : Bytes
  deriving DecidableEq

/-- Why verification failed; `structural` is the variant `Structure`. -/
inductive Reason where
  | structural
  | unknownKey
  | length
  | tag
  | framing
  | expired
  | field
  | scope
  | pair
  deriving DecidableEq, Repr

inductive Verdict where
  | valid (claims : Claims)
  | invalid (reason : Reason)
  deriving DecidableEq

/-- The ingress context. -/
structure Expect where
  /-- The tenant a listener is bound to. -/
  tenant : Option UInt32
  /-- The token of a second consecutive platform `Route`. -/
  partner : Option Bytes
  /-- The clock-skew allowance. -/
  skew : UInt32
  deriving DecidableEq

/-- `Expect::default`. -/
def Expect.default : Expect :=
  ⟨none, none, defaultSkew⟩

inductive MintError where
  | factsTooLong (len : Nat)
  | crypto
  deriving DecidableEq

/-- A minted token, in a buffer of fixed size. -/
structure Token where
  buffer : Bytes
  len : Nat
  deriving DecidableEq

/-- The token's wire bytes. -/
def Token.asBytes (token : Token) : Bytes :=
  (slice token.buffer 0 token.len).getD []

/-- The ciphers, as the crates that supply them document them: sealing keeps the
length, and opening yields a plaintext exactly where it was sealed. -/
structure Ciphers where
  /-- `encrypt_in_place_detached`: the ciphertext and the tag. -/
  encrypt : Octets 32 → Octets 12 → Bytes → Bytes → Option (Bytes × Octets 16)
  encrypt_length : ∀ secret nonce header plaintext ciphertext tag,
    encrypt secret nonce header plaintext = some (ciphertext, tag) →
      ciphertext.length = plaintext.length
  /-- `decrypt_in_place_detached`: the plaintext. -/
  decrypt : Octets 32 → Octets 12 → Bytes → Bytes → Octets 16 → Option Bytes
  decrypt_iff : ∀ secret nonce header ciphertext tag plaintext,
    decrypt secret nonce header ciphertext tag = some plaintext ↔
      encrypt secret nonce header plaintext = some (ciphertext, tag)
  /-- HMAC-SHA-256, which takes a key of any length. -/
  hmac : Octets 32 → Bytes → Octets 32

/-- Zero bytes. -/
def Octets.zeros (count : Nat) : Octets count :=
  ⟨zeroed count, zeroed_length count⟩

/-- The laws are met by a cipher that hides nothing and tags everything alike. -/
instance : Inhabited Ciphers where
  default :=
    { encrypt := fun _ _ _ plaintext => some (plaintext, .zeros 16)
      encrypt_length := by
        rintro secret nonce header plaintext ciphertext tag ⟨rfl, rfl⟩
        rfl
      decrypt := fun _ _ _ ciphertext tag =>
        if tag.bytes = zeroed 16 then some ciphertext else none
      decrypt_iff := by
        rintro secret nonce header ciphertext ⟨tag, width⟩ plaintext
        simp [Octets.zeros, eq_comm, and_comm]
      hmac := fun _ _ => .zeros 32 }

/-- `verify_truncated_left`: the tag is the leftmost bytes of the full code. -/
def verifyTruncatedLeft (full : Octets 32) (tag : Bytes) : Bool :=
  tag ≠ [] && tag.length ≤ 32 && full.bytes.take tag.length = tag

/-! ## Numbers -/

def beBytes16 (value : UInt16) : Bytes :=
  bigEndian 2 value.toNat

def beBytes32 (value : UInt32) : Bytes :=
  bigEndian 4 value.toNat

def u16At (buffer : Bytes) (offset : Nat) : Option UInt16 :=
  (slice buffer offset (offset + 2)).map fun digits => UInt16.ofNat (ofBigEndian digits)

def u32At (buffer : Bytes) (offset : Nat) : Option UInt32 :=
  (slice buffer offset (offset + 4)).map fun digits => UInt32.ofNat (ofBigEndian digits)

def saturatingAdd (first second : UInt32) : UInt32 :=
  UInt32.ofNat (min (first.toNat + second.toNat) 4294967295)

/-! ## Minting -/

/-- The body under construction, field by field. -/
def writeBody (claims : Claims) (factsLen : UInt8) : Bytes :=
  let body := zeroed maxBodyLen
  let body := writeAt body offTenant (beBytes32 claims.tenant)
  let body := writeAt body offHomeShard (beBytes16 claims.homeShard)
  let body := writeAt body offEdge (beBytes16 claims.edge)
  let body := writeAt body offDirection [claims.direction.toWire]
  let body := writeAt body offMediaNode (beBytes16 claims.mediaNode)
  let body := writeAt body offPolicyVersion (beBytes32 claims.policyVersion)
  let body := writeAt body offExpiry (beBytes32 claims.expiry)
  let body := writeAt body offFactsLen [factsLen]
  writeAt body bodyFixedLen claims.moduleFacts

/-- The cryptography of minting: what stands where the plaintext did, and the tag. -/
def sealBody (C : Ciphers) (key : MintKey) (nonce : Octets 12) (header plaintext : Bytes) :
    Option (Bytes × Bytes) :=
  match key.algorithm with
  | .chaCha20Poly1305 =>
      match C.encrypt key.secret nonce header plaintext with
      | some (ciphertext, computed) => some (ciphertext, writeAt (zeroed 16) 0 computed.bytes)
      | none => none
  | .hmacSha256_96 =>
      let full := (C.hmac key.secret (header ++ plaintext)).bytes
      some (plaintext, writeAt (zeroed 16) 0 ((slice full 0 key.algorithm.tagLen).getD []))

/-- Mint a token. -/
def mint (C : Ciphers) (claims : Claims) (key : MintKey) (nonce : Octets 12) :
    Except MintError Token :=
  let facts := claims.moduleFacts
  if maxFacts < facts.length then
    .error (.factsTooLong facts.length)
  else if 255 < facts.length then
    .error (.factsTooLong facts.length)
  else
    let bodyLen := bodyFixedLen + facts.length
    let header := writeAt (writeAt (zeroed headerLen) 0 [version, key.id]) 2 nonce.bytes
    let body := writeBody claims (UInt8.ofNat facts.length)
    let tagLen := key.algorithm.tagLen
    match slice body 0 bodyLen with
    | none => .error .crypto
    | some plaintext =>
        match sealBody C key nonce header plaintext with
        | none => .error .crypto
        | some (sealed, tag) =>
            let bytes := writeAt (zeroed maxTokenLen) 0 header
            let bytes := writeAt bytes headerLen sealed
            let bytes := writeAt bytes (headerLen + bodyLen) ((slice tag 0 tagLen).getD [])
            .ok ⟨bytes, headerLen + bodyLen + tagLen⟩

/-! ## Verifying -/

/-- A token that has passed the steps that are about one token in isolation. -/
structure Parsed where
  claims : Claims
  nonce : Octets 12
  deriving DecidableEq

/-- `ok_or`. -/
def okOr {α : Type} (value : Option α) (reason : Reason) : Except Reason α :=
  match value with
  | some value => .ok value
  | none => .error reason

/-- S4: authenticate.  Only now is the body readable. -/
def authenticate (C : Ciphers) (key : MintKey) (nonce : Octets 12) (header body tag : Bytes) :
    Except Reason Bytes :=
  match key.algorithm with
  | .chaCha20Poly1305 => do
      let tag ← okOr (Octets.ofBytes? 16 tag) .length
      okOr (C.decrypt key.secret nonce header body tag) .tag
  | .hmacSha256_96 =>
      if verifyTruncatedLeft (C.hmac key.secret (header ++ body)) tag then .ok body
      else .error .tag

/-- S5 to S7: facts framing, expiry and field validity. -/
def readClaims (body : Bytes) (now skew : UInt32) : Except Reason Claims := do
  let declaredFacts ← okOr body[offFactsLen]? .framing
  if declaredFacts.toNat ≠ body.length - bodyFixedLen then
    .error .framing
  else
    let expiry ← okOr (u32At body offExpiry) .framing
    if saturatingAdd expiry skew < now then
      .error .expired
    else
      let direction ← okOr body[offDirection]? .field
      let direction ← okOr (Direction.fromWire direction) .field
      let facts ← okOr (slice body bodyFixedLen body.length) .framing
      let tenant ← okOr (u32At body offTenant) .framing
      let homeShard ← okOr (u16At body offHomeShard) .framing
      let edge ← okOr (u16At body offEdge) .framing
      let mediaNode ← okOr (u16At body offMediaNode) .framing
      let policyVersion ← okOr (u32At body offPolicyVersion) .framing
      .ok ⟨tenant, homeShard, edge, direction, mediaNode, policyVersion, expiry, facts⟩

/-- S1 to S7: everything that is a property of one token in isolation. -/
def verifyThroughS7 (C : Ciphers) (bytes : Bytes) (keys : KeySet) (now skew : UInt32) :
    Except Reason Parsed := do
  -- S1
  if bytes.length < minTokenLen ∨ bytes.head? ≠ some version then
    .error .structural
  else
    -- S2
    let keyId ← okOr bytes[1]? .structural
    let key ← okOr (keys.verifyKey keyId now) .unknownKey
    -- S3
    if bytes.length < key.algorithm.minTokenLen ∨ key.algorithm.maxTokenLen < bytes.length then
      .error .length
    else
      let bodyLen := bytes.length - headerLen - key.algorithm.tagLen
      let header ← okOr (slice bytes 0 headerLen) .structural
      let nonce ← okOr (slice header 2 headerLen) .structural
      let nonce ← okOr (Octets.ofBytes? 12 nonce) .structural
      let cipherOrPlain ← okOr (slice bytes headerLen (headerLen + bodyLen)) .structural
      let body ← okOr (slice (writeAt (zeroed maxBodyLen) 0 cipherOrPlain) 0 bodyLen) .structural
      let tag ← okOr (slice bytes (headerLen + bodyLen) bytes.length) .structural
      let body ← authenticate C key nonce header body tag
      let claims ← readClaims body now skew
      .ok ⟨claims, nonce⟩

/-- S9: equal claims apart from direction, complementary directions, distinct nonces. -/
def pairConsistent (first second : Parsed) : Bool :=
  first.claims.direction = second.claims.direction.complement && first.nonce ≠ second.nonce &&
    first.claims.tenant = second.claims.tenant &&
    first.claims.homeShard = second.claims.homeShard &&
    first.claims.edge = second.claims.edge &&
    first.claims.mediaNode = second.claims.mediaNode &&
    first.claims.policyVersion = second.claims.policyVersion &&
    first.claims.expiry = second.claims.expiry &&
    first.claims.moduleFacts = second.claims.moduleFacts

/-- Verify a token: the first failing step wins. -/
def verify (C : Ciphers) (bytes : Bytes) (keys : KeySet) (now : UInt32) (expect : Expect) :
    Verdict :=
  match verifyThroughS7 C bytes keys now expect.skew with
  | .error reason => .invalid reason
  | .ok parsed =>
      -- S8
      if expect.tenant.any fun pinned => pinned ≠ parsed.claims.tenant then
        .invalid .scope
      else
        -- S9
        match expect.partner with
        | none => .valid parsed.claims
        | some partner =>
            match verifyThroughS7 C partner keys now expect.skew with
            | .error _ => .invalid .pair
            | .ok other =>
                if pairConsistent parsed other then .valid parsed.claims else .invalid .pair

end SipxClstr.Affinity
