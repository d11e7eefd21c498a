import SipxClstr.Affinity.Codec

/-!
# The pair of tokens

Two tokens that differ in direction and nonce verify with each other as partners, in
either order.
-/

namespace SipxClstr.Affinity

open SipxClstr.Sip

/-- The same routing state, presented by this side. -/
def Claims.facing (claims : Claims) (side : Direction) : Claims :=
  { claims with direction := side }

theorem Direction.complement_complement (side : Direction) :
    side.complement.complement = side := by
  cases side <;> rfl

/-- What answers P2's question: the governing token is decoded and verified, with its
partner where that decodes. -/
def verdictFor (C : Ciphers) (keys : KeySet) (now : UInt32) (expect : Expect)
    (token : Bytes) (partner : Option Bytes) : Except DecodeError Verdict :=
  match decodeParamValue (fromUtf8Lossy token) with
  | .error refused => .error refused
  | .ok bytes =>
      .ok (verify C bytes keys now { expect with
        partner := partner.bind fun value =>
          (decodeParamValue (fromUtf8Lossy value)).toOption })

section Verify

variable {C : Ciphers} {keys : KeySet} {entry : KeyEntry} {now : UInt32} {claims : Claims}

/-- A token minted under a key of the set passes S1 to S7 while the key's window is open
and the claims have not expired. -/
theorem verifyThroughS7_of_mint {nonce : Octets 12} {token : Token} {skew : UInt32}
    (minted : mint C claims entry.key nonce = .ok token) (member : entry ∈ keys.entries)
    (opens : entry.verifiesAt now = true) (inTime : now ≤ saturatingAdd claims.expiry skew) :
    verifyThroughS7 C token.asBytes keys now skew = .ok ⟨claims, nonce⟩ := by
  have selects : keys.verifyKey entry.key.id now = some entry.key :=
    KeySet.verifyKey_eq_some_iff.mpr ⟨entry, member, rfl, rfl, opens⟩
  exact verifyThroughS7_eq_ok_iff.mpr ⟨entry.key, selects, ⟨token, minted, rfl⟩, inTime⟩

/-- Two tokens for the two sides, with distinct nonces, are a pair. -/
theorem pairConsistent_facing (side : Direction) {mine other : Octets 12} (distinct : mine ≠ other) :
    pairConsistent ⟨claims.facing side, mine⟩ ⟨claims.facing side.complement, other⟩ = true := by
  simp [pairConsistent, Claims.facing, Direction.complement_complement, distinct]

/-- One token of a pair verifies with the other as its partner. -/
theorem verify_pair {side : Direction} {mine other : Octets 12} {token partner : Token}
    {tenant : Option UInt32} {skew : UInt32} (distinct : mine ≠ other)
    (minted : mint C (claims.facing side) entry.key mine = .ok token)
    (mintedOther : mint C (claims.facing side.complement) entry.key other = .ok partner)
    (member : entry ∈ keys.entries) (opens : entry.verifiesAt now = true)
    (inTime : now ≤ saturatingAdd claims.expiry skew)
    (inTenant : ∀ pinned ∈ tenant, pinned = claims.tenant) :
    verify C token.asBytes keys now ⟨tenant, some partner.asBytes, skew⟩ =
      .valid (claims.facing side) := by
  have first := verifyThroughS7_of_mint minted member opens inTime
  have second := verifyThroughS7_of_mint mintedOther member opens inTime
  have inScope : (tenant.any fun pinned => decide (pinned ≠ (claims.facing side).tenant)) = false := by
    cases tenant with
    | none => rfl
    | some pinned => simp [inTenant pinned rfl, Claims.facing]
  simp only [verify, first, second, inScope, pairConsistent_facing side distinct]
  rfl

end Verify

end SipxClstr.Affinity
