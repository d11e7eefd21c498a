import SipxClstr.Affinity.Token

/-!
# What verification accepts

A token is minted as its fields one behind the other, and verification takes exactly
these byte strings apart again.
-/

namespace SipxClstr.Affinity

open SipxClstr.Sip Wire

/-! ## The layout -/

@[simp]
theorem beBytes16_length (value : UInt16) : (beBytes16 value).length = 2 :=
  bigEndian_length 2 value.toNat

@[simp]
theorem beBytes32_length (value : UInt32) : (beBytes32 value).length = 4 :=
  bigEndian_length 4 value.toNat

/-- The body of a token: the claims, one field behind the other. -/
def claimsBody (claims : Claims) : Bytes :=
  beBytes32 claims.tenant ++ beBytes16 claims.homeShard ++ beBytes16 claims.edge ++
    [claims.direction.toWire] ++ beBytes16 claims.mediaNode ++ beBytes32 claims.policyVersion ++
      beBytes32 claims.expiry ++ [UInt8.ofNat claims.moduleFacts.length] ++ claims.moduleFacts

@[simp]
theorem claimsBody_length (claims : Claims) :
    (claimsBody claims).length = 20 + claims.moduleFacts.length := by
  simp only [claimsBody, List.length_append, beBytes32_length, beBytes16_length,
    List.length_singleton]

/-- Writing the fields at their offsets puts them one behind the other. -/
theorem writeBody_eq {claims : Claims} (within : claims.moduleFacts.length ≤ 64) :
    writeBody claims (UInt8.ofNat claims.moduleFacts.length) =
      claimsBody claims ++ zeroed (64 - claims.moduleFacts.length) := by
  have size : maxBodyLen = 84 := rfl
  simp only [writeBody, offTenant, size]
  rw [writeAt_start (by simp), writeAt_zeroed (by simp [offHomeShard]) (by simp),
    writeAt_zeroed (by simp [offEdge]) (by simp),
    writeAt_zeroed (by simp [offDirection]) (by simp),
    writeAt_zeroed (by simp [offMediaNode]) (by simp),
    writeAt_zeroed (by simp [offPolicyVersion]) (by simp),
    writeAt_zeroed (by simp [offExpiry]) (by simp),
    writeAt_zeroed (by simp [offFactsLen]) (by simp),
    writeAt_zeroed (by simp [bodyFixedLen]) (by simpa using within)]
  simp only [claimsBody, beBytes32_length, beBytes16_length, List.length_singleton]

/-! ## Reading the body -/

theorem uint16_beBytes (value : UInt16) : UInt16.ofNat (ofBigEndian (beBytes16 value)) = value := by
  rw [beBytes16, ofBigEndian_bigEndian value.toNat_lt, UInt16.ofNat_toNat]

theorem uint32_beBytes (value : UInt32) : UInt32.ofNat (ofBigEndian (beBytes32 value)) = value := by
  rw [beBytes32, ofBigEndian_bigEndian value.toNat_lt, UInt32.ofNat_toNat]

theorem beBytes16_ofBigEndian {digits : Bytes} (width : digits.length = 2) :
    beBytes16 (UInt16.ofNat (ofBigEndian digits)) = digits := by
  have bound := ofBigEndian_lt digits
  rw [width] at bound
  rw [beBytes16, UInt16.toNat_ofNat_of_lt' bound, ← width, bigEndian_ofBigEndian]

theorem beBytes32_ofBigEndian {digits : Bytes} (width : digits.length = 4) :
    beBytes32 (UInt32.ofNat (ofBigEndian digits)) = digits := by
  have bound := ofBigEndian_lt digits
  rw [width] at bound
  rw [beBytes32, UInt32.toNat_ofNat_of_lt' bound, ← width, bigEndian_ofBigEndian]

/-- The fields of a body, as the bytes between its offsets. -/
structure Fields where
  tenant : Bytes
  homeShard : Bytes
  edge : Bytes
  direction : UInt8
  mediaNode : Bytes
  policyVersion : Bytes
  expiry : Bytes
  factsLen : UInt8
  facts : Bytes
  tenant_length : tenant.length = 4
  homeShard_length : homeShard.length = 2
  edge_length : edge.length = 2
  mediaNode_length : mediaNode.length = 2
  policyVersion_length : policyVersion.length = 4
  expiry_length : expiry.length = 4

/-- The body these fields make up. -/
def Fields.body (fields : Fields) : Bytes :=
  fields.tenant ++ fields.homeShard ++ fields.edge ++ [fields.direction] ++ fields.mediaNode ++
    fields.policyVersion ++ fields.expiry ++ [fields.factsLen] ++ fields.facts

/-- A body of at least the fixed part has fields. -/
theorem exists_fields {body : Bytes} (long : 20 ≤ body.length) :
    ∃ fields : Fields, body = fields.body := by
  obtain ⟨tenant, rest, rfl, tenantLength⟩ := exists_split (show 4 ≤ body.length by omega)
  rw [List.length_append, tenantLength] at long
  obtain ⟨homeShard, rest, rfl, homeShardLength⟩ := exists_split (show 2 ≤ rest.length by omega)
  rw [List.length_append, homeShardLength] at long
  obtain ⟨edge, rest, rfl, edgeLength⟩ := exists_split (show 2 ≤ rest.length by omega)
  rw [List.length_append, edgeLength] at long
  obtain ⟨direction, rest, rfl, directionLength⟩ := exists_split (show 1 ≤ rest.length by omega)
  rw [List.length_append, directionLength] at long
  obtain ⟨mediaNode, rest, rfl, mediaNodeLength⟩ := exists_split (show 2 ≤ rest.length by omega)
  rw [List.length_append, mediaNodeLength] at long
  obtain ⟨policyVersion, rest, rfl, policyVersionLength⟩ :=
    exists_split (show 4 ≤ rest.length by omega)
  rw [List.length_append, policyVersionLength] at long
  obtain ⟨expiry, rest, rfl, expiryLength⟩ := exists_split (show 4 ≤ rest.length by omega)
  rw [List.length_append, expiryLength] at long
  obtain ⟨factsLen, facts, rfl, factsLenLength⟩ := exists_split (show 1 ≤ rest.length by omega)
  obtain ⟨direction, rfl⟩ := List.length_eq_one_iff.mp directionLength
  obtain ⟨factsLen, rfl⟩ := List.length_eq_one_iff.mp factsLenLength
  refine ⟨⟨tenant, homeShard, edge, direction, mediaNode, policyVersion, expiry, factsLen, facts,
    tenantLength, homeShardLength, edgeLength, mediaNodeLength, policyVersionLength, expiryLength⟩,
    ?_⟩
  simp only [Fields.body, List.append_assoc]

namespace Fields

variable (fields : Fields)

theorem body_length : fields.body.length = 20 + fields.facts.length := by
  simp only [body, List.length_append, List.length_singleton, fields.tenant_length,
    fields.homeShard_length, fields.edge_length, fields.mediaNode_length,
    fields.policyVersion_length, fields.expiry_length]

/-- The claims the fields stand for, with this direction. -/
def claims (direction : Direction) : Claims where
  tenant := UInt32.ofNat (ofBigEndian fields.tenant)
  homeShard := UInt16.ofNat (ofBigEndian fields.homeShard)
  edge := UInt16.ofNat (ofBigEndian fields.edge)
  direction := direction
  mediaNode := UInt16.ofNat (ofBigEndian fields.mediaNode)
  policyVersion := UInt32.ofNat (ofBigEndian fields.policyVersion)
  expiry := UInt32.ofNat (ofBigEndian fields.expiry)
  moduleFacts := fields.facts

theorem tenant_at : u32At fields.body offTenant =
    some (UInt32.ofNat (ofBigEndian fields.tenant)) := by
  rw [u32At, offTenant, body]
  simp only [List.append_assoc]
  rw [slice_append_left fields.tenant_length, Option.map_some]

theorem homeShard_at : u16At fields.body offHomeShard =
    some (UInt16.ofNat (ofBigEndian fields.homeShard)) := by
  rw [u16At, offHomeShard, body]
  simp only [List.append_assoc, slice_append_right, fields.tenant_length, Nat.reduceLeDiff,
    Nat.reduceAdd, Nat.reduceSub]
  rw [slice_append_left fields.homeShard_length, Option.map_some]

theorem edge_at : u16At fields.body offEdge =
    some (UInt16.ofNat (ofBigEndian fields.edge)) := by
  rw [u16At, offEdge, body]
  simp only [List.append_assoc, slice_append_right, fields.tenant_length, fields.homeShard_length,
    Nat.reduceLeDiff, Nat.reduceAdd, Nat.reduceSub]
  rw [slice_append_left fields.edge_length, Option.map_some]

theorem direction_at : fields.body[offDirection]? = some fields.direction := by
  have starts : (fields.tenant ++ fields.homeShard ++ fields.edge).length = offDirection := by
    simp only [List.length_append, fields.tenant_length, fields.homeShard_length,
      fields.edge_length, offDirection]
  have split : fields.body = fields.tenant ++ fields.homeShard ++ fields.edge ++
      fields.direction :: (fields.mediaNode ++ fields.policyVersion ++ fields.expiry ++
        [fields.factsLen] ++ fields.facts) := by
    simp only [body, List.append_assoc, List.cons_append, List.nil_append]
  exact getElem?_of_split split starts

theorem mediaNode_at : u16At fields.body offMediaNode =
    some (UInt16.ofNat (ofBigEndian fields.mediaNode)) := by
  rw [u16At, offMediaNode, body]
  simp only [List.append_assoc, slice_append_right, fields.tenant_length, fields.homeShard_length,
    fields.edge_length, List.length_singleton, Nat.reduceLeDiff, Nat.reduceAdd, Nat.reduceSub]
  rw [slice_append_left fields.mediaNode_length, Option.map_some]

theorem policyVersion_at : u32At fields.body offPolicyVersion =
    some (UInt32.ofNat (ofBigEndian fields.policyVersion)) := by
  rw [u32At, offPolicyVersion, body]
  simp only [List.append_assoc, slice_append_right, fields.tenant_length, fields.homeShard_length,
    fields.edge_length, fields.mediaNode_length, List.length_singleton, Nat.reduceLeDiff,
    Nat.reduceAdd, Nat.reduceSub]
  rw [slice_append_left fields.policyVersion_length, Option.map_some]

theorem expiry_at : u32At fields.body offExpiry =
    some (UInt32.ofNat (ofBigEndian fields.expiry)) := by
  rw [u32At, offExpiry, body]
  simp only [List.append_assoc, slice_append_right, fields.tenant_length, fields.homeShard_length,
    fields.edge_length, fields.mediaNode_length, fields.policyVersion_length,
    List.length_singleton, Nat.reduceLeDiff, Nat.reduceAdd, Nat.reduceSub]
  rw [slice_append_left fields.expiry_length, Option.map_some]

/-- The fixed part but for its last byte. -/
theorem length_before_factsLen :
    (fields.tenant ++ fields.homeShard ++ fields.edge ++ [fields.direction] ++ fields.mediaNode ++
      fields.policyVersion ++ fields.expiry).length = offFactsLen := by
  simp only [List.length_append, List.length_singleton, fields.tenant_length,
    fields.homeShard_length, fields.edge_length, fields.mediaNode_length,
    fields.policyVersion_length, fields.expiry_length, offFactsLen]

theorem factsLen_at : fields.body[offFactsLen]? = some fields.factsLen := by
  have split : fields.body = fields.tenant ++ fields.homeShard ++ fields.edge ++
      [fields.direction] ++ fields.mediaNode ++ fields.policyVersion ++ fields.expiry ++
        fields.factsLen :: fields.facts := by
    simp only [body, List.append_assoc, List.singleton_append]
  exact getElem?_of_split split fields.length_before_factsLen

theorem facts_at : slice fields.body bodyFixedLen fields.body.length = some fields.facts := by
  have fixed : (fields.tenant ++ fields.homeShard ++ fields.edge ++ [fields.direction] ++
      fields.mediaNode ++ fields.policyVersion ++ fields.expiry ++ [fields.factsLen]).length =
        bodyFixedLen := by
    rw [List.length_append, fields.length_before_factsLen]
    rfl
  apply slice_of_split (List.append_nil _).symm fixed
  rw [fields.body_length]
  rfl

/-- Reading at the offsets reads the fields. -/
theorem readClaims_body (now skew : UInt32) :
    readClaims fields.body now skew =
      if fields.factsLen.toNat ≠ fields.facts.length then .error .framing
      else if saturatingAdd (UInt32.ofNat (ofBigEndian fields.expiry)) skew < now then
        .error .expired
      else
        (okOr (Direction.fromWire fields.direction) .field).map fields.claims := by
  have region : fields.body.length - bodyFixedLen = fields.facts.length := by
    rw [fields.body_length, bodyFixedLen, Nat.add_sub_cancel_left]
  simp only [readClaims, fields.factsLen_at, fields.expiry_at, fields.direction_at, fields.facts_at,
    fields.tenant_at, fields.homeShard_at, fields.edge_at, fields.mediaNode_at,
    fields.policyVersion_at, region, okOr, bind, Except.bind]
  split
  · rfl
  split
  · rfl
  cases Direction.fromWire fields.direction <;> rfl

end Fields

theorem fromWire_eq_some_iff {byte : UInt8} {direction : Direction} :
    Direction.fromWire byte = some direction ↔ byte = direction.toWire := by
  constructor
  · intro read
    unfold Direction.fromWire at read
    split at read
    · next isOriginating =>
        rw [← Option.some.inj read, isOriginating]
        rfl
    split at read
    · next isTerminating =>
        rw [← Option.some.inj read, isTerminating]
        rfl
    · contradiction
  · rintro rfl
    cases direction <;> rfl

/-- The fields of the body of these claims. -/
def fieldsOf (claims : Claims) : Fields where
  tenant := beBytes32 claims.tenant
  homeShard := beBytes16 claims.homeShard
  edge := beBytes16 claims.edge
  direction := claims.direction.toWire
  mediaNode := beBytes16 claims.mediaNode
  policyVersion := beBytes32 claims.policyVersion
  expiry := beBytes32 claims.expiry
  factsLen := UInt8.ofNat claims.moduleFacts.length
  facts := claims.moduleFacts
  tenant_length := beBytes32_length _
  homeShard_length := beBytes16_length _
  edge_length := beBytes16_length _
  mediaNode_length := beBytes16_length _
  policyVersion_length := beBytes32_length _
  expiry_length := beBytes32_length _

theorem claims_fieldsOf (claims : Claims) : (fieldsOf claims).claims claims.direction = claims := by
  simp only [Fields.claims, fieldsOf, uint32_beBytes, uint16_beBytes]

/-- The claims that fields stand for have these fields again. -/
theorem claimsBody_claims {fields : Fields} {direction : Direction}
    (isDirection : fields.direction = direction.toWire)
    (framed : fields.factsLen.toNat = fields.facts.length) :
    claimsBody (fields.claims direction) = fields.body := by
  have factsLen : UInt8.ofNat fields.facts.length = fields.factsLen := by
    rw [← framed, UInt8.ofNat_toNat]
  simp only [claimsBody, Fields.claims, Fields.body, beBytes32_ofBigEndian fields.tenant_length,
    beBytes16_ofBigEndian fields.homeShard_length, beBytes16_ofBigEndian fields.edge_length,
    beBytes16_ofBigEndian fields.mediaNode_length,
    beBytes32_ofBigEndian fields.policyVersion_length,
    beBytes32_ofBigEndian fields.expiry_length, factsLen, isDirection]

/-- A body is read as claims exactly if it is the body of these claims, and they have
not expired. -/
theorem readClaims_eq_ok_iff {body : Bytes} {now skew : UInt32} {claims : Claims}
    (long : 20 ≤ body.length) (short : body.length ≤ 84) :
    readClaims body now skew = .ok claims ↔
      body = claimsBody claims ∧ now ≤ saturatingAdd claims.expiry skew := by
  constructor
  · intro read
    obtain ⟨fields, rfl⟩ := exists_fields long
    rw [fields.readClaims_body] at read
    split at read
    · contradiction
    next framed =>
      split at read
      · contradiction
      next inTime =>
        cases isDirection : Direction.fromWire fields.direction with
        | none =>
            rw [isDirection] at read
            contradiction
        | some direction =>
            rw [isDirection] at read
            obtain rfl := Except.ok.inj read
            have framed := not_not.mp framed
            rw [claimsBody_claims (fromWire_eq_some_iff.mp isDirection) framed]
            exact ⟨rfl, UInt32.not_lt.mp inTime⟩
  · rintro ⟨rfl, inTime⟩
    rw [claimsBody_length] at short
    have isBody : claimsBody claims = (fieldsOf claims).body := rfl
    have framed : (fieldsOf claims).factsLen.toNat = (fieldsOf claims).facts.length := by
      change (UInt8.ofNat claims.moduleFacts.length).toNat = claims.moduleFacts.length
      rw [UInt8.toNat_ofNat']
      omega
    have expiry : UInt32.ofNat (ofBigEndian (fieldsOf claims).expiry) = claims.expiry :=
      uint32_beBytes claims.expiry
    have direction : Direction.fromWire (fieldsOf claims).direction = some claims.direction :=
      fromWire_eq_some_iff.mpr rfl
    rw [isBody, Fields.readClaims_body, if_neg (not_not_intro framed), expiry,
      if_neg (UInt32.not_lt.mpr inTime), direction]
    exact congrArg Except.ok (claims_fieldsOf claims)

/-! ## Sealing and authenticating -/

/-- What minting seals a body as: what stands where the body did, and the tag. -/
def Seals (C : Ciphers) (key : MintKey) (nonce : Octets 12) (header body : Bytes)
    (sealedBody tag : Bytes) : Prop :=
  match key.algorithm with
  | .chaCha20Poly1305 =>
      ∃ computed : Octets 16,
        C.encrypt key.secret nonce header body = some (sealedBody, computed) ∧ tag = computed.bytes
  | .hmacSha256_96 =>
      sealedBody = body ∧ tag = (C.hmac key.secret (header ++ body)).bytes.take 12

section Seals

variable {C : Ciphers} {key : MintKey} {nonce : Octets 12} {header body sealedBody tag : Bytes}

theorem Seals.lengths (seals : Seals C key nonce header body sealedBody tag) :
    sealedBody.length = body.length ∧ tag.length = key.algorithm.tagLen := by
  unfold Seals at seals
  cases isAlgorithm : key.algorithm with
  | chaCha20Poly1305 =>
      rw [isAlgorithm] at seals
      obtain ⟨computed, encrypted, rfl⟩ := seals
      exact ⟨C.encrypt_length _ _ _ _ _ _ encrypted, computed.length_eq⟩
  | hmacSha256_96 =>
      rw [isAlgorithm] at seals
      obtain ⟨rfl, rfl⟩ := seals
      refine ⟨rfl, ?_⟩
      rw [List.length_take, Octets.length_eq]
      rfl

/-- The tag minting writes is the one that was computed. -/
theorem sealBody_iff :
    (∃ padded, sealBody C key nonce header body = some (sealedBody, padded) ∧
        (slice padded 0 key.algorithm.tagLen).getD [] = tag) ↔
      Seals C key nonce header body sealedBody tag := by
  unfold sealBody Seals
  cases isAlgorithm : key.algorithm with
  | chaCha20Poly1305 =>
      have written : ∀ computed : Octets 16,
          (slice (writeAt (zeroed 16) 0 computed.bytes) 0 16).getD [] = computed.bytes := by
        intro computed
        rw [writeAt_start (Nat.le_of_eq computed.length_eq), slice_append_left computed.length_eq,
          Option.getD_some]
      constructor
      · rintro ⟨padded, isSealed, isTag⟩
        simp only at isSealed
        cases encrypted : C.encrypt key.secret nonce header body with
        | none =>
            rw [encrypted] at isSealed
            contradiction
        | some result =>
            obtain ⟨ciphertext, computed⟩ := result
            rw [encrypted] at isSealed
            obtain ⟨rfl, rfl⟩ := Prod.mk.inj (Option.some.inj isSealed)
            exact ⟨computed, rfl, isTag.symm.trans (written computed)⟩
      · rintro ⟨computed, encrypted, rfl⟩
        simp only [encrypted]
        exact ⟨_, rfl, written computed⟩
  | hmacSha256_96 =>
      let full := C.hmac key.secret (header ++ body)
      have truncated : (slice full.bytes 0 12).getD [] = full.bytes.take 12 := by
        have within : 0 ≤ 12 ∧ 12 ≤ full.bytes.length := by
          rw [full.length_eq]
          omega
        rw [slice, if_pos within, Option.getD_some, List.drop_zero, Nat.sub_zero]
      have width : (full.bytes.take 12).length = 12 := by
        rw [List.length_take, full.length_eq]
        rfl
      have written : (slice (writeAt (zeroed 16) 0 ((slice full.bytes 0 12).getD [])) 0 12).getD [] =
          full.bytes.take 12 := by
        rw [truncated, writeAt_start (by omega), slice_append_left width, Option.getD_some]
      constructor
      · rintro ⟨padded, isSealed, isTag⟩
        obtain ⟨rfl, rfl⟩ := Prod.mk.inj (Option.some.inj isSealed)
        exact ⟨rfl, isTag.symm.trans written⟩
      · rintro ⟨rfl, rfl⟩
        exact ⟨_, rfl, written⟩

/-- Authentication undoes sealing, and nothing else. -/
theorem authenticate_eq_ok_iff (tagLength : tag.length = key.algorithm.tagLen) :
    authenticate C key nonce header sealedBody tag = .ok body ↔
      Seals C key nonce header body sealedBody tag := by
  unfold authenticate Seals
  cases isAlgorithm : key.algorithm with
  | chaCha20Poly1305 =>
      rw [isAlgorithm] at tagLength
      have isTag : Octets.ofBytes? 16 tag = some ⟨tag, tagLength⟩ := dif_pos tagLength
      simp only [isTag, okOr, bind, Except.bind]
      constructor
      · intro opened
        split at opened
        · next plaintext decrypted =>
            rw [Except.ok.inj opened] at decrypted
            exact ⟨⟨tag, tagLength⟩, (C.decrypt_iff _ _ _ _ _ _).mp decrypted, rfl⟩
        · contradiction
      · rintro ⟨computed, encrypted, rfl⟩
        rw [(C.decrypt_iff _ _ _ _ _ _).mpr encrypted]
  | hmacSha256_96 =>
      rw [isAlgorithm] at tagLength
      change tag.length = 12 at tagLength
      have nonempty : tag ≠ [] := List.ne_nil_of_length_eq_add_one tagLength
      have checks : ∀ plaintext : Bytes,
          verifyTruncatedLeft (C.hmac key.secret (header ++ plaintext)) tag = true ↔
            tag = (C.hmac key.secret (header ++ plaintext)).bytes.take 12 := by
        intro plaintext
        simp only [verifyTruncatedLeft, tagLength, Bool.and_eq_true, decide_eq_true_eq]
        constructor
        · rintro ⟨-, isTag⟩
          exact isTag.symm
        · intro isTag
          exact ⟨⟨nonempty, by omega⟩, isTag.symm⟩
      constructor
      · intro opened
        simp only at opened
        split at opened
        · next accepted =>
            obtain rfl := Except.ok.inj opened
            exact ⟨rfl, (checks _).mp accepted⟩
        · contradiction
      · rintro ⟨rfl, isTag⟩
        simp only
        rw [if_pos ((checks _).mpr isTag)]

end Seals

/-! ## Minting -/

/-- The header of a token. -/
def tokenHeader (key : MintKey) (nonce : Octets 12) : Bytes :=
  [version, key.id] ++ nonce.bytes

theorem tokenHeader_length (key : MintKey) (nonce : Octets 12) :
    (tokenHeader key nonce).length = 14 := by
  rw [tokenHeader, List.length_append, nonce.length_eq]
  rfl

theorem writeHeader_eq (key : MintKey) (nonce : Octets 12) :
    writeAt (writeAt (zeroed headerLen) 0 [version, key.id]) 2 nonce.bytes =
      tokenHeader key nonce := by
  have room : nonce.bytes.length ≤ headerLen - [version, key.id].length := by
    rw [nonce.length_eq]
    exact Nat.le_refl 12
  have none : headerLen - [version, key.id].length - nonce.bytes.length = 0 := by
    rw [nonce.length_eq]
    rfl
  rw [writeAt_start (by simp [headerLen]), writeAt_zeroed (show [version, key.id].length = 2 from rfl)
    room, none]
  exact List.append_nil _

theorem tagLen_le (algorithm : Algorithm) : algorithm.tagLen ≤ 16 := by
  cases algorithm <;> decide

/-- The wire bytes of a token are its parts, one behind the other. -/
theorem asBytes_eq {header sealedBody tag : Bytes} {bodyLen tagLen : Nat}
    (headerLength : header.length = 14) (bodyLength : sealedBody.length = bodyLen)
    (tagLength : tag.length = tagLen) (bodyFits : bodyLen ≤ 84) (tagFits : tagLen ≤ 16) :
    Token.asBytes ⟨writeAt (writeAt (writeAt (zeroed maxTokenLen) 0 header) headerLen sealedBody)
      (headerLen + bodyLen) tag, headerLen + bodyLen + tagLen⟩ = header ++ sealedBody ++ tag := by
  have size : maxTokenLen = 114 := rfl
  have start : headerLen = 14 := rfl
  rw [Token.asBytes, size, start, writeAt_start (by omega), writeAt_zeroed headerLength (by omega),
    writeAt_zeroed (by rw [List.length_append, headerLength, bodyLength]) (by omega),
    slice_append_left, Option.getD_some]
  rw [List.length_append, List.length_append, headerLength, bodyLength, tagLength]

/-- What minting yields: the header, the sealed claims and the tag, for claims within
the facts budget. -/
theorem mint_iff {C : Ciphers} {claims : Claims} {key : MintKey} {nonce : Octets 12}
    {bytes : Bytes} :
    (∃ token, mint C claims key nonce = .ok token ∧ token.asBytes = bytes) ↔
      claims.moduleFacts.length ≤ 64 ∧ ∃ sealedBody tag,
        Seals C key nonce (tokenHeader key nonce) (claimsBody claims) sealedBody tag ∧
          bytes = tokenHeader key nonce ++ sealedBody ++ tag := by
  by_cases within : claims.moduleFacts.length ≤ 64
  · have budget : ¬ maxFacts < claims.moduleFacts.length := Nat.not_lt.mpr within
    have byte : ¬ 255 < claims.moduleFacts.length := by omega
    have body : slice (writeBody claims (UInt8.ofNat claims.moduleFacts.length)) 0
        (bodyFixedLen + claims.moduleFacts.length) = some (claimsBody claims) := by
      rw [writeBody_eq within]
      exact slice_append_left (claimsBody_length claims)
    have parts : ∀ {sealedBody tag},
        Seals C key nonce (tokenHeader key nonce) (claimsBody claims) sealedBody tag →
          Token.asBytes ⟨writeAt (writeAt (writeAt (zeroed maxTokenLen) 0 (tokenHeader key nonce))
            headerLen sealedBody) (headerLen + (bodyFixedLen + claims.moduleFacts.length)) tag,
            headerLen + (bodyFixedLen + claims.moduleFacts.length) + key.algorithm.tagLen⟩ =
              tokenHeader key nonce ++ sealedBody ++ tag := by
      intro sealedBody tag seals
      have bodyLength := seals.lengths.1
      rw [claimsBody_length] at bodyLength
      exact asBytes_eq (tokenHeader_length key nonce) bodyLength seals.lengths.2
        (Nat.add_le_add_left within 20) (tagLen_le key.algorithm)
    simp only [mint, budget, byte, if_false, writeHeader_eq, body]
    constructor
    · rintro ⟨token, minted, rfl⟩
      refine ⟨within, ?_⟩
      cases isSealed : sealBody C key nonce (tokenHeader key nonce) (claimsBody claims) with
      | none =>
          rw [isSealed] at minted
          contradiction
      | some result =>
          obtain ⟨sealedBody, padded⟩ := result
          rw [isSealed] at minted
          obtain rfl := Except.ok.inj minted
          have seals := sealBody_iff.mp ⟨padded, isSealed, rfl⟩
          exact ⟨sealedBody, _, seals, parts seals⟩
    · rintro ⟨-, sealedBody, tag, seals, rfl⟩
      obtain ⟨padded, isSealed, rfl⟩ := sealBody_iff.mpr seals
      rw [isSealed]
      exact ⟨_, rfl, parts seals⟩
  · have budget : maxFacts < claims.moduleFacts.length := Nat.lt_of_not_le within
    constructor
    · rintro ⟨token, minted, -⟩
      rw [mint, if_pos budget] at minted
      contradiction
    · rintro ⟨within', -⟩
      exact absurd within' within

/-! ## Verifying -/

section Verify

variable {C : Ciphers} {keys : KeySet} {now skew : UInt32} {bytes : Bytes}

/-- What is verified of a header of a key that verifies, a sealed body and a tag. -/
theorem verifyThroughS7_frame {key : MintKey} {nonce : Octets 12} {sealedBody tag : Bytes}
    (selects : keys.verifyKey key.id now = some key) (long : 20 ≤ sealedBody.length)
    (short : sealedBody.length ≤ 84) (tagLength : tag.length = key.algorithm.tagLen) :
    verifyThroughS7 C (tokenHeader key nonce ++ sealedBody ++ tag) keys now skew =
      (authenticate C key nonce (tokenHeader key nonce) sealedBody tag).bind fun body =>
        (readClaims body now skew).map fun claims => ⟨claims, nonce⟩ := by
  have headerLength := tokenHeader_length key nonce
  have start : headerLen = 14 := rfl
  have total : (tokenHeader key nonce ++ sealedBody ++ tag).length =
      14 + sealedBody.length + key.algorithm.tagLen := by
    rw [List.length_append, List.length_append, headerLength, tagLength]
  have floor : 12 ≤ key.algorithm.tagLen := by
    cases key.algorithm <;> decide
  have least : key.algorithm.minTokenLen = 34 + key.algorithm.tagLen := rfl
  have most : key.algorithm.maxTokenLen = 34 + key.algorithm.tagLen + 64 := rfl
  have structured : ¬ ((tokenHeader key nonce ++ sealedBody ++ tag).length < minTokenLen ∨
      (tokenHeader key nonce ++ sealedBody ++ tag).head? ≠ some version) := by
    rintro (tooShort | otherVersion)
    · rw [total] at tooShort
      change _ < 46 at tooShort
      omega
    · exact otherVersion rfl
  have bounded : ¬ ((tokenHeader key nonce ++ sealedBody ++ tag).length <
      key.algorithm.minTokenLen ∨
        key.algorithm.maxTokenLen < (tokenHeader key nonce ++ sealedBody ++ tag).length) := by
    rw [total, least, most]
    omega
  have keyId : (tokenHeader key nonce ++ sealedBody ++ tag)[1]? = some key.id := rfl
  have bodyLen : (tokenHeader key nonce ++ sealedBody ++ tag).length - headerLen -
      key.algorithm.tagLen = sealedBody.length := by
    rw [total, start]
    omega
  have header : slice (tokenHeader key nonce ++ sealedBody ++ tag) 0 headerLen =
      some (tokenHeader key nonce) := by
    rw [List.append_assoc]
    exact slice_append_left headerLength
  have isNonce : slice (tokenHeader key nonce) 2 headerLen = some nonce.bytes := by
    apply slice_of_split (List.append_nil _).symm rfl
    rw [nonce.length_eq]
    rfl
  have nonceOctets : Octets.ofBytes? 12 nonce.bytes = some nonce := dif_pos nonce.length_eq
  have body : slice (tokenHeader key nonce ++ sealedBody ++ tag) headerLen
      (headerLen + sealedBody.length) = some sealedBody := slice_of_split rfl headerLength rfl
  have copied : slice (writeAt (zeroed maxBodyLen) 0 sealedBody) 0 sealedBody.length =
      some sealedBody := by
    have size : maxBodyLen = 84 := rfl
    rw [size, writeAt_start short]
    exact slice_append_left rfl
  have isTag : slice (tokenHeader key nonce ++ sealedBody ++ tag) (headerLen + sealedBody.length)
      (tokenHeader key nonce ++ sealedBody ++ tag).length = some tag := by
    apply slice_of_split (List.append_nil _).symm
    · rw [List.length_append, headerLength, start]
    · rw [total, start, tagLength]
  simp only [verifyThroughS7, structured, if_false, keyId, okOr, selects, bounded, bodyLen, header,
    isNonce, nonceOctets, body, copied, isTag, bind, Except.bind]
  cases authenticate C key nonce (tokenHeader key nonce) sealedBody tag with
  | error reason => rfl
  | ok body =>
      simp only
      cases readClaims body now skew <;> rfl

/-- What passes S1 to S3 is framed so. -/
theorem exists_frame {parsed : Parsed}
    (verified : verifyThroughS7 C bytes keys now skew = .ok parsed) :
    ∃ key nonce sealedBody tag, keys.verifyKey key.id now = some key ∧
      bytes = tokenHeader key nonce ++ sealedBody ++ tag ∧ 20 ≤ sealedBody.length ∧
        sealedBody.length ≤ 84 ∧ tag.length = key.algorithm.tagLen := by
  unfold verifyThroughS7 at verified
  split at verified
  · contradiction
  next structured =>
    rw [not_or, not_not] at structured
    obtain ⟨-, isVersion⟩ := structured
    cases keyId : bytes[1]? with
    | none =>
        rw [keyId] at verified
        contradiction
    | some id =>
        simp only [keyId, okOr, bind, Except.bind] at verified
        cases selects : keys.verifyKey id now with
        | none =>
            rw [selects] at verified
            contradiction
        | some key =>
            simp only [selects] at verified
            split at verified
            · contradiction
            next bounded =>
              have least : key.algorithm.minTokenLen = 34 + key.algorithm.tagLen := rfl
              have most : key.algorithm.maxTokenLen = 34 + key.algorithm.tagLen + 64 := rfl
              rw [least, most] at bounded
              obtain ⟨header, rest, rfl, headerLength⟩ :=
                exists_split (show 14 ≤ bytes.length by omega)
              rw [List.length_append, headerLength] at bounded
              obtain ⟨sealedBody, tag, rfl, sealedLength⟩ :=
                exists_split (Nat.sub_le rest.length key.algorithm.tagLen)
              rw [List.length_append] at bounded sealedLength
              obtain ⟨first, second, nonce, rfl⟩ : ∃ first second nonce,
                  header = first :: second :: nonce := by
                match header, headerLength with
                | first :: second :: nonce, _ => exact ⟨first, second, nonce, rfl⟩
              obtain rfl : first = version := Option.some.inj isVersion
              obtain rfl : second = id := Option.some.inj keyId
              have isId : key.id = second := by
                obtain ⟨entry, -, -, isId, -⟩ := KeySet.verifyKey_eq_some_iff.mp selects
                exact isId
              have tagLength : tag.length = key.algorithm.tagLen := by omega
              refine ⟨key, ⟨nonce, Nat.succ.inj (Nat.succ.inj headerLength)⟩, sealedBody, tag, ?_,
                ?_, ?_, ?_, tagLength⟩
              · rw [isId]
                exact selects
              · rw [List.append_assoc, tokenHeader, isId]
                rfl
              · omega
              · omega

/-- What passes S1 to S7 is a token of a key that verifies, minted for these claims
with this nonce and not yet expired. -/
theorem verifyThroughS7_eq_ok_iff {parsed : Parsed} :
    verifyThroughS7 C bytes keys now skew = .ok parsed ↔
      ∃ key, keys.verifyKey key.id now = some key ∧
        (∃ token, mint C parsed.claims key parsed.nonce = .ok token ∧ token.asBytes = bytes) ∧
          now ≤ saturatingAdd parsed.claims.expiry skew := by
  constructor
  · intro verified
    obtain ⟨key, nonce, sealedBody, tag, selects, rfl, long, short, tagLength⟩ :=
      exists_frame verified
    rw [verifyThroughS7_frame selects long short tagLength] at verified
    cases opened : authenticate C key nonce (tokenHeader key nonce) sealedBody tag with
    | error reason =>
        rw [opened] at verified
        contradiction
    | ok body =>
        have seals := (authenticate_eq_ok_iff tagLength).mp opened
        have sameLength := seals.lengths.1
        rw [opened] at verified
        cases read : readClaims body now skew with
        | error reason =>
            simp only [Except.bind, read] at verified
            contradiction
        | ok claims =>
            simp only [Except.bind, read] at verified
            obtain rfl := Except.ok.inj verified
            obtain ⟨rfl, inTime⟩ :=
              (readClaims_eq_ok_iff (by omega) (by omega)).mp read
            rw [claimsBody_length] at sameLength
            refine ⟨key, selects, mint_iff.mpr ⟨?_, sealedBody, tag, seals, rfl⟩, inTime⟩
            change claims.moduleFacts.length ≤ 64
            omega
  · rintro ⟨key, selects, minted, inTime⟩
    obtain ⟨within, sealedBody, tag, seals, rfl⟩ := mint_iff.mp minted
    obtain ⟨sameLength, tagLength⟩ := seals.lengths
    rw [claimsBody_length] at sameLength
    have opened := (authenticate_eq_ok_iff tagLength).mpr seals
    have read : readClaims (claimsBody parsed.claims) now skew = .ok parsed.claims := by
      apply (readClaims_eq_ok_iff _ _).mpr ⟨rfl, inTime⟩
      · rw [claimsBody_length]
        omega
      · rw [claimsBody_length]
        omega
    rw [verifyThroughS7_frame selects (by omega) (by omega) tagLength, opened]
    simp only [Except.bind, read]
    rfl

/-- Without a pinned tenant or a partner, the verdict is that of S1 to S7. -/
theorem verify_eq_valid_iff {claims : Claims} :
    verify C bytes keys now ⟨none, none, skew⟩ = .valid claims ↔
      ∃ nonce, verifyThroughS7 C bytes keys now skew = .ok ⟨claims, nonce⟩ := by
  unfold verify
  cases verified : verifyThroughS7 C bytes keys now skew with
  | error reason => simp
  | ok parsed =>
      obtain ⟨claims', nonce⟩ := parsed
      simp

end Verify

/-- Verification accepts exactly what minting yields: a byte string is valid with these
claims if and only if a key of the set whose window is open mints the claims to it under
some nonce, the facts are within their budget, and the claims have not expired. -/
theorem verify_accepts_exactly_minted (C : Ciphers) (keys : KeySet) (bytes : Bytes)
    (now skew : UInt32) (claims : Claims) :
    verify C bytes keys now ⟨none, none, skew⟩ = .valid claims ↔
      ∃ entry ∈ keys.entries, entry.verifiesAt now = true ∧
        (∃ nonce token, mint C claims entry.key nonce = .ok token ∧ token.asBytes = bytes) ∧
          claims.moduleFacts.length ≤ 64 ∧ now ≤ saturatingAdd claims.expiry skew := by
  rw [verify_eq_valid_iff]
  constructor
  · rintro ⟨nonce, verified⟩
    obtain ⟨key, selects, minted, inTime⟩ := verifyThroughS7_eq_ok_iff.mp verified
    obtain ⟨entry, member, rfl, -, opens⟩ := KeySet.verifyKey_eq_some_iff.mp selects
    obtain ⟨within, -⟩ := mint_iff.mp minted
    obtain ⟨token, minted, isToken⟩ := minted
    exact ⟨entry, member, opens, ⟨nonce, token, minted, isToken⟩, within, inTime⟩
  · rintro ⟨entry, member, opens, ⟨nonce, token, minted, isToken⟩, -, inTime⟩
    have selects : keys.verifyKey entry.key.id now = some entry.key :=
      KeySet.verifyKey_eq_some_iff.mpr ⟨entry, member, rfl, rfl, opens⟩
    exact ⟨nonce, verifyThroughS7_eq_ok_iff.mpr
      ⟨entry.key, selects, ⟨token, minted, isToken⟩, inTime⟩⟩

example :
    let key : MintKey := ⟨7, .chaCha20Poly1305, .zeros 32⟩
    let claims : Claims := ⟨1, 2, 3, .originating, 4, 5, 15, [1, 2]⟩
    let nonce : Octets 12 := .zeros 12
    ((KeySet.new [⟨key, 10, 20, true⟩]).toOption.bind fun keys =>
      (mint default claims key nonce).toOption.map fun token =>
        verify default token.asBytes keys 15 .default) = some (.valid claims) := by decide

end SipxClstr.Affinity
