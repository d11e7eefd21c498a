import Mathlib.Tactic.SplitIfs
import SipxClstr.Affinity.Image

/-!
# Key rotation

A rotation distributes the incoming key, flips which key mints, and removes the
outgoing key.  Each step is one configuration document, and the nodes of a fleet
reload in any order.
-/

namespace SipxClstr.Affinity

open SipxClstr.Sip Wire

/-! ## Seconds -/

theorem saturatingAdd_toNat (first second : UInt32) :
    (saturatingAdd first second).toNat = min (first.toNat + second.toNat) 4294967295 := by
  rw [saturatingAdd, UInt32.toNat_ofNat_of_lt']
  change _ < 4294967296
  omega

theorem saturatingAdd_mono {first second later longer : UInt32} (starts : first ≤ later)
    (lasts : second ≤ longer) : saturatingAdd first second ≤ saturatingAdd later longer := by
  rw [UInt32.le_iff_toNat_le] at starts lasts ⊢
  rw [saturatingAdd_toNat, saturatingAdd_toNat]
  omega

/-- The longer of two spans. -/
def longest (lifetime maxRegistrationExpiry : UInt32) : UInt32 :=
  if maxRegistrationExpiry < lifetime then lifetime else maxRegistrationExpiry

theorem longest_toNat (lifetime maxRegistrationExpiry : UInt32) :
    (longest lifetime maxRegistrationExpiry).toNat =
      max lifetime.toNat maxRegistrationExpiry.toNat := by
  unfold longest
  split
  · next longer =>
      rw [UInt32.lt_iff_toNat_lt] at longer
      omega
  · next notLonger =>
      rw [UInt32.lt_iff_toNat_lt] at notLonger
      omega

/-- The earliest moment the outgoing key may be removed after the mint flip. -/
def retirementDeadline (tSwitch lifetime maxRegistrationExpiry skew : UInt32) : UInt32 :=
  saturatingAdd (saturatingAdd tSwitch (longest lifetime maxRegistrationExpiry)) skew

/-- A token minted by a moment is stale by the deadline of that moment. -/
theorem stale_le_retirementDeadline {time moment : UInt32} (byThen : time ≤ moment)
    (lifetime maxRegistrationExpiry skew : UInt32) :
    saturatingAdd (saturatingAdd time lifetime) skew ≤
      retirementDeadline moment lifetime maxRegistrationExpiry skew := by
  have longer : lifetime ≤ longest lifetime maxRegistrationExpiry := by
    rw [UInt32.le_iff_toNat_le, longest_toNat]
    exact Nat.le_max_left _ _
  rw [retirementDeadline]
  exact saturatingAdd_mono (saturatingAdd_mono byThen longer) (UInt32.le_refl skew)

/-! ## Keys of a set -/

/-- The entry that mints holds the mint key. -/
theorem KeySet.mintKey_eq_of_mem {keys : KeySet} {entry : KeyEntry}
    (member : entry ∈ keys.entries) (mints : entry.mint = true) :
    keys.mintKey = some entry.key := by
  obtain ⟨only, minting⟩ := List.length_eq_one_iff.mp keys.oneMints
  have isOnly : entry = only := by
    have filtered : entry ∈ keys.entries.filter KeyEntry.mint :=
      List.mem_filter.mpr ⟨member, mints⟩
    rwa [minting, List.mem_singleton] at filtered
  rw [KeySet.mintKey, ← List.head?_filter, minting, isOnly]
  rfl

/-- An entry whose window is open is the one its id selects. -/
theorem KeySet.verifyKey_eq_of_mem {keys : KeySet} {entry : KeyEntry} {now : UInt32}
    (member : entry ∈ keys.entries) (opens : entry.verifiesAt now = true) :
    keys.verifyKey entry.key.id now = some entry.key :=
  KeySet.verifyKey_eq_some_iff.mpr ⟨entry, member, rfl, rfl, opens⟩

/-- At most one entry of an id has its window open. -/
theorem KeySet.length_verifiesAt_le_one (keys : KeySet) (id : UInt8) (now : UInt32) :
    (keys.entries.filter fun entry => entry.key.id = id && entry.verifiesAt now).length ≤ 1 := by
  have opens : ∀ entry ∈ keys.entries.filter fun entry => entry.key.id = id &&
      entry.verifiesAt now, entry.key.id = id ∧ entry.verifiesAt now = true := by
    intro entry member
    simpa using (List.mem_filter.mp member).2
  have apart := keys.apart.filter fun entry => entry.key.id = id && entry.verifiesAt now
  generalize keys.entries.filter (fun entry => entry.key.id = id && entry.verifiesAt now) =
    entries at opens apart
  match entries, opens, apart with
  | [], _, _ => exact Nat.zero_le 1
  | [_], _, _ => exact Nat.le_refl 1
  | first :: second :: rest, opens, apart =>
      obtain ⟨firstId, firstOpens⟩ := opens first (by simp)
      obtain ⟨secondId, secondOpens⟩ := opens second (by simp)
      have overlap := KeyEntry.conflicts_of_verifiesAt (firstId.trans secondId.symm) firstOpens
        secondOpens
      rw [(List.pairwise_cons.mp apart).1 second (by simp)] at overlap
      contradiction

/-! ## Keys of a fleet -/

/-- What an operator writes and a fleet does: the configuration documents in order,
and the version each node that runs has loaded at each moment. -/
structure Rollout (Node : Type) where
  document : Nat → KeySet
  loaded : Node → UInt32 → Option Nat

/-- The key set a node that runs holds at a moment. -/
def Rollout.keys {Node : Type} (rollout : Rollout Node) (node : Node) (time : UInt32) :
    Option KeySet :=
  (rollout.loaded node time).map rollout.document

/-- The window of a key. -/
structure Keyed where
  key : MintKey
  verifyFrom : UInt32
  verifyUntil : UInt32

/-- The entry of a key that mints or does not. -/
def Keyed.entry (keyed : Keyed) (mint : Bool) : KeyEntry :=
  ⟨keyed.key, keyed.verifyFrom, keyed.verifyUntil, mint⟩

/-- An entry of the key selects it while the window is open, whether it mints or not. -/
theorem Keyed.verifyKey_eq {keyed : Keyed} {mint : Bool} {keys : KeySet} {now : UInt32}
    (member : keyed.entry mint ∈ keys.entries) (starts : keyed.verifyFrom ≤ now)
    (lasts : now ≤ keyed.verifyUntil) : keys.verifyKey keyed.key.id now = some keyed.key := by
  apply KeySet.verifyKey_eq_of_mem member
  rw [KeyEntry.verifiesAt, Bool.and_eq_true, decide_eq_true_eq, decide_eq_true_eq]
  exact ⟨starts, lasts⟩

/-- The lifetime of a token, the longest registration, and the clock skew. -/
structure Spans where
  lifetime : UInt32
  maxRegistrationExpiry : UInt32
  skew : UInt32

/-- The course of a key: the versions from which on it is distributed, mints, is succeeded
by the next key, and is removed, and the moment by which every node has flipped to the
next key. -/
structure Term where
  keyed : Keyed
  distribute : Nat
  flip : Nat
  next : Nat
  remove : Nat
  tSwitch : UInt32

/-- The key mints in this version. -/
def Term.MintsIn (term : Term) (version : Nat) : Prop :=
  term.flip ≤ version ∧ version < term.next

/-- Distribute, then activate. -/
structure Distributed {Node : Type} (rollout : Rollout Node) (term : Term) : Prop where
  /-- K1: the key is distributed before it mints. -/
  verifies : ∀ version, term.distribute ≤ version → version < term.flip →
    term.keyed.entry false ∈ (rollout.document version).entries
  /-- K2: when the first node flips to the key, its window is open, and from then on every node
  that runs holds it. -/
  confirmed : ∀ minter time, ∀ version ∈ rollout.loaded minter time, term.flip ≤ version →
    term.keyed.verifyFrom ≤ time ∧
      ∀ node later, time ≤ later → ∀ held ∈ rollout.loaded node later, term.distribute ≤ held
  /-- K3: the key mints from the flip on, until the next one does. -/
  mints : ∀ version, term.MintsIn version →
    term.keyed.entry true ∈ (rollout.document version).entries

/-- Keep the key until no token of it is fresh. -/
structure Retired {Node : Type} (rollout : Rollout Node) (term : Term) (spans : Spans) :
    Prop where
  /-- K3: every node that runs after the switch has flipped to the next key. -/
  switched : ∀ node time, term.tSwitch < time → ∀ version ∈ rollout.loaded node time,
    term.next ≤ version
  /-- K4: the key stays until it is removed. -/
  retained : ∀ version, term.next ≤ version → version < term.remove →
    term.keyed.entry false ∈ (rollout.document version).entries
  /-- K4: no node has removed the key by the deadline. -/
  removed : ∀ node time,
    time ≤ retirementDeadline term.tSwitch spans.lifetime spans.maxRegistrationExpiry spans.skew →
      ∀ version ∈ rollout.loaded node time, version < term.remove
  /-- K4: the window of the key lasts through the deadline. -/
  lasts : retirementDeadline term.tSwitch spans.lifetime spans.maxRegistrationExpiry spans.skew ≤
    term.keyed.verifyUntil

/-- One rotation by K1 to K4: nodes mint under the outgoing key and then under the incoming
one, and of the outgoing one the end is bounded. -/
structure Rotation {Node : Type} (rollout : Rollout Node) (outgoing incoming : Term)
    (spans : Spans) : Prop where
  outgoingMints : Distributed rollout outgoing
  outgoingRetires : Retired rollout outgoing spans
  succeeds : outgoing.next = incoming.flip
  incomingMints : Distributed rollout incoming
  within : ∀ node time, ∀ version ∈ rollout.loaded node time,
    outgoing.MintsIn version ∨ incoming.MintsIn version

/-- Any number of rotations: every version that a node runs has its minting key, which is
distributed, and is retired when the next one has taken over. -/
def Follows {Node : Type} (rollout : Rollout Node) (spans : Spans) : Prop :=
  ∀ node time, ∀ version ∈ rollout.loaded node time,
    ∃ term : Term, term.MintsIn version ∧ Distributed rollout term ∧ Retired rollout term spans

section Rotations

variable {Node : Type} {rollout : Rollout Node} {outgoing incoming term : Term} {spans : Spans}

/-- A rotation is followed where its incoming key is retired as well. -/
theorem Rotation.follows (rotation : Rotation rollout outgoing incoming spans)
    (retires : Retired rollout incoming spans) : Follows rollout spans := by
  intro node time version runs
  rcases rotation.within node time version runs with before | flipped
  · exact ⟨outgoing, before, rotation.outgoingMints, rotation.outgoingRetires⟩
  · exact ⟨incoming, flipped, rotation.incomingMints, retires⟩

/-- From the distribution of a key to its removal every version holds it. -/
theorem exists_entry (distributed : Distributed rollout term) (retired : Retired rollout term spans)
    {version : Nat} (starts : term.distribute ≤ version) (ends : version < term.remove) :
    ∃ mint, term.keyed.entry mint ∈ (rollout.document version).entries := by
  rcases Nat.lt_or_ge version term.flip with before | flipped
  · exact ⟨false, distributed.verifies version starts before⟩
  rcases Nat.lt_or_ge version term.next with mints | succeeded
  · exact ⟨true, distributed.mints version ⟨flipped, mints⟩⟩
  · exact ⟨false, retired.retained version succeeded ends⟩

/-- A key a node mints under is verify-valid at every node that runs until its tokens are
stale. -/
theorem verifyKey_of_mintsIn (distributed : Distributed rollout term)
    (retired : Retired rollout term spans) {minter node : Node} {time now : UInt32}
    {version held : Nat} (mints : version ∈ rollout.loaded minter time)
    (within : term.MintsIn version) (runs : held ∈ rollout.loaded node now) (after : time ≤ now)
    (fresh : now ≤ saturatingAdd (saturatingAdd time spans.lifetime) spans.skew) :
    (rollout.document held).verifyKey term.keyed.key.id now = some term.keyed.key := by
  obtain ⟨starts, everywhere⟩ := distributed.confirmed minter time version mints within.1
  have bySwitch : time ≤ term.tSwitch := by
    apply UInt32.not_lt.mp
    intro late
    exact absurd (retired.switched minter time late version mints) (Nat.not_le.mpr within.2)
  have byDeadline := UInt32.le_trans fresh
    (stale_le_retirementDeadline bySwitch spans.lifetime spans.maxRegistrationExpiry spans.skew)
  obtain ⟨mint, member⟩ := exists_entry distributed retired
    (everywhere node now after held runs) (retired.removed node now byDeadline held runs)
  exact Keyed.verifyKey_eq member (UInt32.le_trans starts after)
    (UInt32.le_trans byDeadline retired.lasts)

/-- A token verifies where its key is verify-valid and it is not stale. -/
theorem verify_eq_valid_of_verifyKey {C : Ciphers} {claims : Claims} {key : MintKey}
    {nonce : Octets 12} {token : Token} {keys : KeySet} {now : UInt32} {expect : Expect}
    (minted : mint C claims key nonce = .ok token)
    (selects : keys.verifyKey key.id now = some key)
    (fresh : now ≤ saturatingAdd claims.expiry expect.skew)
    (pinned : ∀ tenant ∈ expect.tenant, tenant = claims.tenant) (alone : expect.partner = none) :
    verify C token.asBytes keys now expect = .valid claims := by
  have verified : verifyThroughS7 C token.asBytes keys now expect.skew = .ok ⟨claims, nonce⟩ :=
    verifyThroughS7_eq_ok_iff.mpr ⟨key, selects, ⟨token, minted, rfl⟩, fresh⟩
  have inScope : (expect.tenant.any fun tenant => tenant ≠ claims.tenant) = false := by
    cases isTenant : expect.tenant with
    | none => rfl
    | some tenant => simp [pinned tenant isTenant]
  rw [verify, verified]
  simp only [inScope, alone]
  rfl

/-- No token minted in the course of any number of rotations is stranded, and at no node
does an id select two entries. -/
theorem Follows.verify_minted (follows : Follows rollout spans) :
    (∀ (C : Ciphers) (minter : Node) (time : UInt32) (minting : KeySet) (key : MintKey)
        (claims : Claims) (nonce : Octets 12) (token : Token),
      rollout.keys minter time = some minting →
      minting.mintKey = some key →
      claims.expiry = saturatingAdd time spans.lifetime →
      mint C claims key nonce = .ok token →
      ∀ (node : Node) (now : UInt32) (keys : KeySet) (tenant : Option UInt32),
        rollout.keys node now = some keys →
        time ≤ now →
        now ≤ saturatingAdd claims.expiry spans.skew →
        (∀ pinned ∈ tenant, pinned = claims.tenant) →
        verify C token.asBytes keys now ⟨tenant, none, spans.skew⟩ = .valid claims) ∧
      ∀ (node : Node) (time now : UInt32) (id : UInt8), ∀ keys ∈ rollout.keys node time,
        (keys.entries.filter fun entry => entry.key.id = id && entry.verifiesAt now).length ≤ 1 := by
  constructor
  · intro C minter time minting key claims nonce token runs mints expires minted node now keys tenant
      holds after fresh pinned
    obtain ⟨version, loaded, rfl⟩ := Option.map_eq_some_iff.mp runs
    obtain ⟨held, loadedThere, rfl⟩ := Option.map_eq_some_iff.mp holds
    obtain ⟨term, within, distributed, retired⟩ := follows minter time version loaded
    have isKey := KeySet.mintKey_eq_of_mem (distributed.mints version within) rfl
    obtain rfl := Option.some.inj (isKey.symm.trans mints)
    have bySpans := fresh
    rw [expires] at bySpans
    have selects := verifyKey_of_mintsIn distributed retired loaded within loadedThere after bySpans
    exact verify_eq_valid_of_verifyKey minted selects fresh pinned rfl
  · intro node time now id keys _
    exact KeySet.length_verifiesAt_le_one keys id now

end Rotations

/-! ## Rotations on fixed inputs -/

def sampleSpans : Spans :=
  ⟨10, 10, 1⟩

/-- Three keys, the last of which has the id of the first.  The window of the second lasts, or
ends at 130. -/
def sampleFirst : Term :=
  ⟨⟨⟨1, .chaCha20Poly1305, .zeros 32⟩, 5, 200⟩, 0, 0, 2, 3, 100⟩

def sampleSecond (lasts : Bool) : Term :=
  ⟨⟨⟨2, .hmacSha256_96, .zeros 32⟩, 40, if lasts then 350 else 130⟩, 1, 2, 5, 6, 250⟩

def sampleThird : Term :=
  ⟨⟨⟨1, .hmacSha256_96, .zeros 32⟩, 210, 1000⟩, 4, 5, 7, 7, 400⟩

/-- The documents of two rotations. -/
def sampleDocument (lasts : Bool) : Nat → List KeyEntry
  | 0 => [sampleFirst.keyed.entry true]
  | 1 => [sampleFirst.keyed.entry true, (sampleSecond lasts).keyed.entry false]
  | 2 => [sampleFirst.keyed.entry false, (sampleSecond lasts).keyed.entry true]
  | 3 => [(sampleSecond lasts).keyed.entry true]
  | 4 => [(sampleSecond lasts).keyed.entry true, sampleThird.keyed.entry false]
  | 5 => [(sampleSecond lasts).keyed.entry false, sampleThird.keyed.entry true]
  | _ => [sampleThird.keyed.entry true]

theorem sampleDocument_wellFormed (lasts : Bool) (version : Nat) :
    (∀ entry ∈ sampleDocument lasts version, entry.verifyFrom ≤ entry.verifyUntil) ∧
      ((sampleDocument lasts version).filter KeyEntry.mint).length = 1 ∧
        (sampleDocument lasts version).Pairwise fun entry other => entry.conflicts other = false := by
  have fits : ∀ version ≤ 6,
      (∀ entry ∈ sampleDocument lasts version, entry.verifyFrom ≤ entry.verifyUntil) ∧
        ((sampleDocument lasts version).filter KeyEntry.mint).length = 1 ∧
          (sampleDocument lasts version).Pairwise
            fun entry other => entry.conflicts other = false := by
    cases lasts <;> decide
  rcases Nat.lt_or_ge version 6 with few | many
  · exact fits version few.le
  · obtain ⟨more, rfl⟩ := Nat.exists_eq_add_of_le' many
    exact fits 6 (Nat.le_refl 6)

/-- Two nodes that run from 10 on, one of which reloads ahead of the other at each flip: until
400, or until 200 and the first rotation alone. -/
def sampleRollout (lasts : Bool) : Rollout Bool where
  document version :=
    { entries := sampleDocument lasts version
      windows := (sampleDocument_wellFormed lasts version).1
      oneMints := (sampleDocument_wellFormed lasts version).2.1
      apart := (sampleDocument_wellFormed lasts version).2.2 }
  loaded early time :=
    if time.toNat < 10 ∨ (if lasts then 400 else 200) < time.toNat then none
    else if time.toNat < 50 then some 0
    else if time.toNat < (if early then 90 else 101) then some 1
    else if time.toNat < 120 then some 2
    else if time.toNat < 220 then some 3
    else if time.toNat < (if early then 240 else 251) then some 4
    else if time.toNat < 270 then some 5
    else some 6

/-- Which version a node runs tells when. -/
theorem loaded_sample {lasts early : Bool} {time : UInt32} {version : Nat}
    (runs : version ∈ (sampleRollout lasts).loaded early time) :
    10 ≤ time.toNat ∧ (time.toNat ≤ 200 ∨ lasts = true ∧ time.toNat ≤ 400) ∧
      (version < 3 ↔ time.toNat < 120) ∧ (version < 4 ↔ time.toNat < 220) ∧
      (version < 6 ↔ time.toNat < 270) ∧ (1 ≤ version ↔ 50 ≤ time.toNat) ∧ version < 7 ∧
      (2 ≤ version → 90 ≤ time.toNat) ∧ (101 ≤ time.toNat → 2 ≤ version) ∧
      (5 ≤ version → 240 ≤ time.toNat) ∧ (251 ≤ time.toNat → 5 ≤ version) := by
  have firstFlip : 90 ≤ (if early = true then 90 else 101) ∧
      (if early = true then 90 else 101) ≤ 101 := by
    cases early <;> decide
  have secondFlip : 240 ≤ (if early = true then 240 else 251) ∧
      (if early = true then 240 else 251) ≤ 251 := by
    cases early <;> decide
  simp only [sampleRollout] at runs
  by_cases outside : time.toNat < 10 ∨ (if lasts = true then 400 else 200) < time.toNat
  · rw [if_pos outside] at runs
    contradiction
  · rw [if_neg outside] at runs
    obtain ⟨starts, ends⟩ := not_or.mp outside
    have stops : time.toNat ≤ 200 ∨ lasts = true ∧ time.toNat ≤ 400 := by
      cases lasts with
      | false => exact .inl (Nat.not_lt.mp ends)
      | true => exact .inr ⟨rfl, Nat.not_lt.mp ends⟩
    refine ⟨Nat.not_lt.mp starts, stops, ?_⟩
    -- One case for each version, told by the bounds that the time is between.
    generalize (if early = true then 90 else 101) = first at runs firstFlip
    generalize (if early = true then 240 else 251) = second at runs secondFlip
    clear stops ends outside
    split_ifs at runs <;> rw [Option.mem_some_iff] at runs <;> omega

theorem distributed_first (lasts : Bool) : Distributed (sampleRollout lasts) sampleFirst where
  verifies version starts before := absurd before (Nat.not_lt_zero version)
  confirmed minter time version runs flipped := by
    refine ⟨?_, fun node later after held _ => Nat.zero_le held⟩
    have shape := loaded_sample runs
    rw [UInt32.le_iff_toNat_le]
    change 5 ≤ time.toNat
    omega
  mints version within := by
    obtain ⟨-, before⟩ := within
    change version < 2 at before
    have flips : version = 0 ∨ version = 1 := by omega
    rcases flips with rfl | rfl <;> simp [sampleRollout, sampleDocument]

theorem distributed_second (lasts : Bool) :
    Distributed (sampleRollout lasts) (sampleSecond lasts) where
  verifies version starts before := by
    change 1 ≤ version at starts
    change version < 2 at before
    obtain rfl : version = 1 := by omega
    simp [sampleRollout, sampleDocument]
  confirmed minter time version runs flipped := by
    have shape := loaded_sample runs
    change 2 ≤ version at flipped
    constructor
    · rw [UInt32.le_iff_toNat_le]
      change 40 ≤ time.toNat
      omega
    · intro node later after held runsThere
      have there := loaded_sample runsThere
      rw [UInt32.le_iff_toNat_le] at after
      change 1 ≤ held
      omega
  mints version within := by
    obtain ⟨flipped, before⟩ := within
    change 2 ≤ version at flipped
    change version < 5 at before
    have flips : version = 2 ∨ version = 3 ∨ version = 4 := by omega
    rcases flips with rfl | rfl | rfl <;> simp [sampleRollout, sampleDocument]

theorem distributed_third : Distributed (sampleRollout true) sampleThird where
  verifies version starts before := by
    change 4 ≤ version at starts
    change version < 5 at before
    obtain rfl : version = 4 := by omega
    simp [sampleRollout, sampleDocument]
  confirmed minter time version runs flipped := by
    have shape := loaded_sample runs
    change 5 ≤ version at flipped
    constructor
    · rw [UInt32.le_iff_toNat_le]
      change 210 ≤ time.toNat
      omega
    · intro node later after held runsThere
      have there := loaded_sample runsThere
      rw [UInt32.le_iff_toNat_le] at after
      change 4 ≤ held
      omega
  mints version within := by
    obtain ⟨flipped, before⟩ := within
    change 5 ≤ version at flipped
    change version < 7 at before
    have flips : version = 5 ∨ version = 6 := by omega
    rcases flips with rfl | rfl <;> simp [sampleRollout, sampleDocument]

theorem retired_first (lasts : Bool) : Retired (sampleRollout lasts) sampleFirst sampleSpans where
  switched node time after version runs := by
    have shape := loaded_sample runs
    rw [UInt32.lt_iff_toNat_lt] at after
    change 100 < time.toNat at after
    change 2 ≤ version
    omega
  retained version succeeded before := by
    change 2 ≤ version at succeeded
    change version < 3 at before
    obtain rfl : version = 2 := by omega
    simp [sampleRollout, sampleDocument]
  removed node time byDeadline version runs := by
    have shape := loaded_sample runs
    rw [UInt32.le_iff_toNat_le] at byDeadline
    change time.toNat ≤ 111 at byDeadline
    change version < 3
    omega
  lasts := by decide

theorem retired_second : Retired (sampleRollout true) (sampleSecond true) sampleSpans where
  switched node time after version runs := by
    have shape := loaded_sample runs
    rw [UInt32.lt_iff_toNat_lt] at after
    change 250 < time.toNat at after
    change 5 ≤ version
    omega
  retained version succeeded before := by
    change 5 ≤ version at succeeded
    change version < 6 at before
    obtain rfl : version = 5 := by omega
    simp [sampleRollout, sampleDocument]
  removed node time byDeadline version runs := by
    have shape := loaded_sample runs
    rw [UInt32.le_iff_toNat_le] at byDeadline
    change time.toNat ≤ 261 at byDeadline
    change version < 6
    omega
  lasts := by decide

theorem retired_third : Retired (sampleRollout true) sampleThird sampleSpans where
  switched node time after version runs := by
    have shape := loaded_sample runs
    rw [UInt32.lt_iff_toNat_lt] at after
    change 400 < time.toNat at after
    omega
  retained version succeeded before := absurd before (Nat.not_lt.mpr succeeded)
  removed node time byDeadline version runs := by
    have shape := loaded_sample runs
    change version < 7
    omega
  lasts := by decide

theorem follows_sample : Follows (sampleRollout true) sampleSpans := by
  intro node time version runs
  have shape := loaded_sample runs
  rcases Nat.lt_or_ge version 2 with first | flipped
  · exact ⟨sampleFirst, ⟨Nat.zero_le version, first⟩, distributed_first true, retired_first true⟩
  rcases Nat.lt_or_ge version 5 with second | again
  · exact ⟨sampleSecond true, ⟨flipped, second⟩, distributed_second true, retired_second⟩
  · have most : version < 7 := by omega
    exact ⟨sampleThird, ⟨again, most⟩, distributed_third, retired_third⟩

def sampleClaims (expiry : UInt32) : Claims :=
  ⟨1, 2, 3, .originating, 4, 5, expiry, [1, 2]⟩

def sampleNonce : Octets 12 :=
  .zeros 12

/-- The node that flips last mints its last token under the second key, and the other node,
which has flipped to the third, still verifies it at the deadline. -/
theorem verify_minted_last :
    (mint default (sampleClaims 260) (sampleSecond true).keyed.key sampleNonce).toOption.bind
      (fun token => ((sampleRollout true).keys true 261).map fun keys =>
        verify default token.asBytes keys 261 ⟨some 1, none, 1⟩) =
          some (.valid (sampleClaims 260)) := by
  obtain ⟨token, minted⟩ : ∃ token,
      mint default (sampleClaims 260) (sampleSecond true).keyed.key sampleNonce = .ok token := ⟨_, rfl⟩
  have verified := follows_sample.verify_minted.1 default false 250
    ((sampleRollout true).document 4) (sampleSecond true).keyed.key (sampleClaims 260) sampleNonce
    token rfl rfl rfl minted true 261 ((sampleRollout true).document 5) (some 1) rfl (by decide)
    (by decide) (by simp [sampleClaims])
  rw [minted]
  exact congrArg some verified

theorem rotation_sample :
    Rotation (sampleRollout false) sampleFirst (sampleSecond false) sampleSpans where
  outgoingMints := distributed_first false
  outgoingRetires := retired_first false
  succeeds := rfl
  incomingMints := distributed_second false
  within node time version runs := by
    have shape := loaded_sample runs
    simp only [Bool.false_eq_true, false_and, or_false] at shape
    rcases Nat.lt_or_ge version 2 with before | flipped
    · exact .inl ⟨Nat.zero_le version, before⟩
    · refine .inr ⟨flipped, ?_⟩
      change version < 5
      omega

/-- A window that ends while tokens minted under the incoming key are fresh strands them. -/
theorem verify_minted_stranded :
    Rotation (sampleRollout false) sampleFirst (sampleSecond false) sampleSpans ∧
      (((sampleRollout false).keys true 125).bind KeySet.mintKey) =
        some (sampleSecond false).keyed.key ∧
      (mint default (sampleClaims 135) (sampleSecond false).keyed.key sampleNonce).toOption.bind
        (fun token => ((sampleRollout false).keys true 131).map fun keys =>
          verify default token.asBytes keys 131 ⟨none, none, 1⟩) = some (.invalid .unknownKey) :=
  ⟨rotation_sample, rfl, by decide⟩

end SipxClstr.Affinity
