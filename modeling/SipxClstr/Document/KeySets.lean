import SipxClstr.Affinity.Keys
import SipxClstr.Data.Traverse
import SipxClstr.Document.Accepted

/-!
# Key sections and key sets

A document's keys are read over signed instants, and the token library holds its own over
32-bit seconds.  The two validate the same section by rules written apart.
-/

namespace SipxClstr.Document

open SipxClstr.Sip SipxClstr.Affinity

/-- The construction the token library knows by this name. -/
def KeyAlgorithm.selects : KeyAlgorithm → Algorithm
  | .chaCha20Poly1305 => .chaCha20Poly1305
  | .hmacSha256_96 => .hmacSha256_96

/-- The secret a reference resolves to. -/
abbrev Secrets := Text → Octets 32

namespace KeySpec

variable (secrets : Secrets)

/-- The last second a 32-bit clock names. -/
def lastSecond : Int :=
  4294967295

/-- Whether an entry's window is one of 32-bit seconds. -/
def inRange (key : KeySpec) : Prop :=
  0 ≤ key.verifyFrom ∧ key.verifyUntil ≤ lastSecond

instance (key : KeySpec) : Decidable key.inRange :=
  inferInstanceAs (Decidable (_ ∧ _))

def mintKey (key : KeySpec) : MintKey :=
  ⟨UInt8.ofNat key.id, key.algorithm.selects, secrets key.secretRef⟩

def keyEntry (key : KeySpec) : KeyEntry :=
  ⟨key.mintKey secrets, UInt32.ofNat key.verifyFrom.toNat, UInt32.ofNat key.verifyUntil.toNat,
    key.mint⟩

/-- `u32::try_from` of both bounds, and the entry with them. -/
def toEntry (key : KeySpec) : Option KeyEntry :=
  if 0 ≤ key.verifyFrom ∧ key.verifyFrom ≤ lastSecond ∧ 0 ≤ key.verifyUntil ∧
      key.verifyUntil ≤ lastSecond then
    some (key.keyEntry secrets)
  else
    none

/-- Whether this is an entry of this id whose declared window is open. -/
def covers (key : KeySpec) (id : UInt8) (now : UInt32) : Prop :=
  key.id = id.toNat ∧ key.verifyFrom ≤ now.toNat ∧ (now.toNat : Int) ≤ key.verifyUntil

end KeySpec

/-- What an id selects at a time is the one entry of it whose declared window is open, and
nothing when there is none. -/
def SelectsDeclared (secrets : Secrets) (keys : List KeySpec) (set : KeySet) : Prop :=
  ∀ id now,
    (∃ key ∈ keys, key.covers id now ∧ (∀ other ∈ keys, other.covers id now → other = key) ∧
      set.verifyKey id now = some (key.mintKey secrets)) ∨
    (∀ key ∈ keys, ¬ key.covers id now) ∧ set.verifyKey id now = none

/-- The entries convert, the key set they make is accepted, one of them mints, and an id
selects what the document declares. -/
def BuildsKeySet (secrets : Secrets) (keys : List KeySpec) : Prop :=
  ∃ entries set, keys.mapM (KeySpec.toEntry secrets) = some entries ∧
    KeySet.new entries = .ok set ∧ (keys.filter KeySpec.mint).length = 1 ∧
    SelectsDeclared secrets keys set

/-! ## Conversion -/

namespace KeySpec

variable {secrets : Secrets} {keys : List KeySpec}

theorem toNat_ofNat_toNat {seconds : Int} (bottom : 0 ≤ seconds) (top : seconds ≤ lastSecond) :
    ((UInt32.ofNat seconds.toNat).toNat : Int) = seconds := by
  have small : seconds.toNat < UInt32.size := by
    unfold lastSecond at top
    have size : UInt32.size = 4294967296 := rfl
    omega
  rw [UInt32.toNat_ofNat_of_lt' small]
  exact Int.toNat_of_nonneg bottom

theorem verifiesAt_keyEntry {key : KeySpec} (opens : key.verifyFrom < key.verifyUntil)
    (inRange : key.inRange) (now : UInt32) :
    (key.keyEntry secrets).verifiesAt now = true ↔
      key.verifyFrom ≤ now.toNat ∧ (now.toNat : Int) ≤ key.verifyUntil := by
  obtain ⟨bottom, top⟩ := inRange
  have opening := toNat_ofNat_toNat bottom (le_trans opens.le top)
  have closing := toNat_ofNat_toNat (le_trans bottom opens.le) top
  simp only [KeyEntry.verifiesAt, keyEntry, Bool.and_eq_true, decide_eq_true_eq, UInt32.le_iff_toNat_le]
  omega

theorem id_keyEntry {key : KeySpec} (fits : key.id ≤ u8Max) {id : UInt8} :
    (key.keyEntry secrets).key.id = id ↔ key.id = id.toNat := by
  have small : key.id < 256 := Nat.lt_succ_of_le fits
  simp only [keyEntry, mintKey, ← UInt8.toNat_inj, UInt8.toNat_ofNat_of_lt' small]

/-- Two entries conflict as their declared windows overlap. -/
theorem conflicts_keyEntry {key other : KeySpec} (fits : key.id ≤ u8Max) (fits' : other.id ≤ u8Max)
    (opens : key.verifyFrom < key.verifyUntil) (opens' : other.verifyFrom < other.verifyUntil)
    (inRange : key.inRange) (inRange' : other.inRange) :
    (key.keyEntry secrets).conflicts (other.keyEntry secrets) = key.overlaps other := by
  have opening := toNat_ofNat_toNat inRange.1 (le_trans opens.le inRange.2)
  have closing := toNat_ofNat_toNat (le_trans inRange.1 opens.le) inRange.2
  have opening' := toNat_ofNat_toNat inRange'.1 (le_trans opens'.le inRange'.2)
  have closing' := toNat_ofNat_toNat (le_trans inRange'.1 opens'.le) inRange'.2
  have small : key.id < 256 := Nat.lt_succ_of_le fits
  have small' : other.id < 256 := Nat.lt_succ_of_le fits'
  rw [Bool.eq_iff_iff]
  simp only [KeyEntry.conflicts, overlaps, keyEntry, mintKey, Bool.and_eq_true, decide_eq_true_eq,
    UInt32.le_iff_toNat_le, ← UInt8.toNat_inj, UInt8.toNat_ofNat_of_lt' small,
    UInt8.toNat_ofNat_of_lt' small']
  omega

theorem toEntry_eq_some {key : KeySpec} (opens : key.verifyFrom < key.verifyUntil)
    (inRange : key.inRange) : key.toEntry secrets = some (key.keyEntry secrets) := by
  rw [toEntry, if_pos]
  exact ⟨inRange.1, le_trans opens.le inRange.2, le_trans inRange.1 opens.le, inRange.2⟩

theorem inRange_of_isSome {key : KeySpec} (converts : (key.toEntry secrets).isSome) :
    key.inRange := by
  unfold toEntry at converts
  split at converts
  · next within => exact ⟨within.1, within.2.2.2⟩
  · simp at converts

/-- The entries of accepted keys convert when every instant is one of 32-bit seconds. -/
theorem mapM_toEntry (accepted : AcceptedKeys keys) (inRange : ∀ key ∈ keys, key.inRange) :
    keys.mapM (toEntry secrets) = some (keys.map (keyEntry secrets)) := by
  rw [Data.mapM_eq_some_iff, List.map_map]
  apply List.map_congr_left
  intro key member
  exact toEntry_eq_some (accepted.opens key member) (inRange key member)

end KeySpec

/-- The token library accepts the key set. -/
theorem new_keyEntries (secrets : Secrets) {keys : List KeySpec} (accepted : AcceptedKeys keys)
    (nonempty : keys ≠ []) (inRange : ∀ key ∈ keys, key.inRange) :
    ∃ set, KeySet.new (keys.map (KeySpec.keyEntry secrets)) = .ok set ∧
      set.entries = keys.map (KeySpec.keyEntry secrets) := by
  have mints : ((keys.map (KeySpec.keyEntry secrets)).filter KeyEntry.mint).length = 1 := by
    rw [List.filter_map, List.length_map]
    exact accepted.oneMints nonempty
  have opens : (keys.map (KeySpec.keyEntry secrets)).find?
      (fun entry => entry.verifyUntil < entry.verifyFrom) = none := by
    rw [List.find?_eq_none]
    intro entry member
    obtain ⟨key, isKey, rfl⟩ := List.mem_map.mp member
    have opens := accepted.opens key isKey
    have opening := KeySpec.toNat_ofNat_toNat (inRange key isKey).1
      (le_trans opens.le (inRange key isKey).2)
    have closing := KeySpec.toNat_ofNat_toNat (le_trans (inRange key isKey).1 opens.le)
      (inRange key isKey).2
    simp only [KeySpec.keyEntry, decide_eq_true_eq, UInt32.lt_iff_toNat_lt]
    omega
  have apart : firstConflict (keys.map (KeySpec.keyEntry secrets)) = none := by
    rw [firstConflict_eq_none_iff, List.pairwise_map]
    apply accepted.apart.imp_of_mem
    intro key other isKey isOther apart
    rw [KeySpec.conflicts_keyEntry (accepted.fits key isKey) (accepted.fits other isOther)
      (accepted.opens key isKey) (accepted.opens other isOther) (inRange key isKey)
      (inRange other isOther)]
    exact apart
  unfold KeySet.new
  split
  · next entry found => simp [opens] at found
  · rw [dif_neg (by omega), dif_neg (by omega)]
    split
    · next entry found => simp [apart] at found
    · exact ⟨_, rfl, rfl⟩

/-- Two entries of an id whose windows meet are one. -/
theorem AcceptedKeys.eq_of_overlaps {keys : List KeySpec} (accepted : AcceptedKeys keys)
    {key other : KeySpec} (isKey : key ∈ keys) (isOther : other ∈ keys)
    (overlaps : other.overlaps key = true) : other = key := by
  have symmetric : Std.Symm fun key entry : KeySpec => key.overlaps entry = false := by
    constructor
    intro key entry apart
    rw [← apart]
    unfold KeySpec.overlaps
    rw [Bool.and_right_comm, decide_eq_decide.mpr (eq_comm (a := entry.id))]
  by_contra differs
  have apart := accepted.apart.forall isOther isKey differs
  simp [overlaps] at apart

/-- An entry that is open for an id at a time is the only one. -/
theorem covers_unique {keys : List KeySpec} (accepted : AcceptedKeys keys) {key other : KeySpec}
    (isKey : key ∈ keys) (isOther : other ∈ keys) {id : UInt8} {now : UInt32}
    (covers : key.covers id now) (covers' : other.covers id now) : other = key := by
  apply accepted.eq_of_overlaps isKey isOther
  obtain ⟨sameId, after, before⟩ := covers
  obtain ⟨sameId', after', before'⟩ := covers'
  simp only [KeySpec.overlaps, Bool.and_eq_true, decide_eq_true_eq]
  omega

theorem selectsDeclared {secrets : Secrets} {keys : List KeySpec} (accepted : AcceptedKeys keys)
    (inRange : ∀ key ∈ keys, key.inRange) {set : KeySet}
    (entries : set.entries = keys.map (KeySpec.keyEntry secrets)) :
    SelectsDeclared secrets keys set := by
  intro id now
  have isCovered : ∀ key ∈ keys, (key.keyEntry secrets).key.id = id →
      (key.keyEntry secrets).verifiesAt now = true → key.covers id now := by
    intro key isKey sameId verifies
    have opens := accepted.opens key isKey
    exact ⟨(KeySpec.id_keyEntry (accepted.fits key isKey)).mp sameId,
      (KeySpec.verifiesAt_keyEntry opens (inRange key isKey) now).mp verifies⟩
  by_cases some : ∃ key ∈ keys, key.covers id now
  · obtain ⟨key, isKey, covers⟩ := some
    left
    refine ⟨key, isKey, covers, fun other isOther => covers_unique accepted isKey isOther covers, ?_⟩
    have sameId : (key.keyEntry secrets).key.id = id :=
      (KeySpec.id_keyEntry (accepted.fits key isKey)).mpr covers.1
    have verifies : (key.keyEntry secrets).verifiesAt now = true :=
      (KeySpec.verifiesAt_keyEntry (accepted.opens key isKey) (inRange key isKey) now).mpr covers.2
    rw [KeySet.verifyKey_eq_some_iff]
    refine ⟨key.keyEntry secrets, ?_, rfl, sameId, verifies⟩
    rw [entries]
    exact List.mem_map_of_mem isKey
  · right
    refine ⟨fun key isKey covers => some ⟨key, isKey, covers⟩, ?_⟩
    rw [Option.eq_none_iff_forall_ne_some]
    intro found isFound
    obtain ⟨entry, member, rfl, sameId, verifies⟩ := KeySet.verifyKey_eq_some_iff.mp isFound
    rw [entries] at member
    obtain ⟨key, isKey, rfl⟩ := List.mem_map.mp member
    exact some ⟨key, isKey, isCovered key isKey sameId verifies⟩

/-- The keys of an accepted document are a key set of the token library exactly when there
is an entry and every declared instant is one of 32-bit seconds. -/
theorem buildsKeySet_iff (lib : Libraries) (raw : Bytes) (identity : NodeIdentity) (env : Env)
    (config : Config) (secrets : Secrets) (accepted : load lib raw identity env = .ok config) :
    BuildsKeySet secrets config.keys ↔
      config.keys ≠ [] ∧ ∀ key ∈ config.keys, key.inRange := by
  have keys := acceptedKeys_of_load accepted
  constructor
  · rintro ⟨entries, set, converts, -, mints, -⟩
    constructor
    · intro empty
      simp [empty] at mints
    · intro key isKey
      exact KeySpec.inRange_of_isSome (Data.isSome_of_mapM converts isKey)
  · rintro ⟨nonempty, inRange⟩
    obtain ⟨set, isSet, entries⟩ := new_keyEntries secrets keys nonempty inRange
    exact ⟨_, set, KeySpec.mapM_toEntry keys inRange, isSet, keys.oneMints nonempty,
      selectsDeclared keys inRange entries⟩

/-- A key of this id that names this secret. -/
def keyItem (id : UInt64) (opens closes : String) (mints : Bool) (reference : String) : Value :=
  mappingOf [("id", .number (.posInt id)), ("verifyFrom", scalar opens),
    ("verifyUntil", scalar closes), ("mint", .bool mints), ("secretRef", scalar reference)]

/-- A key that mints, the next one beside it, and the first one's id once more. -/
def threeKeys : List (String × Value) :=
  [("keys", .sequence [keyItem 7 "2026-01-01T00:00:00Z" "2027-01-01T00:00:00Z" true "k",
    keyItem 8 "2026-01-01T00:00:00Z" "2028-01-01T00:00:00Z" false "l",
    keyItem 7 "2028-01-01T00:00:00Z" "2029-01-01T00:00:00Z" false "m"])]

def threeKeysLines : String :=
  "  keys:\n  - id: 7\n    verifyFrom: 2026-01-01T00:00:00Z\n    verifyUntil: 2027-01-01T00:00:00Z\n    mint: true\n    secretRef: k\n  - id: 8\n    verifyFrom: 2026-01-01T00:00:00Z\n    verifyUntil: 2028-01-01T00:00:00Z\n    mint: false\n    secretRef: l\n  - id: 7\n    verifyFrom: 2028-01-01T00:00:00Z\n    verifyUntil: 2029-01-01T00:00:00Z\n    mint: false\n    secretRef: m\n"

/-- The keys as they are read. -/
def threeKeysRead : List KeySpec :=
  [⟨7, .chaCha20Poly1305, text "k", 1767225600, 1798761600, true⟩,
    ⟨8, .chaCha20Poly1305, text "l", 1767225600, 1830297600, false⟩,
    ⟨7, .chaCha20Poly1305, text "m", 1830297600, 1861920000, false⟩]

def zeroSecrets : Secrets :=
  fun _ => ⟨List.replicate 32 0, rfl⟩

set_option maxRecDepth 8000 in
theorem buildsKeySet_threeKeys :
    ∃ config, loadLeast (onlyLeast 1 threeKeys threeKeysLines) 1 threeKeysLines = .ok config ∧
      BuildsKeySet zeroSecrets config.keys := by
  have read : (loadLeast (onlyLeast 1 threeKeys threeKeysLines) 1 threeKeysLines).toOption.map
      Config.keys = some threeKeysRead := by
    rw [loadLeast, loadLeast_eq _ _ threeKeysLines (find_onlyLeast _ _ _) rfl (by decide +kernel)]
    decide +kernel
  obtain ⟨config, accepted, keys⟩ := Data.exists_ok_of_map read
  refine ⟨config, accepted, (buildsKeySet_iff _ _ _ _ _ zeroSecrets accepted).mpr ?_⟩
  rw [keys]
  decide

/-- A section that is declared with no entry is accepted, and makes no key set. -/
theorem not_buildsKeySet :
    ¬ ∀ (lib : Libraries) (raw : Bytes) (identity : NodeIdentity) (env : Env) (config : Config)
      (secrets : Secrets), load lib raw identity env = .ok config →
      (sectionOf config.sections (text "keys")).isSome → BuildsKeySet secrets config.keys := by
  intro builds
  have read : (loadLeast (onlyLeast 1 [("keys", .sequence [])] "  keys: []\n") 1
      "  keys: []\n").toOption.map (fun config =>
        (config.keys, (sectionOf config.sections (text "keys")).isSome)) = some ([], true) := by
    rw [loadLeast, loadLeast_eq _ _ "  keys: []\n" (find_onlyLeast _ _ _) rfl (by decide +kernel)]
    decide +kernel
  obtain ⟨config, accepted, parts⟩ := Data.exists_ok_of_map read
  obtain ⟨keys, declared⟩ := Prod.mk.inj parts
  obtain ⟨_, _, -, -, mints, -⟩ := builds _ _ _ _ _ zeroSecrets accepted declared
  simp [keys] at mints

end SipxClstr.Document
