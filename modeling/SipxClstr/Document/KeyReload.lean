import SipxClstr.Document.KeySets
import SipxClstr.Document.Reload

/-!
# Keys from one version to the next

What a reload leaves of the records minted under the outgoing key, and what the nodes still
on the active version make of those minted under the incoming one.
-/

namespace SipxClstr.Document

open SipxClstr.Sip SipxClstr.Affinity Reading

variable {lib : Libraries}

/-! ## Runs -/

/-- The configurations a node runs: one it started on, or one an accepted reload brought. -/
inductive Active (lib : Libraries) : Config → Prop
  | loaded {raw : Bytes} {identity : NodeIdentity} {env : Env} {config : Config} :
      load lib raw identity env = .ok config → Active lib config
  | reloaded {active next : Config} {raw : Bytes} {identity : NodeIdentity} {env : Env}
      {plan : ReloadPlan} : Active lib active →
      reload lib active raw identity env = .ok (next, plan) → Active lib next

/-- An accepted reload accepts a document that loads, and that nothing speaks against. -/
theorem reload_accepted {active next : Config} {raw : Bytes} {identity : NodeIdentity} {env : Env}
    {plan : ReloadPlan} (accepted : reload lib active raw identity env = .ok (next, plan)) :
    load lib raw identity env = .ok next ∧ transitionErrors active next = [] ∧
      plan = planOf active next := by
  unfold reload at accepted
  split at accepted
  · simp at accepted
  · next loaded isLoaded =>
      unfold judge at accepted
      split at accepted
      · next clean =>
          obtain ⟨rfl, rfl⟩ := Prod.mk.inj (Except.ok.inj accepted)
          exact ⟨isLoaded, clean, rfl⟩
      · simp at accepted

theorem Active.acceptedKeys {config : Config} (active : Active lib config) :
    AcceptedKeys config.keys := by
  cases active with
  | loaded accepted => exact acceptedKeys_of_load accepted
  | reloaded _ accepted => exact acceptedKeys_of_load (reload_accepted accepted).1

/-! ## Records across versions -/

namespace KeySpec

/-- The same construction and the same secret. -/
def SameMeaning (key other : KeySpec) : Prop :=
  other.algorithm = key.algorithm ∧ other.secretRef = key.secretRef

/-- The same id, the same construction and the same secret. -/
def SameKey (key other : KeySpec) : Prop :=
  other.id = key.id ∧ key.SameMeaning other

/-- The window of the one lies within the other's. -/
def Within (key other : KeySpec) : Prop :=
  other.verifyFrom ≤ key.verifyFrom ∧ key.verifyUntil ≤ other.verifyUntil

def OpenAt (key : KeySpec) (now : Int) : Prop :=
  key.verifyFrom ≤ now ∧ now ≤ key.verifyUntil

/-- A record minted under a key reads under a set of entries: whatever secrets the
references resolve to, an entry that is open for its id while the key's own window is open
selects its construction and its secret. -/
def ReadsUnder (key : KeySpec) (keys : List KeySpec) : Prop :=
  ∀ (secrets : Secrets) (now : Int), key.OpenAt now → ∀ entry ∈ keys, entry.id = key.id →
    entry.OpenAt now → entry.algorithm = key.algorithm ∧
      secrets entry.secretRef = secrets key.secretRef

/-- Every entry of a key's id whose window meets the key's own is of its construction and
its secret. -/
def KeptBy (key : KeySpec) (keys : List KeySpec) : Prop :=
  ∀ entry ∈ keys, key.overlaps entry = true → key.SameMeaning entry

instance (key other : KeySpec) : Decidable (key.SameMeaning other) :=
  inferInstanceAs (Decidable (_ ∧ _))

instance (key other : KeySpec) : Decidable (key.SameKey other) :=
  inferInstanceAs (Decidable (_ ∧ _))

instance (key other : KeySpec) : Decidable (key.Within other) :=
  inferInstanceAs (Decidable (_ ∧ _))

instance (key : KeySpec) (keys : List KeySpec) : Decidable (key.KeptBy keys) :=
  inferInstanceAs (Decidable (∀ entry ∈ keys, key.overlaps entry = true → _))

/-- The entry that a reload compares a key with: the first of its id. -/
def comparedWith (key : KeySpec) (keys : List KeySpec) : Option KeySpec :=
  keys.find? fun entry => entry.id = key.id

end KeySpec

/-- A reload strands no live record: the outgoing key is held on with a window that contains
its own, the incoming key was held before, its window is as wide as a record lives, and
either version reads what the other mints. -/
structure StrandsNothing (active next : Config) : Prop where
  held : ∀ key ∈ active.keys, key.mint → ∃ other ∈ next.keys, key.SameKey other ∧ key.Within other
  distributed : ∀ key ∈ next.keys, key.mint → ∃ other ∈ active.keys, key.SameKey other
  wide : ∀ key ∈ next.keys, key.mint → overlapWindow next ≤ key.verifyUntil - key.verifyFrom
  forward : ∀ key ∈ active.keys, key.mint → key.ReadsUnder next.keys
  backward : ∀ key ∈ next.keys, key.mint → key.ReadsUnder active.keys

/-- No id of a mint key changes its meaning. -/
structure KeepsMeaning (active next : Config) : Prop where
  /-- The outgoing key is compared with an entry that means the same and opens no later; or with
  one that opens when the key has closed, and another entry of the id holds the key on. -/
  outgoing : ∀ key ∈ active.keys, key.mint → ∀ first ∈ key.comparedWith next.keys,
    (key.SameMeaning first ∧ first.verifyFrom ≤ key.verifyFrom) ∨
      (key.verifyUntil < first.verifyFrom ∧ ∃ other ∈ next.keys, key.SameKey other ∧ key.Within other)
  /-- The entry found for the incoming key means the same; or their windows do not meet, and
  another entry of the id does. -/
  incoming : ∀ key ∈ next.keys, key.mint → ∀ first ∈ key.comparedWith active.keys,
    key.SameMeaning first ∨
      (key.overlaps first = false ∧ ∃ other ∈ active.keys, key.SameKey other)
  /-- An active entry of the id whose window meets the incoming key's means the same. -/
  kept : ∀ key ∈ next.keys, key.mint → key.KeptBy active.keys

namespace KeySpec

theorem overlaps_iff {key entry : KeySpec} : key.overlaps entry = true ↔
    key.id = entry.id ∧ key.verifyFrom ≤ entry.verifyUntil ∧ entry.verifyFrom ≤ key.verifyUntil := by
  simp only [overlaps, Bool.and_eq_true, decide_eq_true_eq, and_assoc]

/-- Windows that open meet when there is a time both are open. -/
theorem overlaps_iff_exists {key entry : KeySpec} (opens : key.verifyFrom < key.verifyUntil)
    (opens' : entry.verifyFrom < entry.verifyUntil) :
    key.overlaps entry = true ↔ entry.id = key.id ∧ ∃ now, key.OpenAt now ∧ entry.OpenAt now := by
  rw [overlaps_iff]
  constructor
  · rintro ⟨sameId, after, before⟩
    refine ⟨sameId.symm, max key.verifyFrom entry.verifyFrom, ⟨?_, ?_⟩, ?_, ?_⟩ <;> omega
  · rintro ⟨sameId, now, ⟨after, before⟩, after', before'⟩
    exact ⟨sameId.symm, by omega, by omega⟩

/-- Two references resolve alike under every resolution when they are the same. -/
theorem secretRef_eq_of_forall {reference other : Text}
    (same : ∀ secrets : Secrets, secrets reference = secrets other) : reference = other := by
  by_contra differs
  have resolved := same fun found =>
    if found = reference then ⟨List.replicate 32 0, rfl⟩ else ⟨List.replicate 32 1, rfl⟩
  rw [if_pos rfl, if_neg (Ne.symm differs)] at resolved
  simp at resolved

/-- A record reads under a set of entries when the entries keep the key's meaning. -/
theorem readsUnder_iff {key : KeySpec} {keys : List KeySpec}
    (opens : key.verifyFrom < key.verifyUntil)
    (allOpen : ∀ entry ∈ keys, entry.verifyFrom < entry.verifyUntil) :
    key.ReadsUnder keys ↔ key.KeptBy keys := by
  constructor
  · intro reads entry member overlaps
    obtain ⟨sameId, now, isOpen, isOpen'⟩ :=
      (overlaps_iff_exists opens (allOpen entry member)).mp overlaps
    constructor
    · exact (reads (fun _ => ⟨List.replicate 32 0, rfl⟩) now isOpen entry member sameId isOpen').1
    · apply secretRef_eq_of_forall
      intro secrets
      exact (reads secrets now isOpen entry member sameId isOpen').2
  · intro kept secrets now isOpen entry member sameId isOpen'
    have overlaps := (overlaps_iff_exists opens (allOpen entry member)).mpr
      ⟨sameId, now, isOpen, isOpen'⟩
    obtain ⟨algorithm, secretRef⟩ := kept entry member overlaps
    exact ⟨algorithm, by rw [secretRef]⟩

theorem comparedWith_eq_some {key first : KeySpec} {keys : List KeySpec}
    (compared : first ∈ key.comparedWith keys) : first ∈ keys ∧ first.id = key.id := by
  refine ⟨List.mem_of_find?_eq_some compared, ?_⟩
  simpa using List.find?_some compared

/-- What meets a key is the entry that holds it on. -/
theorem eq_of_within {key other entry : KeySpec} {keys : List KeySpec} (accepted : AcceptedKeys keys)
    (isOther : other ∈ keys) (isEntry : entry ∈ keys) (sameId : other.id = key.id)
    (within : key.Within other) (overlaps : key.overlaps entry = true) : entry = other := by
  apply accepted.eq_of_overlaps isOther isEntry
  obtain ⟨sameId', after, before⟩ := overlaps_iff.mp overlaps
  obtain ⟨opens, closes⟩ := within
  exact overlaps_iff.mpr ⟨sameId'.symm.trans sameId.symm, by omega, by omega⟩

end KeySpec

/-! ## What an accepted reload has checked -/

theorem findKey_eq_none {keys : List KeySpec} {wanted : KeySpec → Bool}
    (none : findKey keys wanted = none) : ∀ key ∈ keys, wanted key = false := by
  intro key member
  obtain ⟨place, bound, rfl⟩ := List.getElem_of_mem member
  have unwanted := List.find?_eq_none.mp none (place, keys[place])
    (List.mem_mapIdx.mpr ⟨place, bound, rfl⟩)
  simpa using unwanted

theorem findKey_eq_some {keys : List KeySpec} {wanted : KeySpec → Bool} {index : Nat} {key : KeySpec}
    (found : findKey keys wanted = some (index, key)) : key ∈ keys ∧ wanted key = true := by
  constructor
  · obtain ⟨place, bound, same⟩ := List.mem_mapIdx.mp (List.mem_of_find?_eq_some found)
    obtain ⟨-, rfl⟩ := Prod.mk.inj same
    exact List.getElem_mem bound
  · have isWanted := List.find?_some found
    simpa using isWanted

theorem map_snd_findKey {keys : List KeySpec} {wanted : KeySpec → Bool} :
    (findKey keys wanted).map Prod.snd = keys.find? wanted := by
  have second : (keys.mapIdx fun index key => (index, key)).map Prod.snd = keys := by
    apply List.ext_getElem?
    intro place
    simp [List.getElem?_mapIdx]
  conv_rhs => rw [← second]
  rw [List.find?_map]
  rfl

/-- Where one key mints, two keys that mint are one. -/
theorem mint_unique {keys : List KeySpec} (accepted : AcceptedKeys keys) {key other : KeySpec}
    (isKey : key ∈ keys) (isOther : other ∈ keys) (mints : key.mint) (mints' : other.mint) :
    key = other := by
  have one := accepted.oneMints (List.ne_nil_of_mem isKey)
  obtain ⟨only, isOnly⟩ := List.length_eq_one_iff.mp one
  have first : key ∈ keys.filter KeySpec.mint := List.mem_filter.mpr ⟨isKey, mints⟩
  have second : other ∈ keys.filter KeySpec.mint := List.mem_filter.mpr ⟨isOther, mints'⟩
  rw [isOnly, List.mem_singleton] at first second
  rw [first, second]

/-- The incoming mint key's window is as wide as a record lives. -/
theorem wide_of_checkMintWindow {next : Config} (accepted : AcceptedKeys next.keys)
    (clean : checkMintWindow next = []) {key : KeySpec} (isKey : key ∈ next.keys) (mints : key.mint) :
    overlapWindow next ≤ key.verifyUntil - key.verifyFrom := by
  unfold checkMintWindow at clean
  split at clean
  · next none =>
      have idle := findKey_eq_none none key isKey
      simp [mints] at idle
  · next index minting found =>
      obtain ⟨isMinting, mints'⟩ := findKey_eq_some found
      obtain rfl := mint_unique accepted isKey isMinting mints mints'
      split at clean
      · simp at clean
      · next wide => exact not_lt.mp wide

/-- The incoming mint key's id is found among the active entries. -/
theorem exists_compared_incoming {active next : Config} (accepted : AcceptedKeys next.keys)
    (clean : checkDistributed active next = []) {key : KeySpec} (isKey : key ∈ next.keys)
    (mints : key.mint) : ∃ first, first ∈ key.comparedWith active.keys := by
  unfold checkDistributed at clean
  split at clean
  · next none =>
      have idle := findKey_eq_none none key isKey
      simp [mints] at idle
  · next index minting found =>
      obtain ⟨isMinting, mints'⟩ := findKey_eq_some found
      obtain rfl := mint_unique accepted isKey isMinting mints mints'
      split at clean
      · next held =>
          obtain ⟨first, isFirst, sameId⟩ := List.any_eq_true.mp held
          exact Option.isSome_iff_exists.mp (List.find?_isSome.mpr ⟨first, isFirst, sameId⟩)
      · simp at clean

/-- The outgoing mint key's id is found among the incoming entries, open as long. -/
theorem exists_compared_outgoing {active next : Config} (accepted : AcceptedKeys active.keys)
    (clean : checkOutgoing active next = []) {key : KeySpec} (isKey : key ∈ active.keys)
    (mints : key.mint) :
    ∃ first, first ∈ key.comparedWith next.keys ∧ key.verifyUntil ≤ first.verifyUntil := by
  unfold checkOutgoing at clean
  split at clean
  · next none => exact absurd mints (List.find?_eq_none.mp none key isKey)
  · next outgoing found =>
      obtain rfl := mint_unique accepted isKey (List.mem_of_find?_eq_some found) mints
        (List.find?_some found)
      split at clean
      · simp at clean
      · next index first isFirst =>
          refine ⟨first, ?_, ?_⟩
          · rw [Option.mem_def, KeySpec.comparedWith, ← map_snd_findKey, isFirst, Option.map_some]
          · split at clean
            · simp at clean
            · next lasts => exact not_lt.mp lasts

section Outgoing

variable {active next : Config} {key first : KeySpec}

/-- The entry that the outgoing key is compared with holds it on, where it meets the key at
all: what holds the key on meets what meets the key, and two that meet are one. -/
theorem held_iff (after : AcceptedKeys next.keys) (opens : key.verifyFrom < key.verifyUntil)
    (compared : first ∈ key.comparedWith next.keys) (lasts : key.verifyUntil ≤ first.verifyUntil) :
    ((∃ other ∈ next.keys, key.SameKey other ∧ key.Within other) ∧ key.KeptBy next.keys) ↔
      (key.SameMeaning first ∧ first.verifyFrom ≤ key.verifyFrom) ∨
        (key.verifyUntil < first.verifyFrom ∧
          ∃ other ∈ next.keys, key.SameKey other ∧ key.Within other) := by
  obtain ⟨isFirst, sameId⟩ := KeySpec.comparedWith_eq_some compared
  constructor
  · rintro ⟨⟨other, isOther, same, within⟩, kept⟩
    rcases lt_or_ge key.verifyUntil first.verifyFrom with later | meets
    · exact .inr ⟨later, other, isOther, same, within⟩
    · have overlaps : key.overlaps first = true :=
        KeySpec.overlaps_iff.mpr ⟨sameId.symm, by omega, meets⟩
      obtain rfl := KeySpec.eq_of_within after isOther isFirst same.1 within overlaps
      exact .inl ⟨same.2, within.1⟩
  · rintro (⟨same, early⟩ | ⟨later, other, isOther, same, within⟩)
    · refine ⟨⟨first, isFirst, ⟨sameId, same⟩, early, lasts⟩, fun entry isEntry overlaps => ?_⟩
      rw [KeySpec.eq_of_within after isFirst isEntry sameId ⟨early, lasts⟩ overlaps]
      exact same
    · refine ⟨⟨other, isOther, same, within⟩, fun entry isEntry overlaps => ?_⟩
      rw [KeySpec.eq_of_within after isOther isEntry same.1 within overlaps]
      exact same.2

end Outgoing

/-- For every configuration a node runs and every document it accepts as a reload, the
reload strands no live record exactly when no id of a mint key changes its meaning. -/
theorem strandsNothing_iff (lib : Libraries) (active next : Config) (raw : Bytes)
    (identity : NodeIdentity) (env : Env) (plan : ReloadPlan) (running : Active lib active)
    (accepted : reload lib active raw identity env = .ok (next, plan)) :
    StrandsNothing active next ↔ KeepsMeaning active next := by
  obtain ⟨loaded, clean, -⟩ := reload_accepted accepted
  have before := running.acceptedKeys
  have after := acceptedKeys_of_load loaded
  simp only [transitionErrors, checkKeyTransition, List.append_eq_nil_iff] at clean
  have wide : ∀ key ∈ next.keys, key.mint → overlapWindow next ≤ key.verifyUntil - key.verifyFrom :=
    fun key isKey mints => wide_of_checkMintWindow after clean.2.1.2 isKey mints
  have forward : ∀ key ∈ active.keys, key.ReadsUnder next.keys ↔ key.KeptBy next.keys :=
    fun key isKey => KeySpec.readsUnder_iff (before.opens key isKey) after.opens
  have backward : ∀ key ∈ next.keys, key.ReadsUnder active.keys ↔ key.KeptBy active.keys :=
    fun key isKey => KeySpec.readsUnder_iff (after.opens key isKey) before.opens
  constructor
  · intro strands
    constructor
    · intro key isKey mints first compared
      obtain ⟨found, isFound, lasts⟩ := exists_compared_outgoing before clean.2.2 isKey mints
      obtain rfl := Option.some.inj (isFound.symm.trans compared)
      exact (held_iff after (before.opens key isKey) compared lasts).mp
        ⟨strands.held key isKey mints, (forward key isKey).mp (strands.forward key isKey mints)⟩
    · intro key isKey mints first compared
      obtain ⟨isFirst, sameId⟩ := KeySpec.comparedWith_eq_some compared
      have kept := (backward key isKey).mp (strands.backward key isKey mints)
      cases overlaps : key.overlaps first with
      | true => exact .inl (kept first isFirst overlaps)
      | false => exact .inr ⟨rfl, strands.distributed key isKey mints⟩
    · intro key isKey mints
      exact (backward key isKey).mp (strands.backward key isKey mints)
  · intro keeps
    have held : ∀ key ∈ active.keys, key.mint →
        (∃ other ∈ next.keys, key.SameKey other ∧ key.Within other) ∧ key.KeptBy next.keys := by
      intro key isKey mints
      obtain ⟨first, compared, lasts⟩ := exists_compared_outgoing before clean.2.2 isKey mints
      exact (held_iff after (before.opens key isKey) compared lasts).mpr
        (keeps.outgoing key isKey mints first compared)
    constructor
    · exact fun key isKey mints => (held key isKey mints).1
    · intro key isKey mints
      obtain ⟨first, compared⟩ := exists_compared_incoming after clean.2.1.1 isKey mints
      obtain ⟨isFirst, sameId⟩ := KeySpec.comparedWith_eq_some compared
      rcases keeps.incoming key isKey mints first compared with same | ⟨-, known⟩
      · exact ⟨first, isFirst, sameId, same⟩
      · exact known
    · exact wide
    · exact fun key isKey mints => (forward key isKey).mpr (held key isKey mints).2
    · exact fun key isKey mints => (backward key isKey).mpr (keeps.kept key isKey mints)

/-- One key of the year 2026, that names this secret. -/
def keyNaming (reference : String) : List (String × Value) :=
  [("keys", .sequence [keyItem 7 "2026-01-01T00:00:00Z" "2027-01-01T00:00:00Z" true reference])]

def oneKeyLines : String :=
  "  keys:\n  - id: 7\n    verifyFrom: 2026-01-01T00:00:00Z\n    verifyUntil: 2027-01-01T00:00:00Z\n    mint: true\n    secretRef: k\n"

/-- The same key, naming another secret. -/
def otherKeyLines : String :=
  "  keys:\n  - id: 7\n    verifyFrom: 2026-01-01T00:00:00Z\n    verifyUntil: 2027-01-01T00:00:00Z\n    mint: true\n    secretRef: other\n"

/-- A first version, and a second in which the id names another secret. -/
abbrev otherKeyVersions : List (Text × Value) :=
  onlyLeast 1 (keyNaming "k") oneKeyLines ++ onlyLeast 2 (keyNaming "other") otherKeyLines

/-- The key as it is read. -/
def keyRead (reference : String) : KeySpec :=
  ⟨7, .chaCha20Poly1305, text reference, 1767225600, 1798761600, true⟩

/-- The three keys when the second has taken over. -/
def flippedKeys : List (String × Value) :=
  [("keys", .sequence [keyItem 7 "2026-01-01T00:00:00Z" "2027-01-01T00:00:00Z" false "k",
    keyItem 8 "2026-01-01T00:00:00Z" "2028-01-01T00:00:00Z" true "l",
    keyItem 7 "2028-01-01T00:00:00Z" "2029-01-01T00:00:00Z" false "m"])]

def flippedKeysLines : String :=
  "  keys:\n  - id: 7\n    verifyFrom: 2026-01-01T00:00:00Z\n    verifyUntil: 2027-01-01T00:00:00Z\n    mint: false\n    secretRef: k\n  - id: 8\n    verifyFrom: 2026-01-01T00:00:00Z\n    verifyUntil: 2028-01-01T00:00:00Z\n    mint: true\n    secretRef: l\n  - id: 7\n    verifyFrom: 2028-01-01T00:00:00Z\n    verifyUntil: 2029-01-01T00:00:00Z\n    mint: false\n    secretRef: m\n"

def flippedKeysRead : List KeySpec :=
  [⟨7, .chaCha20Poly1305, text "k", 1767225600, 1798761600, false⟩,
    ⟨8, .chaCha20Poly1305, text "l", 1767225600, 1830297600, true⟩,
    ⟨7, .chaCha20Poly1305, text "m", 1830297600, 1861920000, false⟩]

/-- A first version, and a second that flips which key mints. -/
abbrev flippedVersions : List (Text × Value) :=
  onlyLeast 1 threeKeys threeKeysLines ++ onlyLeast 2 flippedKeys flippedKeysLines

theorem find_first (version version' : UInt64) (more more' : List (String × Value))
    (lines lines' : String) :
    (onlyLeast version more lines ++ onlyLeast version' more' lines').find?
        (fun entry => entry.1 = leastText version lines) =
      some (leastText version lines, leastDocument version more) := by
  simp [onlyLeast]

theorem find_second {version version' : UInt64} {more more' : List (String × Value)}
    {lines lines' : String} (differs : leastText version lines ≠ leastText version' lines') :
    (onlyLeast version more lines ++ onlyLeast version' more' lines').find?
        (fun entry => entry.1 = leastText version' lines') =
      some (leastText version' lines', leastDocument version' more') := by
  simp [onlyLeast, differs]

set_option maxRecDepth 8000 in
theorem strandsNothing_flipped : ∃ active next plan,
    reloadLeast flippedVersions 1 threeKeysLines 2 flippedKeysLines = .ok (active, next, plan) ∧
      StrandsNothing active next := by
  have read : (reloadLeast flippedVersions 1 threeKeysLines 2 flippedKeysLines).toOption.map
      (fun found => (found.1.keys, found.2.1.keys)) = some (threeKeysRead, flippedKeysRead) := by
    rw [reloadLeast_eq
      (loadLeast_eq 1 _ threeKeysLines (find_first _ _ _ _ _ _) rfl (by decide +kernel))
      (loadLeast_eq 2 _ flippedKeysLines (find_second (by decide +kernel)) rfl (by decide +kernel))]
    decide +kernel
  obtain ⟨⟨active, next, plan⟩, reloads, keys⟩ := Data.exists_ok_of_map read
  obtain ⟨before, after⟩ := Prod.mk.inj keys
  obtain ⟨loaded, accepted⟩ := reloadLeast_eq_ok reloads
  refine ⟨active, next, plan, reloads,
    (strandsNothing_iff _ _ _ _ _ _ _ (.loaded loaded) accepted).mpr ?_⟩
  dsimp only at before after
  constructor <;> rw [before, after] <;> decide +kernel

set_option maxRecDepth 4000 in
/-- A reload that lets the minting id name another secret is accepted, and the records minted
under the active version are read under that secret. -/
theorem not_strandsNothing :
    ¬ ∀ (lib : Libraries) (active next : Config) (raw : Bytes) (identity : NodeIdentity) (env : Env)
      (plan : ReloadPlan), Active lib active →
      reload lib active raw identity env = .ok (next, plan) → StrandsNothing active next := by
  intro strands
  have read : (reloadLeast otherKeyVersions 1 oneKeyLines 2 otherKeyLines).toOption.map (fun found =>
      (found.1.keys, found.2.1.keys)) = some ([keyRead "k"], [keyRead "other"]) := by
    rw [reloadLeast_eq
      (loadLeast_eq 1 _ oneKeyLines (find_first _ _ _ _ _ _) rfl (by decide +kernel))
      (loadLeast_eq 2 _ otherKeyLines (find_second (by decide +kernel)) rfl (by decide +kernel))]
    decide +kernel
  obtain ⟨⟨active, next, plan⟩, reloads, keys⟩ := Data.exists_ok_of_map read
  obtain ⟨before, after⟩ := Prod.mk.inj keys
  obtain ⟨loaded, accepted⟩ := reloadLeast_eq_ok reloads
  have held := (strands _ _ _ _ _ _ _ (.loaded loaded) accepted).held
  dsimp only at before after
  rw [before, after] at held
  revert held
  decide +kernel

end SipxClstr.Document
