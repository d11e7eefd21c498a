import SipxClstr.Document.Membership

/-!
# Keys and the shard map

The sections a cluster's nodes share: the key set that records are minted under, and who
accepts writes for each slice of the registration key space.
-/

namespace SipxClstr.Document

open SipxClstr.Sip Reading

variable (lib : Libraries)

/-! ## Keys -/

/-- The ceiling on key entries. -/
def maxKeys : Nat :=
  16

/-- Six keys are a key entry's, and `secret` is recognised to be refused by name. -/
def keyEntryKeys : List Text :=
  keysOf ["id", "algorithm", "secretRef", "verifyFrom", "verifyUntil", "mint", "secret"]

def noInlineSecret (what : Text) : Text :=
  what ++ text " naming a secret the driver resolves; no secret value appears in the document"

def readAlgorithm (map : Mapping) (path : Path) : Reading KeyAlgorithm :=
  match map.get (text "algorithm") with
  | none => pure .chaCha20Poly1305
  | some value =>
      match value.asStr.bind KeyAlgorithm.parse with
      | some algorithm => pure algorithm
      | none =>
          refuse (.new (path.field (text "algorithm")) "CC-KY1" (some (spelled value))
            (text "one of: " ++ joined [KeyAlgorithm.chaCha20Poly1305.asStr,
              KeyAlgorithm.hmacSha256_96.asStr])) .chaCha20Poly1305

def readBool (map : Mapping) (key : Text) (path : Path) : Reading (Option Bool) :=
  match map.get key with
  | none => pure none
  | some value =>
      match value.asBool with
      | some flag => pure (some flag)
      | none => refuse (.new (path.field key) "CC-KY1" (some (typeOf value)) (text "a boolean")) none

/-- A window must open. -/
def checkWindow (verifyFrom verifyUntil : Option Int) (path : Path) : List ConfigError :=
  match verifyFrom, verifyUntil with
  | some opening, some closing =>
      if closing ≤ opening then
        [.new (path.field (text "verifyUntil")) "CC-KY4" (some (text "a window that never opens"))
          (text "a verifyUntil strictly after verifyFrom")]
      else
        []
  | _, _ => []

/-- The entry, when it has everything an entry must have. -/
def keySpec (id : Option Nat) (algorithm : KeyAlgorithm) (secretRef : Option Text)
    (verifyFrom verifyUntil : Option Int) (mint : Bool) : Option KeySpec := do
  let id ← id
  let secretRef ← secretRef
  let verifyFrom ← verifyFrom
  let verifyUntil ← verifyUntil
  some ⟨id, algorithm, secretRef, verifyFrom, verifyUntil, mint⟩

def readKeyEntry (item : Value) (here : Path) : Reading (Option KeySpec) := do
  let some map ← asMapping item here | pure none
  closedWorld lib map keyEntryKeys here
  if map.has (text "secret") then
    refuse (.new (here.field (text "secret")) "CC-V9" (some (text "an inline key secret"))
      (noInlineSecret (text "secretRef"))) none
  else
    let id ← requiredUint map (text "id") here "CC-KY1" u8Max
    let secretRef ← requiredStr map (text "secretRef") here "CC-V9"
    let algorithm ← readAlgorithm map here
    let verifyFrom ← readInstant map (text "verifyFrom") here
    let verifyUntil ← readInstant map (text "verifyUntil") here
    let mint ← readBool map (text "mint") here
    report (checkWindow verifyFrom verifyUntil here)
    pure (keySpec id algorithm secretRef verifyFrom verifyUntil (mint.getD false))

/-- Whether two entries share an id while both windows are open. -/
def KeySpec.overlaps (key entry : KeySpec) : Bool :=
  key.id = entry.id && key.verifyFrom ≤ entry.verifyUntil && entry.verifyFrom ≤ key.verifyUntil

def checkKeyOverlap (keys : List KeySpec) (entry : KeySpec) (here : Path) : List ConfigError :=
  match keys.find? fun key => key.overlaps entry with
  | none => []
  | some existing =>
      [.new (here.field (text "id")) "CC-KY1" (some (decimal entry.id))
        (text "an id whose verify window does not overlap the one already declared for id " ++
          decimal existing.id ++ text " (affinity-token §6)")]

def readKey (path : Path) (keys : List KeySpec) (index : Nat) (item : Value) :
    Reading (Option KeySpec) := do
  let here := path.index index
  let entry ← readKeyEntry lib item here
  match entry with
  | none => pure none
  | some entry =>
      report (checkKeyOverlap keys entry here)
      pure (some entry)

/-- One key mints, of those there are. -/
def checkMinting (keys : List KeySpec) (here : Path) : List ConfigError :=
  let minting := (keys.filter KeySpec.mint).length
  if minting ≠ 1 ∧ keys ≠ [] then
    [.new here "CC-KY5"
      (some (if minting = 0 then text "no key marked mint: true"
        else decimal minting ++ text " keys marked mint: true"))
      (text "exactly one minting key at any configuration version (affinity-token §6)")]
  else
    []

/-- Read `keys`.  Absent is valid: a cluster that mints nothing. -/
def readKeys (cluster : Mapping) (path : Path) : Reading (List KeySpec) :=
  let here := path.field (text "keys")
  match cluster.get (text "keys") with
  | none => pure []
  | some value => do
      ignore [here]
      match value.asSequence with
      | none => refuse (.new here "CC-7" (some (typeOf value)) (text "a sequence of key entries")) []
      | some items => do
          report <|
            if maxKeys < items.length then
              [.new here "CC-V8" (some (decimal items.length))
                (text "at most 16 key entries; a document approaching the ceiling is a document whose rotations are not being retired")]
            else
              []
          let keys ← each (readKey lib here) [] 0 items
          report (checkMinting keys here)
          pure keys

/-! ## The shard map -/

def defaultDrainTimeoutMs : Nat :=
  30000

def minDrainTimeoutMs : Nat :=
  5000

def maxDrainTimeoutMs : Nat :=
  300000

/-- The largest `u64`. -/
def u64Max : Nat :=
  18446744073709551615

/-- A duration in whole seconds with its unit, in milliseconds. -/
def parseSeconds (spelling : Text) : Option Nat := do
  let digits ← stripSuffix 's' spelling
  let seconds ← parseUnsigned u64Max digits
  if seconds * 1000 ≤ u64Max then some (seconds * 1000) else none

def readDrainTimeout (map : Mapping) (path : Path) : Reading Nat :=
  let here := path.field (text "drainTimeout")
  match map.get (text "drainTimeout") with
  | none => pure defaultDrainTimeoutMs
  | some value =>
      match value.asStr.bind parseSeconds with
      | none =>
          refuse (.new here "CC-DS4" (some (spelled value))
            (text "a duration in whole seconds, spelled with its unit — `30s`")) defaultDrainTimeoutMs
      | some declared =>
          if minDrainTimeoutMs ≤ declared ∧ declared ≤ maxDrainTimeoutMs then
            pure declared
          else
            refuse (.new here "CC-DS4" (some (decimal (declared / 1000) ++ text "s"))
              (text "a drain timeout between 5s and 300s; below the floor a drain would expire while an ordinary contended write was still legitimately retrying (location-service §5.1 S10)"))
              defaultDrainTimeoutMs

def readShard (path : Path) (index : Nat) (item : Value) : Reading (Option ShardSpec) := do
  let here := path.index index
  let some entry ← asMapping item here | pure none
  closedWorld lib entry (keysOf ["id", "owner"]) here
  let id ← requiredUint entry (text "id") here "CC-I1" u16Max
  let owner ← requiredStr entry (text "owner") here "CC-SM2"
  match id, owner with
  | some id, some owner =>
      if id = 0 then
        refuse (.new (here.field (text "id")) "CC-I2" (some (text "0"))
          (text "a shard id of 1 or greater; 0 is reserved for \"none\"")) none
      else
        pure (some ⟨id, owner⟩)
  | _, _ => pure none

/-- The ids are `1..=N` with no gap, `N` the length of the list. -/
def checkShards (shards : List ShardSpec) (here : Path) : List ConfigError :=
  let missing := ((List.range (min shards.length u16Max)).map Nat.succ).filter fun id =>
    ¬ shards.any fun shard => shard.id = id
  if shards ≠ [] ∧ missing ≠ [] then
    [.new here "CC-SM1" (some (text "no owner for shard " ++ joined (missing.map decimal)))
      (text "a total map: ids 1..=N with no gap and no repeat, where N is the length of the list")]
  else
    []

def readShards (map : Mapping) (path : Path) : Reading (List ShardSpec) :=
  let here := path.field (text "shards")
  match map.get (text "shards") with
  | none =>
      refuse (.new here "CC-SM1" none
        (text "a shard list; the list is the shard space, and a shardMap without one assigns nothing")) []
  | some value =>
      match value.asSequence with
      | none => refuse (.new here "CC-SM1" (some (typeOf value)) (text "a sequence of shards")) []
      | some items => do
          let shards ← each (fun _ => readShard lib here) [] 0 items
          report (checkShards shards here)
          pure shards

def readShardMap (cluster : Mapping) (path : Path) : Reading (Option ShardMapSpec) :=
  let here := path.field (text "shardMap")
  match cluster.get (text "shardMap") with
  | none => pure none
  | some value => do
      ignore [here]
      let some map ← asMapping value here | pure none
      closedWorld lib map (keysOf ["drainTimeout", "shards"]) here
      let drainTimeoutMs ← readDrainTimeout map here
      let shards ← readShards lib map here
      pure (some ⟨drainTimeoutMs, shards⟩)

/-- An owner is a member, and runs the registrar. -/
def checkShardOwner (membership : List MemberSpec) (shard : ShardSpec) (here : Path) :
    List ConfigError :=
  match membership.find? fun member => member.name = shard.owner with
  | none =>
      [.new here "CC-V5" (some shard.owner)
        (text "a name declared in cluster.membership; a shard owned by nobody is a slice of the registration key space with nowhere to write")]
  | some owner =>
      if .registrar ∈ owner.roles then
        []
      else
        [.new here "CC-SM3" (some shard.owner) (text "a member whose roles include registrar")]

def checkShardOwners (shardMap : Option ShardMapSpec) (membership : List MemberSpec) (path : Path) :
    List ConfigError :=
  match shardMap with
  | none => []
  | some shardMap =>
      let here := (path.field (text "shardMap")).field (text "shards")
      (shardMap.shards.mapIdx fun index shard =>
        checkShardOwner membership shard ((here.index index).field (text "owner"))).flatten

end SipxClstr.Document
