import SipxClstr.Document.Instant

/-!
# Zones, listeners and membership

The sections that say where a cluster runs: its zones, the addresses its nodes bind, and
the nodes themselves.
-/

namespace SipxClstr.Document

open SipxClstr.Sip Reading

variable (lib : Libraries)

/-- Keys by their spelling. -/
def keysOf (names : List String) : List Text :=
  names.map text

/-- Where these keys stand, of those a mapping writes. -/
def declared (map : Mapping) (names : List Text) (path : Path) : List Path :=
  (names.filter map.has).map path.field

/-! ## Zones -/

def readZone (path : Path) (index : Nat) (item : Value) : Reading (Option Text) :=
  match item.asStr with
  | some (first :: rest) => pure (some (first :: rest))
  | _ =>
      refuse (.new (path.index index) "CC-7" (some (typeOf item)) (text "a non-empty zone name")) none

def readZones (cluster : Mapping) (path : Path) : Reading (List Text) :=
  let here := path.field (text "zones")
  match cluster.get (text "zones") with
  | none => refuse (.new here "CC-7" none (text "a sequence of zone names")) []
  | some value =>
      match value.asSequence with
      | none => refuse (.new here "CC-7" (some (typeOf value)) (text "a sequence of zone names")) []
      | some items => do
          report <|
            if 64 < items.length then
              [.new here "CC-V8" (some (decimal items.length)) (text "at most 64 zones")]
            else
              []
          each (fun _ => readZone here) [] 0 items

/-! ## Listeners -/

/-- Accept only a transport this build serves. -/
def checkTransport (declared : Text) (path : Path) : Reading (Option Text) :=
  if declared ∈ keysOf ["udp", "tcp"] then
    pure (some declared)
  else if declared ∈ keysOf ["tls", "ws", "wss"] then
    refuse (.new path "CC-V10" (some declared)
      (text "udp or tcp; this build cannot serve tls, ws or wss, and will not silently substitute cleartext for a transport that was asked for")) none
  else
    refuse (.new path "CC-V2" (some declared) (text "one of: udp, tcp, tls, ws, wss")) none

/-- Refuse an inline TLS private key without echoing it. -/
def refuseInlineTlsKey (value : Value) (path : Path) : List ConfigError :=
  match value.asMapping with
  | none => []
  | some tls =>
      if tls.has (text "key") then
        [.new (path.field (text "key")) "CC-V9" (some (text "an inline TLS private key"))
          (text "keyRef naming a private key the driver resolves; no secret value appears in the document")]
      else
        []

/-- The same, for a block that may be absent. -/
def refuseTlsOf (map : Mapping) (path : Path) : List ConfigError :=
  match map.get (text "tls") with
  | none => []
  | some tls => refuseInlineTlsKey tls (path.field (text "tls"))

def listenerKeys : List Text :=
  keysOf ["roles", "transport", "bind", "advertise", "connectionLifetime", "maxConnections", "tls"]

/-- `get(name).and_then(as_str)`. -/
def optionalStr (map : Mapping) (name : Text) : Option Text :=
  (map.get name).bind Value.asStr

def readListener (path : Path) (index : Nat) (item : Value) : Reading (Option ListenerSpec) := do
  let here := path.index index
  let some map ← asMapping item here | pure none
  closedWorld lib map listenerKeys here
  ignore (declared map (keysOf ["connectionLifetime", "maxConnections", "tls"]) here)
  report (refuseTlsOf map here)
  let roles ← readRoles (map.get (text "roles")) (here.field (text "roles"))
  let spelledTransport ← requiredStr map (text "transport") here "CC-7"
  let transport ← match spelledTransport with
    | some declared => checkTransport declared (here.field (text "transport"))
    | none => pure none
  let bind ← requiredStr map (text "bind") here "CC-7"
  let advertise := optionalStr map (text "advertise")
  match transport, bind with
  | some transport, some bind => pure (some ⟨roles, transport, bind, advertise⟩)
  | _, _ => pure none

def readListeners (cluster : Mapping) (path : Path) : Reading (List ListenerSpec) :=
  let here := path.field (text "listener")
  match cluster.get (text "listener") with
  | none =>
      refuse (.new here "CC-7" none
        (text "a sequence of listeners; a cluster with none can serve nothing")) []
  | some value =>
      match value.asSequence with
      | none => refuse (.new here "CC-7" (some (typeOf value)) (text "a sequence of listeners")) []
      | some items => each (fun _ => readListener lib here) [] 0 items

/-! ## Membership -/

def memberKeys : List Text :=
  keysOf ["node", "name", "zone", "roles", "rpc", "incarnationSource", "incarnationRef"]

/-- Read a member's endpoint.  A member on the call path must have one, and no other may. -/
def readRpc (map : Mapping) (roles : Roles) (path : Path) : Reading (Option Text) :=
  let here := path.field (text "rpc")
  let ownsFlows := roles.onCallPath
  match map.get (text "rpc") with
  | none =>
      if ownsFlows then
        refuse (.new here "CC-MB5" none
          (text "an advertised host:port; a member on the call path owns flows, and a peer with no endpoint to dial cannot deliver a request toward a client this node owns")) none
      else
        pure none
  | some value =>
      if !ownsFlows then
        refuse (.new here "CC-MB5" (some (text "an advertised endpoint"))
          (text "no rpc key: this member's roles are off the call path, so it owns no flow and no peer dials it")) none
      else
        match value.asStr with
        | none =>
            refuse (.new here "CC-MB6" (some (typeOf value)) (text "a host:port string")) none
        | some spelling =>
            match Node.Advertised.parse spelling with
            | .ok endpoint =>
                if endpoint.port.isSome then
                  pure (some spelling)
                else
                  refuse (.new here "CC-MB6" (some spelling)
                    (text "a host:port; the RPC port is a deployment fact with no default, and a defaulted one is a port the far side has to guess")) none
            | .error why => refuse (.new here "CC-MB6" (some spelling) why.shown) none

def incarnationSources : Text :=
  text "one of: " ++ joined [IncarnationSource.bootSecond.asStr,
    IncarnationSource.persistedCounter.asStr]

/-- The reference, which a persisted counter may not go without. -/
def readIncarnationRef (map : Mapping) (path : Path) (source : IncarnationSource) :
    Reading (IncarnationSource × Option Text) := do
  let reference := optionalStr map (text "incarnationRef")
  report <|
    if source = .persistedCounter ∧ reference = none then
      [.new (path.field (text "incarnationRef")) "CC-MB8" none
        (text "a reference the driver resolves the counter from; a persisted counter with nowhere to persist is a boot-second with extra words")]
    else
      []
  pure (source, reference)

/-- Read `incarnationSource` and `incarnationRef`.  Absent selects the boot second. -/
def readIncarnation (map : Mapping) (path : Path) : Reading (IncarnationSource × Option Text) :=
  match map.get (text "incarnationSource") with
  | none => readIncarnationRef map path .bootSecond
  | some value =>
      match value.asStr.bind IncarnationSource.parse with
      | some source => readIncarnationRef map path source
      | none =>
          refuse (.new (path.field (text "incarnationSource")) "CC-MB8" (some (spelled value))
            incarnationSources) (.bootSecond, none)

/-- The two uniqueness rules a member carries beside its id. -/
def checkMemberIsUnique (members : List MemberSpec) (name rpc : Option Text) (path : Path) :
    List ConfigError :=
  (match name.bind fun declared =>
      (members.find? fun member => member.name = declared).map fun held => (declared, held) with
    | some (declared, held) =>
        [.new (path.field (text "name")) "CC-MB4" (some declared)
          (text "a name not already held by node " ++ decimal held.node)]
    | none => []) ++
  (match rpc.bind fun declared =>
      (members.find? fun member => member.rpc = some declared).map fun held => (declared, held) with
    | some (declared, held) =>
        [.new (path.field (text "rpc")) "CC-MB6" (some declared)
          (text "an endpoint not already advertised by \"" ++ held.name ++ text "\"")]
    | none => [])

/-- Zero is reserved, and an id is held once. -/
def checkMemberId (members : List MemberSpec) (node : Nat) (path : Path) : List ConfigError :=
  (if node = 0 then
    [.new (path.field (text "node")) "CC-I2" (some (text "0"))
      (text "a node id of 1 or greater; 0 is reserved for \"none\"")]
  else
    []) ++
  (match members.find? fun member => member.node = node with
    | some held =>
        [.new (path.field (text "node")) "CC-I2" (some (decimal node))
          (text "an id not already held by \"" ++ held.name ++ text "\"")]
    | none => [])

/-- The largest `u16`. -/
def u16Max : Nat :=
  65535

def readMember (path : Path) (members : List MemberSpec) (index : Nat) (item : Value) :
    Reading (Option MemberSpec) := do
  let here := path.index index
  let some map ← asMapping item here | pure none
  closedWorld lib map memberKeys here
  ignore (declared map (keysOf ["rpc", "incarnationSource", "incarnationRef"]) here)
  let node ← requiredUint map (text "node") here "CC-I1" u16Max
  let name ← requiredStr map (text "name") here "CC-I1"
  let zone ← requiredStr map (text "zone") here "CC-I1"
  let roles ← readRoles (map.get (text "roles")) (here.field (text "roles"))
  checkRoleCombination roles (here.field (text "roles"))
  let rpc ← readRpc map roles here
  let (source, reference) ← readIncarnation map here
  let some node := node | pure none
  report (checkMemberId members node here)
  report (checkMemberIsUnique members name rpc here)
  match name, zone with
  | some name, some zone => pure (some ⟨node, name, zone, roles, rpc, source, reference⟩)
  | _, _ => pure none

/-- Read `membership`.  Absent is legitimate: a node with no entry still starts. -/
def readMembership (cluster : Mapping) (path : Path) : Reading (List MemberSpec) :=
  let here := path.field (text "membership")
  match cluster.get (text "membership") with
  | none => pure []
  | some value =>
      match value.asSequence with
      | none =>
          refuse (.new here "CC-7" (some (typeOf value)) (text "a sequence of membership entries")) []
      | some items => each (readMember lib here) [] 0 items

/-! ## What the identity has a say in -/

/-- The entry for this node is cross-checked, not obeyed. -/
def checkMembershipAgrees (membership : List MemberSpec) (identity : NodeIdentity) (path : Path) :
    List ConfigError :=
  match membership.find? fun member => member.node = identity.node with
  | none => []
  | some entry =>
      let here := path.field (text "membership")
      (if entry.zone = identity.zone then
        []
      else
        [.new here "CC-P3" (some (text "zone \"" ++ entry.zone ++ text "\" in the document"))
          (text "zone \"" ++ identity.zone ++ text "\", which this node was started with")]) ++
      (if entry.roles = identity.roles then
        []
      else
        [.new here "CC-P3" (some (text "roles [" ++ entry.roles.spell ++ text "] in the document"))
          (text "roles [" ++ identity.roles.spell ++ text "], which this node was started with")])

/-- A projected node must hold a listener. -/
def checkProjectionHasAListener (listeners : List ListenerSpec) (identity : NodeIdentity)
    (path : Path) : List ConfigError :=
  if identity.roles = ∅ then
    []
  else if listeners.any fun listener => ¬ Disjoint listener.roles identity.roles then
    []
  else
    [.new (path.field (text "listener")) "CC-P4" (some (text "0 listeners for this node's roles"))
      (text "at least one listener whose roles intersect this node's")]

end SipxClstr.Document
