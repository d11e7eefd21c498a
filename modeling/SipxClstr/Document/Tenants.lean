import SipxClstr.Document.Keys

/-!
# Stores, tenants and bounds

Where registrations live, the tenants and their policies, and the bounds on a node.
-/

namespace SipxClstr.Document

open SipxClstr.Sip Reading

variable (lib : Libraries)

/-! ## The location store -/

/-- What is wrong with a store that needs a reference and has none. -/
def checkDsnRef (backend : Text) (dsnRef : Option Text) (here : Path) : List ConfigError :=
  if backend ≠ text "memory" ∧ dsnRef = none then
    [.new (here.field (text "dsnRef")) "CC-V9" none
      (text "a dsnRef; a store that is not in-process needs one")]
  else
    []

def readStoreOf (map : Mapping) (here : Path) : Reading (Option LocationStoreSpec) := do
  let backend ← requiredStr map (text "backend") here "CC-7"
  match backend with
  | none => pure none
  | some backend =>
      let dsnRef := optionalStr map (text "dsnRef")
      report (checkDsnRef backend dsnRef here)
      pure (some ⟨backend, dsnRef⟩)

def readLocationStore (cluster : Mapping) (path : Path) : Reading (Option LocationStoreSpec) :=
  let here := path.field (text "locationStore")
  match cluster.get (text "locationStore") with
  | none => pure none
  | some value => do
      let some map ← asMapping value here | pure none
      closedWorld lib map (keysOf ["backend", "dsnRef", "ha"]) here
      ignore (declared map (keysOf ["ha"]) here)
      report <|
        if map.has (text "dsn") then
          [.new (here.field (text "dsn")) "CC-V9" (some (text "an inline DSN"))
            (noInlineSecret (text "dsnRef"))]
        else
          []
      readStoreOf map here

/-! ## Tenants -/

/-- A realm and a reference; an inline nonce secret is refused by name. -/
def readAuthOf (block : Mapping) (here : Path) : Reading (Option AuthSpec) := do
  let realm ← requiredStr block (text "realm") here "CC-RA-A3"
  let secretRef ← requiredStr block (text "secretRef") here "CC-V9"
  if block.has (text "secret") then
    refuse (.new (here.field (text "secret")) "CC-V9" (some (text "an inline nonce secret"))
      (noInlineSecret (text "secretRef"))) none
  else
    match realm, secretRef with
    | some realm, some secretRef => pure (some ⟨realm, secretRef⟩)
    | _, _ => pure none

/-- Parse a tenant's `auth` block.  A block that carries credentials is refused. -/
def readAuth (map : Mapping) (path : Path) : Reading (Option AuthSpec) :=
  let here := path.field (text "auth")
  match map.get (text "auth") with
  | none => pure none
  | some value => do
      let some block ← asMapping value here | pure none
      closedWorld lib block (keysOf ["realm", "secretRef", "algorithm"]) here
      if block.has (text "credentials") || block.has (text "users") then
        refuse (.new (here.field (text "credentials")) "CC-V9"
          (some (text "credentials declared in the document"))
          (text "no credentials here — where they come from is RG-7's, and a document that tries to supply them cannot be honoured yet")) none
      else
        readAuthOf block here

/-- A duration in seconds, or the default. -/
def readExpiry (block : Mapping) (key : Text) (here : Path) (default : Nat) : Reading Nat :=
  match block.get key with
  | none => pure default
  | some found =>
      match found.asU64 with
      | none =>
          refuse (.new (here.field key) "CC-S2" (some (typeOf found)) (text "a duration in seconds"))
            default
      | some seconds =>
          if seconds ≤ u32Max then
            pure seconds
          else
            refuse (.new (here.field key) "CC-S2" (some (typeOf found)) (text "a duration in seconds"))
              default

/-- The quota, which is at least one. -/
def readQuota (map : Mapping) (path : Path) (default : Nat) : Reading Nat :=
  let here := path.field (text "maxBindingsPerAor")
  match map.get (text "maxBindingsPerAor") with
  | none => pure default
  | some quota =>
      match quota.asU64 with
      | some 0 =>
          refuse (.new here "CC-S2" (some (text "0"))
            (text "at least 1; a quota of zero is a tenant that can register nothing, which is a disabled tenant spelled as a limit")) default
      | some value => pure value
      | none => refuse (.new here "CC-S2" (some (typeOf quota)) (text "a positive integer")) default

/-- The defaults, as far as the block says nothing else.  A minimum above the maximum is
refused. -/
def readExpiryBlock (block : Mapping) (here : Path) (policy : TenantPolicySpec) :
    Reading TenantPolicySpec := do
  closedWorld lib block (keysOf ["default", "min", "max"]) here
  let defaultExpires ← readExpiry block (text "default") here policy.defaultExpires
  let minExpires ← readExpiry block (text "min") here policy.minExpires
  let maxExpires ← readExpiry block (text "max") here policy.maxExpires
  report <|
    if maxExpires < minExpires then
      [.new here "CC-S2" (some (text "min " ++ decimal minExpires ++ text " above max " ++
          decimal maxExpires))
        (text "a minimum at or below the maximum; which of the two was meant is not this schema's to guess")]
    else
      []
  pure ⟨defaultExpires, minExpires, maxExpires, policy.maxBindingsPerAor⟩

def readTenantPolicy (map : Mapping) (path : Path) : Reading TenantPolicySpec := do
  let quota ← readQuota map path TenantPolicySpec.default.maxBindingsPerAor
  let policy := { TenantPolicySpec.default with maxBindingsPerAor := quota }
  match map.get (text "expiry") with
  | none => pure policy
  | some value =>
      let here := path.field (text "expiry")
      let some block ← asMapping value here | pure policy
      readExpiryBlock lib block here policy

/-- `get("domains").and_then(as_sequence)`, of which the strings are kept. -/
def readDomains (map : Mapping) : List Text :=
  (((map.get (text "domains")).bind Value.asSequence).getD []).filterMap Value.asStr

/-- Zero is reserved, and an id is held once. -/
def checkTenantId (tenants : List TenantSpec) (id : Nat) (here : Path) : List ConfigError :=
  (if id = 0 then
    [.new (here.field (text "id")) "CC-I2" (some (text "0"))
      (text "a tenant id of 1 or greater; 0 is reserved for \"none/system\"")]
  else
    []) ++
  (match tenants.find? fun tenant => tenant.id = id with
    | some existing =>
        [.new (here.field (text "id")) "CC-I2" (some (decimal id))
          (text "an id not already held by \"" ++ existing.name ++ text "\"")]
    | none => [])

def checkTenantName (tenants : List TenantSpec) (name : Text) (here : Path) : List ConfigError :=
  match tenants.find? fun tenant => tenant.name = name with
  | some existing =>
      [.new (here.field (text "name")) "CC-I2" (some name)
        (text "a name not already held by id " ++ decimal existing.id)]
  | none => []

def tenantKeys : List Text :=
  keysOf ["name", "id", "domains", "auth", "expiry", "maxBindingsPerAor"]

def readTenant (path : Path) (tenants : List TenantSpec) (index : Nat) (item : Value) :
    Reading (Option TenantSpec) := do
  let here := path.index index
  let some map ← asMapping item here | pure none
  closedWorld lib map tenantKeys here
  let name ← requiredStr map (text "name") here "CC-I1"
  let id ← requiredUint map (text "id") here "CC-I1" u32Max
  let auth ← readAuth lib map here
  let policy ← readTenantPolicy lib map here
  let domains := readDomains map
  let some id := id | pure none
  report (checkTenantId tenants id here)
  let some name := name | pure none
  report (checkTenantName tenants name here)
  pure (some ⟨name, id, domains, policy, auth⟩)

def readTenants (cluster : Mapping) (path : Path) : Reading (List TenantSpec) :=
  let here := path.field (text "tenant")
  match cluster.get (text "tenant") with
  | none => pure []
  | some value =>
      match value.asSequence with
      | none => refuse (.new here "CC-7" (some (typeOf value)) (text "a sequence of tenants")) []
      | some items => each (readTenant lib here) [] 0 items

/-! ## Security, admission and timers -/

/-- The controls that are declared and that nothing applies, and what each would decide. -/
def unappliedSecurityControls : List (Text × Text) :=
  [(text "unknownSource",
      text "whether a request from an unconfigured source reaches a SIP decision path"),
    (text "sanityCheck",
      text "which malformed messages are refused before a decision is taken on them"),
    (text "userAgentDenyList", text "which User-Agent values are turned away"),
    (text "internalZone",
      text "which addresses count as internal, and so what the other three are relative to")]

def refuseControl (map : Mapping) (here : Path) : Text × Text → List ConfigError
  | (key, decides) =>
      if map.has key then
        [.new (here.field key) "CC-V10" (some (text "a declared " ++ key ++ text " policy"))
          (text "no " ++ key ++ text " key until a consumer applies it: nothing in this build decides " ++ decides ++ text ", so a node started with this declared would serve the posture the key was written to narrow. Remove it, or wait for the story that specifies the control")]
      else
        []

/-- Read `security`.  Every key of it is refused by name. -/
def readSecurity (cluster : Mapping) (path : Path) : Reading SecuritySpec :=
  let here := path.field (text "security")
  match cluster.get (text "security") with
  | none => pure .default
  | some value => do
      let some map ← asMapping value here | pure .default
      closedWorld lib map (unappliedSecurityControls.map Prod.fst) here
      report <|
        if map.has (text "maxForwards") then
          [.new (here.field (text "maxForwards")) "CC-V6" (some (text "a maxForwards setting"))
            (text "no maxForwards key; RFC 3261 §16.6 step 3 fixes it at 70 and it is not a hop budget to be tuned downward")]
        else
          []
      report (unappliedSecurityControls.flatMap (refuseControl map here))
      pure .default

def maxInFlightCeiling : Nat :=
  65536

def readMaxInFlight (map : Mapping) (here : Path) (default : Nat) : Reading Nat :=
  let key := text "maxInFlightTransactions"
  match map.get key with
  | none => pure default
  | some value =>
      match value.asU64 with
      | some declared =>
          if 1 ≤ declared ∧ declared ≤ maxInFlightCeiling then
            pure declared
          else
            refuse (.new (here.field key) "CC-V8" (some (decimal declared))
              (text "an integer in 1..=65536; 0 is a node that answers 503 to every call, and there is no way to spell \"no bound\"")) default
      | none =>
          refuse (.new (here.field key) "CC-V8" (some (typeOf value))
            (text "a count of concurrent transactions")) default

/-- Read the admission bound.  Absent is the declared default, not zero. -/
def readAdmission (cluster : Mapping) (path : Path) : Reading AdmissionSpec :=
  let here := path.field (text "admission")
  match cluster.get (text "admission") with
  | none => pure .default
  | some value => do
      let some map ← asMapping value here | pure .default
      closedWorld lib map (keysOf ["maxInFlightTransactions"]) here
      let bound ← readMaxInFlight map here AdmissionSpec.default.maxInFlightTransactions
      pure ⟨bound⟩

/-- A duration in milliseconds, or the default. -/
def readMs (map : Mapping) (key : Text) (here : Path) (default : Nat) : Reading Nat :=
  match map.get key with
  | none => pure default
  | some value =>
      match value.asU64 with
      | some ms => pure ms
      | none =>
          refuse (.new (here.field key) "CC-V7" (some (typeOf value))
            (text "a duration in milliseconds")) default

def timerCFloorMs : Nat :=
  180000

/-- The timers a section declares. -/
def readDeclaredTimers (map : Mapping) (here : Path) : Reading TimersSpec := do
  closedWorld lib map (keysOf ["t1", "timerB", "timerC", "timerF", "maxCallDuration"]) here
  ignore (declared map (keysOf ["t1", "timerB", "timerF", "maxCallDuration"]) here)
  let t1Ms ← readMs map (text "t1") here TimersSpec.default.t1Ms
  let timerBMs ← readMs map (text "timerB") here TimersSpec.default.timerBMs
  let timerFMs ← readMs map (text "timerF") here TimersSpec.default.timerFMs
  let timerCMs ← readMs map (text "timerC") here TimersSpec.default.timerCMs
  pure ⟨t1Ms, timerBMs, timerFMs, timerCMs⟩

/-- The timers as they stand, before Timer C is held to its floor. -/
def readTimersSection (cluster : Mapping) (here : Path) : Reading TimersSpec :=
  match cluster.get (text "timers") with
  | none => pure .default
  | some value => do
      let some map ← asMapping value here | pure .default
      readDeclaredTimers lib map here

/-- Read `timers`.  Timer C is strictly above its floor, written or defaulted. -/
def readTimers (cluster : Mapping) (path : Path) : Reading TimersSpec := do
  let here := path.field (text "timers")
  let timers ← readTimersSection lib cluster here
  report <|
    if timers.timerCMs ≤ timerCFloorMs then
      [.new (here.field (text "timerC")) "CC-V7" (some (decimal timers.timerCMs ++ text " ms"))
        (text "greater than 180000 ms (3 minutes), per RFC 3261 §16.6 step 11")]
    else
      []
  pure timers

end SipxClstr.Document
