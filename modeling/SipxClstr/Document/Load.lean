import SipxClstr.Document.Canonical
import SipxClstr.Document.Tenants
import SipxClstr.Sip.Utf8

/-!
# Loading a document

Bytes to text, text to one value tree with its references substituted, the tree to a
typed configuration.  Either the whole of one comes out, or every reason it was refused.
-/

namespace SipxClstr.Document

open SipxClstr.Sip Reading

variable (lib : Libraries)

/-! ## Substitution -/

/-- What references are resolved against. -/
abbrev Env := Text → Option Text

def isVarName (name : Text) : Bool :=
  match name with
  | [] => false
  | first :: rest =>
      (first.isUpper || first = '_') && rest.all fun c => c.isUpper || c.isDigit || c = '_'

/-- A reference, as a document writes it. -/
def referenceTo (name : Text) : Text :=
  '$' :: '\x7b' :: (name ++ ['\x7d'])

/-- What stands before the first opening of a reference, and what after it. -/
def findOpening : Text → Option (Text × Text)
  | [] => none
  | [_] => none
  | first :: second :: rest =>
      if first = '$' ∧ second = '\x7b' then
        some ([], rest)
      else
        (findOpening (second :: rest)).map fun (before, after) => (first :: before, after)

/-- Substitution with an explicit bound on the references replaced. -/
def substituteUpTo (env : Env) : Nat → Text → Text × List Text
  | 0, rest => (rest, [])
  | fuel + 1, rest =>
      match findOpening rest with
      | none => (rest, [])
      | some (before, after) =>
          match Node.splitOnce '\x7d' after with
          | none => (rest, [])
          | some (name, rest) =>
              let (out, unresolved) := substituteUpTo env fuel rest
              match env name with
              | some value =>
                  if isVarName name then
                    (before ++ value ++ out, unresolved)
                  else
                    (before ++ referenceTo name ++ out, name :: unresolved)
              | none => (before ++ referenceTo name ++ out, name :: unresolved)

/-- Replace every reference from the environment, and report the names that did not
resolve.  A replacement takes at least one character, so the length bounds them. -/
def substitute (input : Text) (env : Env) : Text × List Text :=
  substituteUpTo env input.length input

def expectedVariable (name : Text) : Text :=
  if isVarName name then
    text "a variable defined in the environment passed to load"
  else
    text "a name matching [A-Z_][A-Z0-9_]*"

def unresolvedAt (path : Path) (name : Text) : ConfigError :=
  .new path "CC-V4" (some (referenceTo name)) (expectedVariable name)

mutual

/-- Where the scalars of a value mention a name of `unresolved`. -/
def locateReferences (unresolved : List Text) (path : Path) : Value → List (Path × Text)
  | .string value =>
      (unresolved.filter fun name => referenceTo name <:+: value).map fun name => (path, name)
  | .sequence items => locateItems unresolved path 0 items
  | .mapping entries => locateEntries unresolved path entries
  | .tagged _ value => locateReferences unresolved path value
  | .null => []
  | .bool _ => []
  | .number _ => []

def locateItems (unresolved : List Text) (path : Path) (index : Nat) :
    List Value → List (Path × Text)
  | [] => []
  | item :: rest =>
      locateReferences unresolved (path.index index) item ++
        locateItems unresolved path (index + 1) rest

def locateEntries (unresolved : List Text) (path : Path) : List (Value × Value) → List (Path × Text)
  | [] => []
  | (key, item) :: rest =>
      locateReferences unresolved ((key.asStr.map path.field).getD path) item ++
        locateEntries unresolved path rest

end

mutual

/-- Where every reference resolved, no place is found. -/
theorem locateReferences_nil (path : Path) : ∀ value, locateReferences [] path value = []
  | .string _ => rfl
  | .sequence items => locateItems_nil path 0 items
  | .mapping entries => locateEntries_nil path entries
  | .tagged _ value => locateReferences_nil path value
  | .null => rfl
  | .bool _ => rfl
  | .number _ => rfl

theorem locateItems_nil (path : Path) (index : Nat) : ∀ items, locateItems [] path index items = []
  | [] => rfl
  | item :: rest => by
      rw [locateItems, locateReferences_nil, locateItems_nil, List.append_nil]

theorem locateEntries_nil (path : Path) : ∀ entries, locateEntries [] path entries = []
  | [] => rfl
  | (key, item) :: rest => by
      rw [locateEntries, locateReferences_nil, locateEntries_nil, List.append_nil]

end

/-- Report every reference that did not resolve where it was written, and at the root the
ones that no scalar mentions. -/
def reportUnresolved (document : Value) (unresolved : List Text) : List ConfigError :=
  let located := locateReferences unresolved .root document
  located.map (fun (path, name) => unresolvedAt path name) ++
    (unresolved.filter fun name => ¬ located.any fun found => found.2 = name).map
      (unresolvedAt .root)

theorem reportUnresolved_nil (document : Value) : reportUnresolved document [] = [] := by
  simp [reportUnresolved, locateReferences_nil]

/-! ## The document -/

/-- The sections that are recognised and not descended into. -/
def deferredSections : List Text :=
  keysOf ["profile", "management", "registrar", "normalisation", "trunk", "domain", "destinationSet",
    "routeRule", "ingress", "rateLimit", "nat", "mediaPool", "observability", "probe", "echo"]

def clusterKeys : List Text :=
  keysOf ["name", "environment", "zones", "listener", "membership", "keys", "shardMap",
    "locationStore", "tenant", "security", "admission", "timers"]

/-- The one secret rule a deferred section is held to. -/
def checkManagement (cluster : Mapping) (path : Path) : List ConfigError :=
  match (cluster.get (text "management")).bind Value.asMapping with
  | none => []
  | some management => refuseTlsOf management (path.field (text "management"))

/-- The sections of a cluster, as far as each was read. -/
structure ReadSections where
  name : Option Text
  environment : Option Text
  zones : List Text
  listeners : List ListenerSpec
  membership : List MemberSpec
  keys : List KeySpec
  shardMap : Option ShardMapSpec
  locationStore : Option LocationStoreSpec
  tenants : List TenantSpec
  security : SecuritySpec
  admission : AdmissionSpec
  timers : TimersSpec

def readSections (cluster : Mapping) (path : Path) : Reading ReadSections := do
  let name ← requiredStr cluster (text "name") path "CC-7"
  let environment ← requiredStr cluster (text "environment") path "CC-7"
  let zones ← readZones cluster path
  let listeners ← readListeners lib cluster path
  let membership ← readMembership lib cluster path
  let keys ← readKeys lib cluster path
  let shardMap ← readShardMap lib cluster path
  let locationStore ← readLocationStore lib cluster path
  let tenants ← readTenants lib cluster path
  let security ← readSecurity lib cluster path
  let admission ← readAdmission lib cluster path
  let timers ← readTimers lib cluster path
  pure ⟨name, environment, zones, listeners, membership, keys, shardMap, locationStore, tenants,
    security, admission, timers⟩

/-- The rules that need two sections, or the node's identity. -/
def crossChecks (sections : ReadSections) (identity : NodeIdentity) (path : Path) :
    Reading Unit := do
  checkRoleCombination identity.roles (Path.root.field (text "<identity>.roles"))
  report (checkMembershipAgrees sections.membership identity path)
  report (checkProjectionHasAListener sections.listeners identity path)
  report (checkShardOwners sections.shardMap sections.membership path)

/-- The whole, when nothing of it is missing. -/
def configOf (apiVersion : Option Text) (version : Option Nat) (sections : ReadSections)
    (rendered : Sections) : Option Config := do
  let apiVersion ← apiVersion
  let version ← version
  let name ← sections.name
  let environment ← sections.environment
  some
    { apiVersion, version, name, environment
      zones := sections.zones
      listeners := sections.listeners
      membership := sections.membership
      keys := sections.keys
      shardMap := sections.shardMap
      locationStore := sections.locationStore
      tenants := sections.tenants
      security := sections.security
      admission := sections.admission
      timers := sections.timers
      unapplied := []
      sections := rendered }

def readCluster (apiVersion : Option Text) (version : Option Nat) (cluster : Mapping) (path : Path)
    (identity : NodeIdentity) : Reading (Option Config) := do
  closedWorld lib cluster (clusterKeys ++ deferredSections) path
  ignore (declared cluster deferredSections path)
  report (checkManagement cluster path)
  let sections ← readSections lib cluster path
  crossChecks sections identity path
  pure (configOf apiVersion version sections (canonicalSections lib cluster))

def clusterPath : Path :=
  Path.root.field (text "cluster")

/-- A document of this schema version. -/
def readTop (apiVersion : Option Text) (top : Mapping) (identity : NodeIdentity) :
    Reading (Option Config) := do
  closedWorld lib top (keysOf ["apiVersion", "version", "cluster"]) .root
  let version ← requiredUint top (text "version") .root "CC-D9" u32Max
  match top.get (text "cluster") with
  | none =>
      refuse (.new clusterPath "CC-2" none (text "the cluster section; it is required")) none
  | some value =>
      let some cluster ← asMapping value clusterPath | pure none
      readCluster lib apiVersion version cluster clusterPath identity

/-- Paths in their order, each once. -/
def orderedPaths (paths : List Path) : List Path :=
  Data.sortedDistinct paths

/-- Read a document, beside the errors there already are.  A document of another schema
version is refused for that alone. -/
def readDocument (document : Value) (identity : NodeIdentity) (errors : List ConfigError) :
    Option Config × List ConfigError :=
  match document.asMapping with
  | none =>
      (none, errors ++ [.new .root "CC-D3" (some (typeOf document)) (text "a mapping")])
  | some top =>
      let version := requiredStr top (text "apiVersion") .root "CC-D6"
      if version.value.any (· ≠ apiVersion) then
        (none, [.new (Path.root.field (text "apiVersion")) "CC-D6" version.value apiVersion])
      else
        let body := readTop lib version.value top identity
        (body.value.map fun config => { config with unapplied := orderedPaths body.unapplied },
          errors ++ version.errors ++ body.errors)

/-- Read one value tree whose unresolved references are known. -/
def loadTree (document : Value) (unresolved : List Text) (identity : NodeIdentity) :
    Except (List ConfigError) Config :=
  match readDocument lib document identity (reportUnresolved document unresolved) with
  | (some config, []) => .ok config
  | (none, []) =>
      .error [.new .root "CC-V10" none (text "a document this loader could read to completion")]
  | (_, errors) => .error (ordered errors)

/-! ## Text -/

/-- `str::lines`, of which each is trimmed. -/
def trimmedLines (input : Text) : List Text :=
  (input.splitOn '\n').map trim

/-- Whether the first meaningful line is one of TOML's. -/
def looksLikeToml (input : Text) : Bool :=
  match (trimmedLines input).find? fun line => line ≠ [] ∧ line.head? ≠ some '#' with
  | none => false
  | some line => line.head? = some '[' || (text " = " <:+: line && !(text ": " <:+: line))

/-- The encoding is sniffed, and both parsers are tried before anything is refused. -/
def parseDocument (input : Text) : Except Text Value :=
  if looksLikeToml input then
    match lib.toml input with
    | .ok value => .ok value
    | .error tomlError =>
        match lib.yaml input with
        | .ok value => .ok value
        | .error _ =>
            .error (text "not valid TOML (" ++ tomlError ++ text ") and not valid YAML either")
  else
    match lib.yaml input with
    | .ok value => .ok value
    | .error yamlError =>
        match lib.toml input with
        | .ok _ => .error (text "valid TOML that did not sniff as TOML; please report this")
        | .error _ => .error yamlError

/-- Strict decoding, with the bytes already read and a bound on the characters produced. -/
def fromUtf8UpTo : Nat → Nat → Bytes → Except Nat Text
  | 0, _, _ => .ok []
  | _ + 1, _, [] => .ok []
  | fuel + 1, valid, lead :: rest =>
      let (c, taken) := decodeLead lead rest
      if String.utf8EncodeChar c = lead :: rest.take taken then
        (fromUtf8UpTo fuel (valid + taken + 1) (rest.drop taken)).map fun read => c :: read
      else
        .error valid

/-- `str::from_utf8`, or `valid_up_to` of the error. -/
def fromUtf8 (raw : Bytes) : Except Nat Text :=
  fromUtf8UpTo raw.length 0 raw

/-- Read a cluster document. -/
def load (raw : Bytes) (identity : NodeIdentity) (env : Env) : Except (List ConfigError) Config :=
  match fromUtf8 raw with
  | .error valid =>
      .error [.new .root "CC-D3" (some (text "invalid UTF-8 at byte " ++ decimal valid))
        (text "a UTF-8 encoded YAML or JSON document")]
  | .ok input =>
      let (substituted, unresolved) := substitute input env
      match parseDocument lib substituted with
      | .error why =>
          .error (ordered (reportUnresolved .null unresolved ++
            [.new .root "CC-D3" (some why) (text "a well-formed YAML, JSON or TOML document")]))
      | .ok document => loadTree lib document unresolved identity

theorem fromUtf8UpTo_utf8 (value : Text) {fuel valid : Nat} (enough : (utf8 value).length ≤ fuel) :
    fromUtf8UpTo fuel valid (utf8 value) = .ok value := by
  induction value generalizing fuel valid with
  | nil => cases fuel <;> rfl
  | cons c rest ih =>
      obtain ⟨lead, tail, encoded, decoded⟩ := decodeLead_utf8EncodeChar c
      have split : utf8 (c :: rest) = lead :: (tail ++ utf8 rest) := by
        simp [utf8, encoded]
      rw [split] at enough ⊢
      cases fuel with
      | zero => contradiction
      | succ fuel =>
          have later : (utf8 rest).length ≤ fuel := by
            simp only [List.length_cons, List.length_append] at enough
            omega
          rw [fromUtf8UpTo, decoded]
          dsimp only
          rw [if_pos (by rw [encoded, List.take_left]), List.drop_left, ih later]
          rfl

/-- Bytes that are the text's decode to it. -/
theorem fromUtf8_utf8 (value : Text) : fromUtf8 (utf8 value) = .ok value :=
  fromUtf8UpTo_utf8 value le_rfl

theorem findOpening_eq_none {input : Text} (plain : '$' ∉ input) : findOpening input = none := by
  induction input using findOpening.induct with
  | case1 => rfl
  | case2 c => rfl
  | case3 first second rest opens =>
      rw [opens.1] at plain
      simp at plain
  | case4 first second rest opens ih =>
      rw [List.mem_cons, not_or] at plain
      rw [findOpening, if_neg opens, ih plain.2, Option.map_none]

/-- A text without references is left as it is. -/
theorem substitute_eq_self {input : Text} (plain : '$' ∉ input) (env : Env) :
    substitute input env = (input, []) := by
  unfold substitute
  cases input.length with
  | zero => rfl
  | succ fuel => rw [substituteUpTo, findOpening_eq_none plain]

/-! ## The least document -/

/-- A string of a document. -/
def scalar (value : String) : Value :=
  .string (text value)

/-- A mapping with plain keys. -/
def mappingOf (entries : List (String × Value)) : Value :=
  .mapping (entries.map fun (key, item) => (scalar key, item))

/-- A document with one registrar's listener, and what else its cluster declares. -/
def leastDocument (version : UInt64) (more : List (String × Value)) : Value :=
  mappingOf [("apiVersion", scalar "sipx.dev/v1alpha1"), ("version", .number (.posInt version)),
    ("cluster", mappingOf <|
      [("name", scalar "c"), ("environment", scalar "e"), ("zones", .sequence [scalar "z"]),
        ("listener", .sequence [mappingOf [("roles", .sequence [scalar "registrar"]),
          ("transport", scalar "udp"), ("bind", scalar "10.0.0.7:5060")]])] ++ more)]

def firstLine : String :=
  "apiVersion: sipx.dev/v1alpha1"

def leastCluster : String :=
  "\ncluster:\n  name: c\n  environment: e\n  zones: [z]\n  listener:\n  - roles: [registrar]\n\x20   transport: udp\n    bind: 10.0.0.7:5060\n"

/-- The same as text. -/
def leastText (version : UInt64) (more : String) : Text :=
  text firstLine ++ '\n' :: (text "version: " ++ decimal version.toNat ++ text leastCluster ++ text more)

/-- Libraries that read these texts as these trees. -/
def readsAs (known : List (Text × Value)) : Libraries where
  yaml input := ((known.find? fun entry => entry.1 = input).map fun entry => Except.ok entry.2).getD
    (.error (text "another document"))
  toml _ := .error (text "no TOML document")
  debugValue _ := text "Null"
  plain _ := true

/-- A registrar in the one zone. -/
def leastIdentity : NodeIdentity :=
  ⟨1, text "z", {.registrar}⟩

/-- The least document of this version and these lines, loaded from its text. -/
def loadLeastIn (env : Env) (known : List (Text × Value)) (version : UInt64) (lines : String) :
    Except (List ConfigError) Config :=
  load (readsAs known) (utf8 (leastText version lines)) leastIdentity env

/-- The same where nothing is set. -/
abbrev loadLeast (known : List (Text × Value)) (version : UInt64) (lines : String) :
    Except (List ConfigError) Config :=
  loadLeastIn (fun _ => none) known version lines

/-- A constant is the text it is spelled with. -/
theorem text_eq {constant : String} {spelled : Text} (same : constant = String.ofList spelled) :
    text constant = spelled := by
  rw [text, same, String.toList_ofList]

theorem text_inj {constant other : String} : text constant = text other ↔ constant = other :=
  String.toList_inj

theorem looksLikeToml_leastText (version : UInt64) (lines : String) :
    looksLikeToml (leastText version lines) = false := by
  have isFirst : text firstLine = text "apiVersion: sipx.dev/v1alpha1" := rfl
  have oneLine : '\n' ∉ text firstLine := by
    rw [isFirst, text_eq rfl]
    decide
  have meaningful : decide (trim (text firstLine) ≠ [] ∧
      (trim (text firstLine)).head? ≠ some '#') = true := by
    rw [isFirst, text_eq rfl]
    decide +kernel
  rw [looksLikeToml, leastText, trimmedLines, List.splitOn_append_cons_self_of_not_mem oneLine,
    List.map_cons, List.find?_cons, meaningful, isFirst, text_eq rfl]
  dsimp only
  decide +kernel

set_option maxRecDepth 4000 in
theorem plain_leastText {version : UInt64} {lines : String} {spelled : Text}
    (same : lines = String.ofList spelled) (plain : '$' ∉ spelled) :
    '$' ∉ leastText version lines := by
  have first : '$' ∉ text firstLine := by
    rw [show text firstLine = text "apiVersion: sipx.dev/v1alpha1" from rfl, text_eq rfl]
    decide
  have cluster : '$' ∉ text leastCluster := by
    rw [show text leastCluster = _ from text_eq rfl]
    decide +kernel
  have digits : '$' ∉ decimal version.toNat := by
    intro member
    exact absurd (isDigit_of_mem_decimal member) (by decide)
  rw [leastText, text_eq same]
  simp only [List.mem_append, List.mem_cons, not_or]
  exact ⟨first, by decide, ⟨⟨by decide, digits⟩, cluster⟩, plain⟩

/-- It is loaded as the tree its text is known to be. -/
theorem loadLeast_eq {env : Env} {known : List (Text × Value)} (version : UInt64) (more : List (String × Value))
    (lines : String) {spelled : Text}
    (isKnown : known.find? (fun entry => entry.1 = leastText version lines) =
      some (leastText version lines, leastDocument version more))
    (same : lines = String.ofList spelled) (plain : '$' ∉ spelled) :
    loadLeastIn env known version lines =
      loadTree (readsAs known) (leastDocument version more) [] leastIdentity := by
  rw [loadLeastIn, load, fromUtf8_utf8]
  dsimp only
  rw [substitute_eq_self (plain_leastText same plain), parseDocument, looksLikeToml_leastText]
  simp [readsAs, isKnown]

/-- The one document there is. -/
abbrev onlyLeast (version : UInt64) (more : List (String × Value)) (lines : String) :
    List (Text × Value) :=
  [(leastText version lines, leastDocument version more)]

theorem find_onlyLeast (version : UInt64) (more : List (String × Value)) (lines : String) :
    (onlyLeast version more lines).find? (fun entry => entry.1 = leastText version lines) =
      some (leastText version lines, leastDocument version more) := by
  simp [onlyLeast]

end SipxClstr.Document
