import SipxClstr.Document.Schema

/-!
# The readers every section shares

The closed world of a mapping's keys, the two kinds of required scalar, and sets of roles.
-/

namespace SipxClstr.Document

open SipxClstr.Sip Reading

/-- What the loader takes from its libraries: the parsers, how a key that is no string
prints, and which characters print as themselves. -/
structure Libraries where
  /-- `serde_yaml_ng::from_str`. -/
  yaml : Text → Except Text Value
  /-- `toml::from_str`, converted to the one value tree. -/
  toml : Text → Except Text Value
  debugValue : Value → Text
  plain : Char → Bool

variable (lib : Libraries)

/-- Reject any key that is not in `known`. -/
def closedWorld (map : Mapping) (known : List Text) (path : Path) : Reading Unit :=
  report <| map.filterMap fun (key, _) =>
    match key.asStr with
    | none => some (.new path "CC-V2" (some (lib.debugValue key)) (text "a string key"))
    | some name =>
        if name ∈ known then
          none
        else
          some (.new (path.field name) "CC-V2" (some name) (text "one of: " ++ joined known))

def asMapping (value : Value) (path : Path) : Reading (Option Mapping) :=
  match value.asMapping with
  | some map => pure (some map)
  | none => refuse (.new path "CC-D3" (some (typeOf value)) (text "a mapping")) none

def requiredStr (map : Mapping) (key : Text) (path : Path) (rule : String) :
    Reading (Option Text) :=
  match map.get key with
  | none => refuse (.new (path.field key) rule none (text "a string; it is required")) none
  | some value =>
      match value.asStr with
      | some found =>
          if found.isEmpty then
            refuse (.new (path.field key) rule (some (text "\"\"")) (text "a non-empty string")) none
          else
            pure (some found)
      | none => refuse (.new (path.field key) rule (some (typeOf value)) (text "a string")) none

def requiredUint (map : Mapping) (key : Text) (path : Path) (rule : String) (max : Nat) :
    Reading (Option Nat) :=
  match map.get key with
  | none => refuse (.new (path.field key) rule none (text "an integer; it is required")) none
  | some value =>
      match value.asU64 with
      | some number =>
          if number ≤ max then
            pure (some number)
          else
            refuse (.new (path.field key) rule (some (decimal number))
              (text "an integer in 0..=" ++ decimal max)) none
      | none =>
          refuse (.new (path.field key) rule (some (typeOf value)) (text "a non-negative integer"))
            none

/-- What a refused scalar is reported as: the string it is, or its type. -/
def spelled (value : Value) : Text :=
  value.asStr.getD (typeOf value)

/-- `closed_set`. -/
def closedSet : Text :=
  joined (Role.all.map Role.asStr)

def readRole (path : Path) (index : Nat) (item : Value) : Reading (Option Role) :=
  match item.asStr.bind Role.parse with
  | some role => pure (some role)
  | none =>
      refuse (.new (path.index index) "CC-R1" (some (spelled item))
        (text "one of the closed role set: " ++ closedSet)) none

def expectedRoles : Text :=
  text "a sequence of roles; roles is a set, not a value"

def readRoles (value : Option Value) (path : Path) : Reading Roles :=
  match value with
  | none => refuse (.new path "CC-R2" none expectedRoles) ∅
  | some value =>
      match value.asSequence with
      | none => refuse (.new path "CC-R2" (some (typeOf value)) expectedRoles) ∅
      | some items => do
          let roles ← each (fun _ => readRole path) [] 0 items
          pure roles.toFinset

/-- One of the two roles that stand alone, beside a role on the call path. -/
def roleConflict (roles : Roles) (path : Path) (offender : Role) : List ConfigError :=
  if offender ∈ roles ∧ roles.onCallPath then
    [.new path "CC-R6" (some roles.spell)
      (text "`" ++ offender.asStr ++
        text "` not combined with edge, registrar, inbound-proxy or outbound-proxy")]
  else
    []

/-- The empty set is refused, and a synthetic role may not sit beside a call-path role. -/
def checkRoleCombination (roles : Roles) (path : Path) : Reading Unit :=
  if roles = ∅ then
    report [.new path "CC-R4" (some (text "[]"))
      (text "at least one role; a node that runs nothing should not have been started")]
  else
    report (roleConflict roles path .echo ++ roleConflict roles path .e2eTester)

end SipxClstr.Document
