import SipxClstr.Document.Load

/-!
# What the schema reads

The type the schema gives a key, as a partial function on what is written there: what the
value means, if it is of the type at all.
-/

namespace SipxClstr.Document

open SipxClstr.Sip

/-! ## Scalars -/

/-- A string that is not empty. -/
def strOf (value : Value) : Option Text :=
  value.asStr.filter fun found => found ≠ []

def uintOf (max : Nat) (value : Value) : Option Nat :=
  value.asU64.filter fun found => found ≤ max

def instantOf (value : Value) : Option Int :=
  value.asStr.bind parseRfc3339Utc

def algorithmOf (value : Value) : Option KeyAlgorithm :=
  value.asStr.bind KeyAlgorithm.parse

def roleOf (value : Value) : Option Role :=
  value.asStr.bind Role.parse

/-! ## Sequences -/

def rolesOf (value : Value) : Option Roles := do
  let items ← value.asSequence
  let roles ← items.mapM roleOf
  some roles.toFinset

def zonesOf (value : Value) : Option (List Text) := do
  let items ← value.asSequence
  items.mapM strOf

/-! ## Durations -/

/-- A key that may be absent, and is then its default. -/
def orDefault {α : Type} (typed : Value → Option α) (default : α) (written : Option Value) :
    Option α :=
  match written with
  | none => some default
  | some value => typed value

/-! ## Mappings -/

def listenerOf (item : Value) : Option ListenerSpec := do
  let map ← item.asMapping
  let roles ← (map.get (text "roles")).bind rolesOf
  let transport ← (map.get (text "transport")).bind strOf
  let bind ← (map.get (text "bind")).bind strOf
  some ⟨roles, transport, bind, optionalStr map (text "advertise")⟩

def keyOf (item : Value) : Option KeySpec := do
  let map ← item.asMapping
  let id ← (map.get (text "id")).bind (uintOf u8Max)
  let secretRef ← (map.get (text "secretRef")).bind strOf
  let algorithm ← orDefault algorithmOf .chaCha20Poly1305 (map.get (text "algorithm"))
  let verifyFrom ← (map.get (text "verifyFrom")).bind instantOf
  let verifyUntil ← (map.get (text "verifyUntil")).bind instantOf
  let mint ← orDefault Value.asBool false (map.get (text "mint"))
  some ⟨id, algorithm, secretRef, verifyFrom, verifyUntil, mint⟩

end SipxClstr.Document
