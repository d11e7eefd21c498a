import SipxClstr.Sip.Text

/-!
# The value tree of a document

A document is one tree of values, whatever it is written in.  The accessors see through
tags, as the YAML library's do; a mapping is asked for a key by equality, so a tagged key
is not the plain one.
-/

namespace SipxClstr.Document

open SipxClstr.Sip

/-- A number of a document. -/
inductive Number where
  | posInt (value : UInt64)
  /-- The negative integer whose magnitude is one more than this. -/
  | negInt (below : Nat)
  /-- A floating-point number, by how it prints. -/
  | float (shown : Text)

/-- `serde_yaml_ng::Value`. -/
inductive Value where
  | null
  | bool (flag : Bool)
  | number (number : Number)
  | string (text : Text)
  | sequence (items : List Value)
  | mapping (entries : List (Value × Value))
  | tagged (tag : Text) (value : Value)

/-- The entries of a mapping, in the order the document writes them. -/
abbrev Mapping := List (Value × Value)

namespace Value

/-- `untag_ref`. -/
def untag : Value → Value
  | .tagged _ value => value.untag
  | value => value

def asStr (value : Value) : Option Text :=
  match value.untag with
  | .string text => some text
  | _ => none

def asBool (value : Value) : Option Bool :=
  match value.untag with
  | .bool flag => some flag
  | _ => none

def asU64 (value : Value) : Option Nat :=
  match value.untag with
  | .number (.posInt found) => some found.toNat
  | _ => none

def asSequence (value : Value) : Option (List Value) :=
  match value.untag with
  | .sequence items => some items
  | _ => none

def asMapping (value : Value) : Option Mapping :=
  match value.untag with
  | .mapping entries => some entries
  | _ => none

/-- Whether a key is this string, untagged. -/
def isKey (name : Text) : Value → Bool
  | .string text => text = name
  | _ => false

end Value

/-- `type_of`. -/
def typeOf : Value → Text
  | .null => text "null"
  | .bool _ => text "a boolean"
  | .number _ => text "a number"
  | .string _ => text "a string"
  | .sequence _ => text "a sequence"
  | .mapping _ => text "a mapping"
  | .tagged _ _ => text "a tagged value"

namespace Mapping

/-- `get(Value::from(name))`. -/
def get (entries : Mapping) (name : Text) : Option Value :=
  (entries.find? fun entry => entry.1.isKey name).map Prod.snd

/-- `contains_key(Value::from(name))`. -/
def has (entries : Mapping) (name : Text) : Bool :=
  (entries.get name).isSome

end Mapping

@[simp]
theorem isKey_string {name other : Text} : (Value.string other).isKey name = decide (other = name) :=
  rfl

theorem isKey_iff {name : Text} {key : Value} : key.isKey name = true ↔ key = .string name := by
  cases key <;> simp [Value.isKey]

@[simp]
theorem get_nil (name : Text) : Mapping.get [] name = none :=
  rfl

theorem get_cons (entry : Value × Value) (rest : Mapping) (name : Text) :
    Mapping.get (entry :: rest) name =
      if entry.1.isKey name then some entry.2 else Mapping.get rest name := by
  unfold Mapping.get
  rw [List.find?_cons]
  split <;> simp_all

/-- What a mapping answers for a key is written in it. -/
theorem mem_of_get {entries : Mapping} {name : Text} {value : Value}
    (found : entries.get name = some value) : (.string name, value) ∈ entries := by
  obtain ⟨⟨key, item⟩, isEntry, rfl⟩ := Option.map_eq_some_iff.mp found
  have isKey := List.find?_some isEntry
  rw [isKey_iff] at isKey
  dsimp only at isKey
  rw [← isKey]
  exact List.mem_of_find?_eq_some isEntry

end SipxClstr.Document
