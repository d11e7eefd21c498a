import SipxClstr.Sip.Text
import Mathlib.Data.List.Pairwise
import Mathlib.Data.Bool.Basic

/-!
# The key set

Keys arrive from deployment configuration.  A key set answers which key a wire id
selects at a given time, and which key mints.
-/

namespace SipxClstr.Affinity

open SipxClstr.Sip

/-- A byte string of fixed length. -/
structure Octets (count : Nat) where
  bytes : Bytes
  length_eq : bytes.length = count
  deriving DecidableEq

/-- `try_into` an array of this length. -/
def Octets.ofBytes? (count : Nat) (bytes : Bytes) : Option (Octets count) :=
  if exact : bytes.length = count then some ⟨bytes, exact⟩ else none

/-- Bytes 0 to 13: version, key id, nonce. -/
def headerLen : Nat :=
  14

/-- The body's fixed part: the seven claim fields and the length byte. -/
def bodyFixedLen : Nat :=
  20

/-- The module-fact sub-budget. -/
def maxFacts : Nat :=
  64

/-- The two constructions of version 1.  The algorithm is a property of the key. -/
inductive Algorithm where
  | chaCha20Poly1305
  /-- Over header and body, truncated to its first 12 bytes. -/
  | hmacSha256_96
  deriving DecidableEq, Repr

namespace Algorithm

def tagLen : Algorithm → Nat
  | .chaCha20Poly1305 => 16
  | .hmacSha256_96 => 12

/-- The smallest valid token length for this algorithm. -/
def minTokenLen (algorithm : Algorithm) : Nat :=
  headerLen + bodyFixedLen + algorithm.tagLen

/-- The largest. -/
def maxTokenLen (algorithm : Algorithm) : Nat :=
  algorithm.minTokenLen + maxFacts

end Algorithm

/-- A key: the wire id, the construction it selects, and the secret. -/
structure MintKey where
  id : UInt8
  algorithm : Algorithm
  secret : Octets 32
  deriving DecidableEq

/-- A key, the window in which it verifies, and whether it mints. -/
structure KeyEntry where
  key : MintKey
  verifyFrom : UInt32
  verifyUntil : UInt32
  mint : Bool
  deriving DecidableEq

namespace KeyEntry

/-- Whether this entry's window is open at `now`. -/
def verifiesAt (entry : KeyEntry) (now : UInt32) : Bool :=
  entry.verifyFrom ≤ now && now ≤ entry.verifyUntil

/-- Two entries on one id with overlapping windows. -/
def conflicts (entry other : KeyEntry) : Bool :=
  entry.key.id = other.key.id && entry.verifyFrom ≤ other.verifyUntil &&
    other.verifyFrom ≤ entry.verifyUntil

end KeyEntry

/-- The ways a configured key set is refused. -/
inductive KeySetError where
  | noMintKey
  | multipleMintKeys
  | overlappingId (id : UInt8)
  | emptyWindow (id : UInt8)
  deriving DecidableEq

/-- The first entry that conflicts with a later one. -/
def firstConflict : List KeyEntry → Option KeyEntry
  | [] => none
  | entry :: rest =>
      if rest.any fun other => entry.conflicts other then some entry else firstConflict rest

/-- The key set a node holds: every window opens, one key mints, and no two entries
share an id while both windows are open. -/
structure KeySet where
  entries : List KeyEntry
  windows : ∀ entry ∈ entries, entry.verifyFrom ≤ entry.verifyUntil
  oneMints : (entries.filter KeyEntry.mint).length = 1
  apart : entries.Pairwise fun entry other => entry.conflicts other = false

theorem firstConflict_eq_none_iff {entries : List KeyEntry} :
    firstConflict entries = none ↔
      entries.Pairwise fun entry other => entry.conflicts other = false := by
  induction entries with
  | nil => simp [firstConflict]
  | cons entry rest ih =>
      rw [firstConflict, List.pairwise_cons, ← ih]
      constructor
      · intro none
        split at none
        · contradiction
        · next noneLater =>
            rw [Bool.not_eq_true, List.any_eq_false] at noneLater
            exact ⟨fun other member => eq_false_of_ne_true (noneLater other member), none⟩
      · rintro ⟨noneLater, none⟩
        rw [if_neg, none]
        rw [Bool.not_eq_true, List.any_eq_false]
        exact fun other member => ne_true_of_eq_false (noneLater other member)

namespace KeySet

/-- Build a key set, enforcing the structural rules. -/
def new (entries : List KeyEntry) : Except KeySetError KeySet :=
  match closed : entries.find? fun entry => entry.verifyUntil < entry.verifyFrom with
  | some entry => .error (.emptyWindow entry.key.id)
  | none =>
      if nothing : (entries.filter KeyEntry.mint).length = 0 then
        .error .noMintKey
      else if several : 1 < (entries.filter KeyEntry.mint).length then
        .error .multipleMintKeys
      else
        match conflict : firstConflict entries with
        | some entry => .error (.overlappingId entry.key.id)
        | none =>
            .ok
              { entries
                windows := by
                  intro entry member
                  have opens := List.find?_eq_none.mp closed entry member
                  simpa using opens
                oneMints := by omega
                apart := firstConflict_eq_none_iff.mp conflict }

/-- The key this id selects, if its window is open at `now`. -/
def verifyKey (keys : KeySet) (id : UInt8) (now : UInt32) : Option MintKey :=
  (keys.entries.find? fun entry => entry.key.id = id && entry.verifiesAt now).map KeyEntry.key

/-- The key new tokens are minted under. -/
def mintKey (keys : KeySet) : Option MintKey :=
  (keys.entries.find? KeyEntry.mint).map KeyEntry.key

end KeySet

theorem KeyEntry.conflicts_comm (entry other : KeyEntry) :
    entry.conflicts other = other.conflicts entry := by
  have ids : decide (entry.key.id = other.key.id) = decide (other.key.id = entry.key.id) :=
    decide_eq_decide.mpr eq_comm
  rw [conflicts, conflicts, Bool.and_right_comm, ids]

/-- In a key set no two entries conflict. -/
theorem KeySet.conflicts_eq_false {keys : KeySet} {entry other : KeyEntry}
    (member : entry ∈ keys.entries) (otherMember : other ∈ keys.entries) (differs : entry ≠ other) :
    entry.conflicts other = false := by
  have symmetric : Std.Symm fun entry other : KeyEntry => entry.conflicts other = false :=
    ⟨fun entry other apart => by rw [KeyEntry.conflicts_comm, apart]⟩
  exact keys.apart.forall member otherMember differs

/-- Two windows that are open at one time overlap. -/
theorem KeyEntry.conflicts_of_verifiesAt {entry other : KeyEntry} {now : UInt32}
    (sameId : entry.key.id = other.key.id) (first : entry.verifiesAt now = true)
    (second : other.verifiesAt now = true) : entry.conflicts other = true := by
  simp only [verifiesAt, Bool.and_eq_true, decide_eq_true_eq] at first second
  simp only [conflicts, Bool.and_eq_true, decide_eq_true_eq]
  exact ⟨⟨sameId, UInt32.le_trans first.1 second.2⟩, UInt32.le_trans second.1 first.2⟩

/-- A wire id selects the key of the one entry with that id whose window is open. -/
theorem KeySet.verifyKey_eq_some_iff {keys : KeySet} {id : UInt8} {now : UInt32} {key : MintKey} :
    keys.verifyKey id now = some key ↔
      ∃ entry ∈ keys.entries, entry.key = key ∧ key.id = id ∧ entry.verifiesAt now = true := by
  rw [verifyKey, Option.map_eq_some_iff]
  constructor
  · rintro ⟨entry, found, rfl⟩
    have selected := List.find?_some found
    simp only [Bool.and_eq_true, decide_eq_true_eq] at selected
    exact ⟨entry, List.mem_of_find?_eq_some found, rfl, selected.1, selected.2⟩
  · rintro ⟨entry, member, rfl, rfl, opens⟩
    cases found : keys.entries.find? fun other =>
        other.key.id = entry.key.id && other.verifiesAt now with
    | none =>
        have unselected := List.find?_eq_none.mp found entry member
        simp [opens] at unselected
    | some first =>
        have selected := List.find?_some found
        simp only [Bool.and_eq_true, decide_eq_true_eq] at selected
        have firstMember := List.mem_of_find?_eq_some found
        by_cases same : first = entry
        · exact ⟨first, rfl, by rw [same]⟩
        · have overlap := KeyEntry.conflicts_of_verifiesAt selected.1 selected.2 opens
          rw [keys.conflicts_eq_false firstMember member same] at overlap
          contradiction

end SipxClstr.Affinity
