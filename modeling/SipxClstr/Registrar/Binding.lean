import SipxClstr.Sip.Kernel
import Mathlib.Data.List.Lex
import Mathlib.Data.List.Infix
import Mathlib.Data.Prod.Lex

/-!
# What the location service stores

Bindings, and the set they form for one address-of-record.  A set keeps the order
in which its bindings were created, because the first of several bindings a
contact matches is the one an update goes to.
-/

namespace SipxClstr.Registrar

open SipxClstr.Sip

/-- A point in time, in nanoseconds since some origin. -/
abbrev Timestamp := Nat

/-- The last instant there is: `u64::MAX`. -/
def lastInstant : Timestamp :=
  18446744073709551615

def nanosPerSecond : Nat :=
  1000000000

namespace Timestamp

/-- This instant plus a duration, saturating. -/
def saturatingAdd (instant : Timestamp) (duration : Nat) : Timestamp :=
  min (instant + duration) lastInstant

/-- How long from here to `later`; zero if `later` is earlier. -/
def durationUntil (instant later : Timestamp) : Nat :=
  later - instant

end Timestamp

inductive IpAddr where
  | v4 (address : BitVec 32)
  | v6 (address : BitVec 128)
  deriving DecidableEq, Repr

/-- The observed source of a registration. -/
structure SourceAddr where
  transport : Text
  ip : IpAddr
  port : Nat
  deriving DecidableEq

/-- RFC 8599 push parameters, projected from the contact. -/
structure Push where
  provider : Bytes
  prid : Bytes
  param : Option Bytes
  deriving DecidableEq

/-- One row of an address-of-record's set. -/
structure Binding where
  /-- The registered Contact URI, verbatim. -/
  contact : Bytes
  /-- Preference in thousandths. -/
  q : Nat
  /-- The `Call-ID` that last wrote this binding. -/
  callId : Bytes
  /-- The `CSeq` that last wrote it. -/
  cseq : Nat
  expiresAt : Timestamp
  /-- When it was first created. -/
  registeredAt : Timestamp
  /-- When it was last updated. -/
  refreshedAt : Timestamp
  /-- The stored Path vector, topmost first. -/
  path : List Bytes
  received : Option SourceAddr
  instanceId : Option Bytes
  regId : Option Nat
  flowRef : Option Bytes
  push : Option Push
  principal : Option Bytes
  deriving DecidableEq

namespace Binding

/-- Whether this binding still exists at `now`. -/
def isActive (binding : Binding) (now : Timestamp) : Bool :=
  now < binding.expiresAt

/-- Remaining granted lifetime at `now`. -/
def expiresIn (binding : Binding) (now : Timestamp) : Nat :=
  Timestamp.durationUntil now binding.expiresAt

/-- Where a binding stands in creation order: by when it was created, then by the
bytes of its contact. -/
def creationKey (binding : Binding) : Nat ×ₗ List Nat :=
  toLex (binding.registeredAt, binding.contact.map UInt8.toNat)

end Binding

/-- What reconciliation takes from outside: the kernel's comparison of URIs, which is
reflexive and symmetric and not transitive, and where the standard library splits a
slice.  The split of a slice that is not partitioned is unspecified. -/
structure ContactRules (K : Kernel) where
  /-- `Uri::equivalent`. -/
  equivalent : K.Uri → K.Uri → Bool
  equivalent_refl : ∀ uri, equivalent uri uri = true
  equivalent_symm : ∀ first second, equivalent first second = true →
    equivalent second first = true
  /-- `slice::partition_point`, from what its predicate answers for each element. -/
  partitionPoint : List Bool → Nat
  partitionPoint_le : ∀ answers, partitionPoint answers ≤ answers.length
  partitionPoint_partitioned : ∀ before after,
    partitionPoint (List.replicate before true ++ List.replicate after false) = before

/-- Every binding of one address-of-record, active or not, in creation order. -/
abbrev BindingSet := List Binding

namespace BindingSet

/-- The bindings that still exist at `now`. -/
def active (set : BindingSet) (now : Timestamp) : List Binding :=
  set.filter fun binding => binding.isActive now

/-- How many bindings are active at `now`: what the quota counts. -/
def activeCount (set : BindingSet) (now : Timestamp) : Nat :=
  (set.active now).length

/-- Where a binding goes in. -/
def position {K : Kernel} (R : ContactRules K) (set : BindingSet) (binding : Binding) : Nat :=
  R.partitionPoint (set.map fun existing => existing.creationKey ≤ binding.creationKey)

/-- Add a binding, and report the index it landed at. -/
def insertAt {K : Kernel} (R : ContactRules K) (set : BindingSet) (binding : Binding) :
    BindingSet × Nat :=
  let position := set.position R binding
  (set.take position ++ binding :: set.drop position, position)

/-- Replace the binding at `index`, if it exists. -/
def replace (set : BindingSet) (index : Nat) (binding : Binding) : BindingSet :=
  set.set index binding

/-- Drop the binding at `index`, if it exists. -/
def remove (set : BindingSet) (index : Nat) : BindingSet :=
  set.eraseIdx index

/-- Forget every binding that expired at or before `now`. -/
def dropExpired (set : BindingSet) (now : Timestamp) : BindingSet :=
  set.filter fun binding => binding.isActive now

end BindingSet

/-- A monotonic revision of one address-of-record, never reset. -/
structure Revision where
  count : Nat
  deriving DecidableEq, Repr

namespace Revision

/-- The revision of an address-of-record that was never written. -/
def initial : Revision :=
  ⟨0⟩

def next (revision : Revision) : Revision :=
  ⟨revision.count + 1⟩

end Revision

/-! ## Creation order -/

namespace BindingSet

/-- The bindings stand in creation order. -/
def InCreationOrder (set : BindingSet) : Prop :=
  set.Pairwise fun earlier later => earlier.creationKey ≤ later.creationKey

instance (set : BindingSet) : Decidable set.InCreationOrder :=
  inferInstanceAs (Decidable (set.Pairwise _))

variable {K : Kernel} {R : ContactRules K}

theorem position_le (set : BindingSet) (binding : Binding) :
    set.position R binding ≤ set.length := by
  have bound := R.partitionPoint_le
    (set.map fun existing => existing.creationKey ≤ binding.creationKey)
  rwa [List.length_map] at bound

/-- In a set in creation order what stands at or before a key is a prefix. -/
theorem exists_partition {set : BindingSet} (ordered : set.InCreationOrder)
    (key : Nat ×ₗ List Nat) :
    ∃ before after, set = before ++ after ∧ (∀ entry ∈ before, entry.creationKey ≤ key) ∧
      ∀ entry ∈ after, key < entry.creationKey := by
  induction set with
  | nil => exact ⟨[], [], rfl, by simp, by simp⟩
  | cons head rest ih =>
      obtain ⟨headFirst, restOrdered⟩ := List.pairwise_cons.mp ordered
      by_cases early : head.creationKey ≤ key
      · obtain ⟨before, after, split, low, high⟩ := ih restOrdered
        refine ⟨head :: before, after, by rw [split, List.cons_append], ?_, high⟩
        intro entry member
        rcases List.mem_cons.mp member with rfl | later
        · exact early
        · exact low entry later
      · refine ⟨[], head :: rest, rfl, by simp, ?_⟩
        intro entry member
        rcases List.mem_cons.mp member with rfl | later
        · exact lt_of_not_ge early
        · exact lt_of_lt_of_le (lt_of_not_ge early) (headFirst entry later)

/-- In a set in creation order a binding goes in behind what stands at or before it. -/
theorem position_of_partition {before after : BindingSet} {binding : Binding}
    (low : ∀ entry ∈ before, entry.creationKey ≤ binding.creationKey)
    (high : ∀ entry ∈ after, binding.creationKey < entry.creationKey) :
    BindingSet.position R (before ++ after) binding = before.length := by
  have answers : (before ++ after).map (fun existing =>
      decide (existing.creationKey ≤ binding.creationKey)) =
        List.replicate before.length true ++ List.replicate after.length false := by
    rw [List.map_append]
    congr 1
    · rw [List.eq_replicate_iff]
      constructor
      · exact List.length_map _
      · intro said member
        obtain ⟨entry, entryMember, rfl⟩ := List.mem_map.mp member
        exact decide_eq_true (low entry entryMember)
    · rw [List.eq_replicate_iff]
      constructor
      · exact List.length_map _
      · intro said member
        obtain ⟨entry, entryMember, rfl⟩ := List.mem_map.mp member
        exact decide_eq_false (not_le_of_gt (high entry entryMember))
  rw [position, answers, R.partitionPoint_partitioned]

/-- Adding a binding keeps creation order. -/
theorem InCreationOrder.insertAt {set : BindingSet} (ordered : set.InCreationOrder)
    (binding : Binding) : (set.insertAt R binding).1.InCreationOrder := by
  obtain ⟨before, after, rfl, low, high⟩ := exists_partition ordered binding.creationKey
  obtain ⟨beforeOrdered, afterOrdered, across⟩ := List.pairwise_append.mp ordered
  rw [BindingSet.insertAt, position_of_partition low high, List.take_left, List.drop_left]
  apply List.pairwise_append.mpr
  refine ⟨beforeOrdered, List.pairwise_cons.mpr ⟨?_, afterOrdered⟩, ?_⟩
  · exact fun entry member => le_of_lt (high entry member)
  · intro entry member other otherMember
    rcases List.mem_cons.mp otherMember with rfl | later
    · exact low entry member
    · exact across entry member other later

/-- Reaping keeps creation order. -/
theorem InCreationOrder.dropExpired {set : BindingSet} (ordered : set.InCreationOrder)
    (now : Timestamp) : (set.dropExpired now).InCreationOrder :=
  ordered.sublist List.filter_sublist

end BindingSet

end SipxClstr.Registrar
