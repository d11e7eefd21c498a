import Mathlib.Order.Basic
import Mathlib.Order.Lattice

/-!
# Virtual time

Nanoseconds since a scenario started.  An instant is a `u64`: what would lie behind the last
one lands on it.
-/

namespace SipxClstr.Simulation

/-- `u64::MAX`. -/
def lastNanos : Nat :=
  18446744073709551615

structure SimTime where
  nanos : Nat
  fits : nanos ≤ lastNanos
  deriving DecidableEq

namespace SimTime

theorem nanos_injective : Function.Injective nanos := by
  rintro ⟨first, _⟩ ⟨second, _⟩ same
  cases same
  rfl

instance : LinearOrder SimTime :=
  .lift' nanos nanos_injective

/-- The instant every scenario starts at. -/
def start : SimTime :=
  ⟨0, Nat.zero_le _⟩

/-- The instant no scenario gets past. -/
def last : SimTime :=
  ⟨lastNanos, Nat.le_refl _⟩

/-- This instant plus a duration, saturating. -/
def saturatingAdd (instant : SimTime) (after : Nat) : SimTime :=
  ⟨min (instant.nanos + after) lastNanos, Nat.min_le_right _ _⟩

/-- How long from `earlier` to here; zero if `earlier` is later. -/
def since (instant earlier : SimTime) : Nat :=
  instant.nanos - earlier.nanos

theorem le_saturatingAdd (instant : SimTime) (after : Nat) : instant ≤ instant.saturatingAdd after :=
  Nat.le_min.mpr ⟨Nat.le_add_right _ _, instant.fits⟩

/-- A delay measured from here leads back. -/
theorem saturatingAdd_since {instant earlier : SimTime} (later : earlier ≤ instant) :
    earlier.saturatingAdd (instant.since earlier) = instant := by
  apply nanos_injective
  have gap : earlier.nanos + (instant.nanos - earlier.nanos) = instant.nanos :=
    Nat.add_sub_cancel' later
  simp only [saturatingAdd, since, gap]
  exact Nat.min_eq_left instant.fits

end SimTime

end SipxClstr.Simulation
