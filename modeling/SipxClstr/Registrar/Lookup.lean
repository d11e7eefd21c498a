import SipxClstr.Registrar.Binding
import Mathlib.Data.List.Sort
import Mathlib.Order.OrderDual

/-!
# The lookup contract

An address-of-record to the target set the proxy forks on: the active bindings by
descending preference, then by recency, then by the bytes of their contacts.
-/

namespace SipxClstr.Registrar

open SipxClstr.Sip

/-- One place to try, and what is known about it. -/
structure Target where
  contact : Bytes
  /-- The stored Path vector, topmost first. -/
  routeSet : List Bytes
  flowRef : Option Bytes
  q : Nat
  expiresIn : Nat
  deriving DecidableEq

/-- The order of the lookup: descending `q`, then the more recent first, then
ascending contact bytes. -/
def Binding.lookupKey (binding : Binding) : Natᵒᵈ ×ₗ Natᵒᵈ ×ₗ List Nat :=
  toLex (OrderDual.toDual binding.q,
    toLex (OrderDual.toDual binding.refreshedAt, binding.contact.map UInt8.toNat))

/-- What the lookup says of a binding at `now`. -/
def Binding.target (now : Timestamp) (binding : Binding) : Target where
  contact := binding.contact
  routeSet := binding.path
  flowRef := binding.flowRef
  q := binding.q
  expiresIn := binding.expiresIn now

/-- Order a binding set into the target list the proxy forks on. -/
def orderTargets (set : BindingSet) (now : Timestamp) : List Target :=
  ((set.active now).insertionSort fun first second => first.lookupKey ≤ second.lookupKey).map
    (Binding.target now)

/-- The lookup yields the contacts of the active bindings, each as often as it is
bound. -/
theorem map_contact_orderTargets_perm (set : BindingSet) (now : Timestamp) :
    ((orderTargets set now).map Target.contact).Perm ((set.active now).map Binding.contact) := by
  have sorted := List.perm_insertionSort
    (fun first second : Binding => first.lookupKey ≤ second.lookupKey) (set.active now)
  rw [orderTargets, List.map_map]
  exact sorted.map Binding.contact

/-- Targets come out by descending preference. -/
theorem orderTargets_descending (set : BindingSet) (now : Timestamp) :
    (orderTargets set now).Pairwise fun first second => second.q ≤ first.q := by
  have sorted := List.pairwise_insertionSort
    (fun first second : Binding => first.lookupKey ≤ second.lookupKey) (set.active now)
  rw [orderTargets, List.pairwise_map]
  apply sorted.imp
  intro first second ordered
  exact OrderDual.toDual_le_toDual.mp (Prod.Lex.monotone_fst _ _ ordered)

end SipxClstr.Registrar
