import SipxClstr.Registrar.Command
import SipxClstr.Sip.Text

/-!
# The REGISTER decision function

The command in, the current binding set in, the policy in; an outcome out.
-/

namespace SipxClstr.Registrar

open SipxClstr.Sip

variable {K : Kernel} (R : ContactRules K)

/-- The option tags this registrar implements. -/
def supported : List Text :=
  [text "path"]

/-! ## The set under reconciliation -/

/-- What reconciliation knows about one binding beyond the binding itself. -/
structure Slot (K : Kernel) where
  /-- A name for this binding that survives the set being reordered under it. -/
  id : Nat
  /-- The binding's contact URI; `none` when those bytes do not parse. -/
  uri : Option K.Uri
  /-- Whether an earlier operation of this request wrote this binding. -/
  writtenHere : Bool

/-- The binding set under reconciliation, beside the parsed contacts it is matched
by: `slots[i]` describes `set[i]`. -/
structure Reconciling (K : Kernel) where
  set : BindingSet
  slots : List (Slot K)
  nextId : Nat
  aligned : slots.length = set.length

namespace Reconciling

/-- Parse each stored contact once for the whole reconciliation. -/
def new (set : BindingSet) : Reconciling K where
  set := set
  slots := set.mapIdx fun index binding => ⟨index, K.parseUri binding.contact, false⟩
  nextId := set.length
  aligned := List.length_mapIdx

/-- The first binding in creation order whose contact is equivalent to `uri`. -/
def find (view : Reconciling K) (uri : K.Uri) : Option Nat :=
  view.slots.findIdx? fun slot => slot.uri.any fun stored => R.equivalent stored uri

def get (view : Reconciling K) (index : Nat) : Option Binding :=
  view.set[index]?

/-- Whether an earlier operation of this request wrote the binding at `index`. -/
def writtenHere (view : Reconciling K) (index : Nat) : Bool :=
  view.slots[index]?.any Slot.writtenHere

def slotId (view : Reconciling K) (index : Nat) : Option Nat :=
  view.slots[index]?.map Slot.id

theorem aligned_insert (view : Reconciling K) (binding : Binding) (slot : Slot K) :
    (view.slots.take (min (view.set.insertAt R binding).2 view.slots.length) ++ slot ::
      view.slots.drop (min (view.set.insertAt R binding).2 view.slots.length)).length =
        (view.set.insertAt R binding).1.length := by
  have bound := BindingSet.position_le (R := R) view.set binding
  have same := view.aligned
  simp only [BindingSet.insertAt, List.length_append, List.length_cons, List.length_take,
    List.length_drop]
  omega

/-- Add a binding whose contact parsed to `uri`, keeping both halves in creation order. -/
def insert (view : Reconciling K) (binding : Binding) (uri : K.Uri) : Reconciling K where
  set := (view.set.insertAt R binding).1
  slots :=
    -- The clamp is unreachable: an insert lands within the set, and the slots are as long.
    let landed := min (view.set.insertAt R binding).2 view.slots.length
    view.slots.take landed ++ ⟨view.nextId, some uri, true⟩ :: view.slots.drop landed
  nextId := view.nextId + 1
  aligned := aligned_insert R view binding _

/-- Replace the binding at `index` with one whose contact parsed to `uri`. -/
def replace (view : Reconciling K) (index : Nat) (binding : Binding) (uri : K.Uri) :
    Reconciling K :=
  match view.slots[index]? with
  | some slot =>
      { view with
        set := view.set.replace index binding
        slots := view.slots.set index { slot with uri := some uri, writtenHere := true }
        aligned := by rw [List.length_set, view.aligned, BindingSet.replace, List.length_set] }
  | none => view

/-- Drop the binding at `index` from both halves. -/
def remove (view : Reconciling K) (index : Nat) : Reconciling K :=
  if index < view.slots.length then
    { view with
      set := view.set.remove index
      slots := view.slots.eraseIdx index
      aligned := by
        have same := view.aligned
        simp only [BindingSet.remove, List.length_eraseIdx]
        split <;> split <;> omega }
  else
    view

end Reconciling

/-! ## One operation -/

/-- A decision the loop could not answer where it arose: an operation that presents a
spent ordering token again. -/
structure Pending where
  /-- The id of the slot the operation matched. -/
  slot : Nat
  /-- The binding there, as the request found it. -/
  stored : Binding
  /-- The grant of the newest operation so far that resolves to the slot. -/
  net : Nat

/-- Whether the stored binding already is what this command asks for. -/
def alreadyHolds (stored : Binding) (cmd : RegisterCommand K) (granted : Nat) : Bool :=
  if granted = 0 then
    false
  else
    stored.refreshedAt.durationUntil stored.expiresAt = granted * nanosPerSecond &&
      stored.path = cmd.path

/-- How far the reconciliation of a request has come. -/
structure Reconciliation (K : Kernel) where
  view : Reconciling K
  /-- Whether an operation has mutated the view. -/
  changed : Bool
  pending : List Pending

/-- Where the reconciliation of a request starts. -/
def Reconciliation.start (set : BindingSet) : Reconciliation K :=
  ⟨.new set, false, []⟩

/-- This operation is now the request's last word on the slot. -/
def rebase (slot granted : Nat) (pending : List Pending) : List Pending :=
  pending.map fun deferred =>
    if deferred.slot = slot then { deferred with net := granted } else deferred

/-- Remove the binding at `index`, or replace it by what the operation produces. -/
def overwrite (cmd : RegisterCommand K) (view : Reconciling K) (index : Nat) (stored : Binding)
    (op : ContactOp K) (granted : Nat) : Reconciling K :=
  if granted = 0 then
    view.remove index
  else
    view.replace index (bindingFor op cmd granted stored.registeredAt) op.uri

/-- Apply one operation to the set as the preceding ones left it. -/
def applyOp (cmd : RegisterCommand K) (state : Reconciliation K) (op : ContactOp K)
    (granted : Nat) : Except Rejection (Reconciliation K) :=
  match state.view.find R op.uri with
  | none =>
      if granted = 0 then
        -- B1: removing a contact that is not there is not an error.
        .ok state
      else
        .ok { state with
          view := state.view.insert R (bindingFor op cmd granted cmd.now) op.uri
          changed := true }
  | some index =>
      match state.view.slotId index, state.view.get index with
      | some slot, some stored =>
          let pending := rebase slot granted state.pending
          let applied : Reconciliation K :=
            ⟨overwrite cmd state.view index stored op granted, true, pending⟩
          if !state.view.writtenHere index && stored.callId = cmd.callId then
            if cmd.cseq < stored.cseq then
              -- B5
              .error .staleSequence
            else if cmd.cseq = stored.cseq then
              -- B4, or B8's deferred decision
              if alreadyHolds stored cmd granted then
                .ok { state with pending := pending }
              else
                .ok { state with pending := pending ++ [⟨slot, stored, granted⟩] }
            else
              .ok applied
          else
            .ok applied
      | _, _ => .ok state

/-- Apply the operations of a request in the order it states them. -/
def reconcile (cmd : RegisterCommand K) :
    Reconciliation K → List (ContactOp K × Nat) → Except Rejection (Reconciliation K)
  | state, [] => .ok state
  | state, (op, granted) :: rest =>
      match applyOp R cmd state op granted with
      | .error rejection => .error rejection
      | .ok next => reconcile cmd next rest

/-! ## The decision -/

/-- The lifetime a contact operation asks for. -/
def requestedExpiry (cmd : RegisterCommand K) (policy : TenantPolicy) (op : ContactOp K) : Nat :=
  (op.expires.or cmd.expiresHeader).getD policy.defaultExpires

/-- The granted lifetime of every contact operation, decided before any mutation. -/
def grantedExpiries (cmd : RegisterCommand K) (policy : TenantPolicy) :
    List (ContactOp K) → Except Rejection (List Nat)
  | [] => .ok []
  | op :: rest =>
      if requestedExpiry cmd policy op = 0 then
        (grantedExpiries cmd policy rest).map (0 :: ·)
      else if requestedExpiry cmd policy op < policy.minExpires then
        .error (.intervalTooBrief policy.minExpires)
      else
        (grantedExpiries cmd policy rest).map
          (min (requestedExpiry cmd policy op) policy.maxExpires :: ·)

/-- `Contact: *`. -/
def wildcard (cmd : RegisterCommand K) (current : BindingSet) : Outcome :=
  if cmd.expiresHeader ≠ some 0 then
    .reject (.badRequest (text "a wildcard Contact requires an explicit Expires: 0"))
  else
    let set := current.dropExpired cmd.now
    if set.any fun binding => binding.callId = cmd.callId && cmd.cseq ≤ binding.cseq then
      .reject .staleSequence
    else if set.isEmpty then
      .noop .empty
    else
      .commit [] .empty

/-- Explicit `Contact` values. -/
def explicit (cmd : RegisterCommand K) (current : BindingSet) (policy : TenantPolicy)
    (ops : List (ContactOp K)) : Outcome :=
  if ops.isEmpty then
    .noop (describe current cmd.now)
  else
    match grantedExpiries cmd policy ops with
    | .error rejection => .reject rejection
    | .ok grants =>
        let live := current.dropExpired cmd.now
        let reaped := decide (live.length ≠ current.length)
        match reconcile R cmd (.start live) (ops.zip grants) with
        | .error rejection => .reject rejection
        | .ok state =>
            if state.pending.any fun deferred => !alreadyHolds deferred.stored cmd deferred.net then
              .reject .staleSequence
            else
              let set := state.view.set
              if policy.maxBindingsPerAor < set.activeCount cmd.now then
                .reject
                  (.forbidden (text "the address-of-record already holds its maximum bindings"))
              else if state.changed && (reaped || set ≠ current) then
                .commit set (describe set cmd.now)
              else
                .noop (describe set cmd.now)

/-- Decide what a REGISTER does, without doing it. -/
def process (cmd : RegisterCommand K) (current : BindingSet) (policy : TenantPolicy) : Outcome :=
  let unsupported := cmd.require.filter fun tag => toAsciiLowercase tag ∉ supported
  if !unsupported.isEmpty then
    .reject (.badExtension unsupported)
  else if !cmd.path.isEmpty && !cmd.supportsPath then
    .reject (.extensionRequired (text "path"))
  else
    match cmd.contacts with
    | .wildcard => wildcard cmd current
    | .explicit ops =>
        if policy.maxContactOps < ops.length then
          .reject (.forbidden
            (text "the REGISTER carries more contact operations than this tenant permits"))
        else
          explicit R cmd current policy ops

end SipxClstr.Registrar
