import SipxClstr.Registrar.Command
import SipxClstr.Sip.Reference

/-!
# Reference contact rules

A comparison of the reference kernel's URIs to run the registrar with: scheme, user,
host and port must agree, and so must the parameters both carry and those that never
match when only one carries them.
-/

namespace SipxClstr.Registrar.Reference

open SipxClstr.Sip SipxClstr.Sip.Reference

/-- The parameters that never match when only one URI carries them. -/
def decisive : List Text :=
  [text "user", text "ttl", text "method", text "maddr"]

/-- Every parameter of the first list is matched by the second, or ignored. -/
def agrees (first second : List (Text × Option Text)) : Bool :=
  first.all fun (name, value) =>
    match second.lookup name with
    | some other => value.map toAsciiLowercase = other.map toAsciiLowercase
    | none => name ∉ decisive

/-- RFC 3261 §19.1.4. -/
def equivalent (first second : ParsedUri) : Bool :=
  first = second ||
    (first.host.isSome && second.host.isSome &&
      toAsciiLowercase first.scheme = toAsciiLowercase second.scheme &&
      first.user = second.user &&
      first.host.map toAsciiLowercase = second.host.map toAsciiLowercase &&
      first.port = second.port &&
      agrees first.params second.params && agrees second.params first.params)

/-- The first element that fails the predicate, or the length. -/
def partitionPoint (answers : List Bool) : Nat :=
  (answers.takeWhile id).length

theorem equivalent_refl (uri : ParsedUri) : equivalent uri uri = true :=
  Bool.or_eq_true_iff.mpr (.inl (decide_eq_true rfl))

def rules : ContactRules kernel where
  equivalent := equivalent
  equivalent_refl := equivalent_refl
  equivalent_symm first second := by
    simp only [equivalent, Bool.or_eq_true, Bool.and_eq_true, decide_eq_true_eq]
    rintro (rfl | ⟨⟨⟨⟨⟨⟨⟨left, right⟩, scheme⟩, user⟩, host⟩, port⟩, forward⟩, backward⟩)
    · exact .inl rfl
    · exact .inr ⟨⟨⟨⟨⟨⟨⟨right, left⟩, scheme.symm⟩, user.symm⟩, host.symm⟩, port.symm⟩, backward⟩,
        forward⟩
  partitionPoint := partitionPoint
  partitionPoint_le answers := (List.takeWhile_sublist id).length_le
  partitionPoint_partitioned before after := by
    have all : ∀ answer ∈ List.replicate before true, id answer = true := by
      intro answer member
      exact List.eq_of_mem_replicate member
    rw [partitionPoint, List.takeWhile_append_of_pos all]
    cases after with
    | zero => simp
    | succ rest => simp [List.replicate_succ]

/-- A contact operation on a URI that parses. -/
def contactOp (verbatim : String) (uri : ParsedUri) (spells : parseUri (bytes verbatim) = some uri)
    (expires : Nat) : ContactOp kernel where
  uri := uri
  verbatim := bytes verbatim
  spells := spells
  expires := some expires
  q := none
  instanceId := none
  regId := none
  push := none

/-- A REGISTER of one address-of-record, at a time given in seconds. -/
def registerAt (seconds : Nat) (callId : String) (cseq : Nat) (contacts : ContactOps kernel) :
    RegisterCommand kernel where
  tenant := text "t"
  aor := ⟨text "sip:alice@example.test"⟩
  callId := bytes callId
  cseq := cseq
  contacts := contacts
  expiresHeader := none
  path := []
  supportsPath := false
  require := []
  received := none
  flowRef := none
  principal := none
  now := seconds * nanosPerSecond

/-- The contacts of the examples: one user behind a host that is spelled in several
ways or tagged with a line. -/
def bare : String := "sip:x@h"

def line1 : String := "sip:x@h;line=1"

def line2 : String := "sip:x@h;line=2"

def opBare (expires : Nat) : ContactOp kernel :=
  contactOp bare (Reference.uri bare) (by decide +kernel) expires

def opLine1 (expires : Nat) : ContactOp kernel :=
  contactOp line1 (Reference.uri line1) (by decide +kernel) expires

def opLine2 (expires : Nat) : ContactOp kernel :=
  contactOp line2 (Reference.uri line2) (by decide +kernel) expires

/-- The comparison is not transitive: a bare contact matches both tagged ones, which
do not match each other. -/
example : equivalent (uri line1) (uri bare) = true ∧ equivalent (uri bare) (uri line2) = true ∧
    equivalent (uri line1) (uri line2) = false := by
  decide +kernel

end SipxClstr.Registrar.Reference
