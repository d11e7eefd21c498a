import SipxClstr.Sip.Text

/-!
# IP addresses

The standard library's parser of textual IP addresses.  A reader takes a leading part
of a text and leaves the rest; parsing succeeds where a reader leaves nothing.
-/

namespace SipxClstr.Node

open SipxClstr.Sip

/-- An address, as its octets or its groups. -/
inductive IpAddr where
  | v4 (octets : List Nat)
  | v6 (groups : List Nat)
  deriving DecidableEq, Repr

/-- `0.0.0.0` or `::`. -/
def IpAddr.isUnspecified : IpAddr → Bool
  | .v4 octets => octets.all (· = 0)
  | .v6 groups => groups.all (· = 0)

/-- `char::to_digit`, for a radix up to 16. -/
def toDigit (radix : Nat) (c : Char) : Option Nat :=
  let value :=
    if c.isDigit then some (c.toNat - '0'.toNat)
    else if 'a' ≤ c ∧ c ≤ 'f' then some (c.toNat - 'a'.toNat + 10)
    else if 'A' ≤ c ∧ c ≤ 'F' then some (c.toNat - 'A'.toNat + 10)
    else none
  value.filter fun digit => digit < radix

/-- `read_number`: one or more digits, at most so many, no larger than `max`. -/
def readNumber (radix maxDigits max : Nat) (allowZeroPrefix : Bool) (input : Text) :
    Option (Nat × Text) :=
  let digits := (input.takeWhile fun c => (toDigit radix c).isSome).filterMap (toDigit radix)
  let value := digits.foldl (fun value digit => value * radix + digit) 0
  if digits = [] ∨ maxDigits < digits.length ∨ max < value then none
  else if !allowZeroPrefix && input.head? = some '0' && 1 < digits.length then none
  else some (value, input.drop digits.length)

/-- `read_separator`: every item but the first stands behind the separator. -/
def readSeparator {α : Type} (separator : Char) (index : Nat) (inner : Text → Option (α × Text))
    (input : Text) : Option (α × Text) :=
  if index = 0 then inner input
  else match input with
    | [] => none
    | c :: rest => if c = separator then inner rest else none

/-- The octets from this one on. -/
def readOctets : Nat → Nat → Text → Option (List Nat × Text)
  | 0, _, input => some ([], input)
  | count + 1, index, input => do
      let (octet, rest) ← readSeparator '.' index (readNumber 10 3 255 false) input
      let (octets, rest) ← readOctets count (index + 1) rest
      some (octet :: octets, rest)

/-- `read_ipv4_addr`. -/
def readIpv4Addr (input : Text) : Option (List Nat × Text) :=
  readOctets 4 0 input

/-- The two groups an embedded IPv4 address stands for. -/
def embeddedGroups : List Nat → List Nat
  | [one, two, three, four] => [one * 256 + two, three * 256 + four]
  | _ => []

/-- `read_groups`: the groups read, and whether an IPv4 address ended them. -/
def readGroups : Nat → Nat → Text → List Nat × Bool × Text
  | 0, _, input => ([], false, input)
  | count + 1, index, input =>
      match if 0 < count then readSeparator ':' index readIpv4Addr input else none with
      | some (octets, rest) => (embeddedGroups octets, true, rest)
      | none =>
          match readSeparator ':' index (readNumber 16 4 65535 true) input with
          | some (group, rest) =>
              let (groups, embedded, rest) := readGroups count (index + 1) rest
              (group :: groups, embedded, rest)
          | none => ([], false, input)

/-- `read_ipv6_addr`. -/
def readIpv6Addr (input : Text) : Option (List Nat × Text) :=
  let (head, embedded, rest) := readGroups 8 0 input
  if head.length = 8 then
    some (head, rest)
  else if embedded then
    none
  else
    match rest with
    | ':' :: ':' :: rest =>
        let (tail, _, rest) := readGroups (8 - (head.length + 1)) 0 rest
        some (head ++ List.replicate (8 - head.length - tail.length) 0 ++ tail, rest)
    | _ => none

/-- `read_ip_addr`. -/
def readIpAddr (input : Text) : Option (IpAddr × Text) :=
  ((readIpv4Addr input).map fun (octets, rest) => (.v4 octets, rest)).or
    ((readIpv6Addr input).map fun (groups, rest) => (.v6 groups, rest))

/-- `str::parse::<IpAddr>`. -/
def parseIpAddr (input : Text) : Option IpAddr :=
  match readIpAddr input with
  | some (address, []) => some address
  | _ => none

/-- Whether `str::parse::<Ipv6Addr>` succeeds. -/
def isIpv6 (input : Text) : Bool :=
  match readIpv6Addr input with
  | some (_, []) => true
  | _ => false

/-! ## What an address is spelled with -/

/-- A reader that succeeds leaves this character where it finds it. -/
def Leaves {α : Type} (c : Char) (reader : Text → Option (α × Text)) : Prop :=
  ∀ input value rest, reader input = some (value, rest) → c ∈ input → c ∈ rest

/-- Neither a digit nor a separator. -/
structure Foreign (c : Char) : Prop where
  noDigit : ∀ radix, radix = 10 ∨ radix = 16 → toDigit radix c = none
  noDot : c ≠ '.'
  noColon : c ≠ ':'

theorem foreign_semicolon : Foreign ';' := by
  constructor
  · rintro radix (rfl | rfl) <;> decide
  · decide
  · decide

theorem leaves_readNumber {c : Char} {radix : Nat} (noDigit : toDigit radix c = none)
    (maxDigits max : Nat) (allowZeroPrefix : Bool) :
    Leaves c (readNumber radix maxDigits max allowZeroPrefix) := by
  intro input value rest isRead member
  unfold readNumber at isRead
  simp only at isRead
  split at isRead
  · contradiction
  split at isRead
  · contradiction
  obtain ⟨-, rfl⟩ := Prod.mk.inj (Option.some.inj isRead)
  rw [← List.take_append_drop _ input, List.mem_append] at member
  rcases member with taken | left
  · -- What is taken is among the digits in front.
    have isPrefix := List.takeWhile_prefix (l := input) fun c => (toDigit radix c).isSome
    have short := List.length_filterMap_le (toDigit radix)
      (input.takeWhile fun c => (toDigit radix c).isSome)
    have digits : c ∈ input.takeWhile fun c => (toDigit radix c).isSome := by
      rw [List.prefix_iff_eq_take.mp isPrefix]
      exact List.take_subset_take_left input short taken
    have isDigit := List.mem_takeWhile_imp digits
    rw [noDigit] at isDigit
    contradiction
  · exact left

theorem Leaves.readSeparator {α : Type} {c separator : Char} {inner : Text → Option (α × Text)}
    (leaves : Leaves c inner) (differs : c ≠ separator) (index : Nat) :
    Leaves c (readSeparator separator index inner) := by
  intro input value rest isRead member
  unfold Node.readSeparator at isRead
  split at isRead
  · exact leaves input value rest isRead member
  · split at isRead
    · contradiction
    next head tail =>
      split at isRead
      · next isSeparator =>
          rcases List.mem_cons.mp member with isHead | later
          · exact absurd (isHead.trans isSeparator) differs
          · exact leaves tail value rest isRead later
      · contradiction

theorem leaves_readOctets {c : Char} (foreign : Foreign c) (count index : Nat) :
    Leaves c (readOctets count index) := by
  induction count generalizing index with
  | zero =>
      intro input value rest isRead member
      obtain ⟨-, rfl⟩ := Prod.mk.inj (Option.some.inj isRead)
      exact member
  | succ count ih =>
      intro input value rest isRead member
      simp only [readOctets, Option.bind_eq_bind, Option.bind_eq_some_iff, Prod.exists] at isRead
      obtain ⟨octet, between, first, octets, last, others, isRest⟩ := isRead
      obtain ⟨-, rfl⟩ := Prod.mk.inj (Option.some.inj isRest)
      have number := leaves_readNumber (foreign.noDigit 10 (.inl rfl)) 3 255 false
      exact ih _ _ _ _ others (number.readSeparator foreign.noDot index _ _ _ first member)

theorem mem_readGroups {c : Char} (foreign : Foreign c) (count index : Nat) {input : Text}
    (member : c ∈ input) : c ∈ (readGroups count index input).2.2 := by
  induction count generalizing index input with
  | zero => exact member
  | succ count ih =>
      unfold readGroups
      split
      · next octets rest isRead =>
          split at isRead
          · exact (leaves_readOctets foreign 4 0).readSeparator foreign.noColon index _ _ _ isRead
              member
          · contradiction
      · split
        · next group rest isRead =>
            have number := leaves_readNumber (foreign.noDigit 16 (.inr rfl)) 4 65535 true
            exact ih _ (number.readSeparator foreign.noColon index _ _ _ isRead member)
        · exact member

theorem leaves_readIpv6Addr {c : Char} (foreign : Foreign c) : Leaves c readIpv6Addr := by
  intro input value rest isRead member
  have left := mem_readGroups foreign 8 0 member
  unfold readIpv6Addr at isRead
  simp only at isRead
  split at isRead
  · obtain ⟨-, rfl⟩ := Prod.mk.inj (Option.some.inj isRead)
    exact left
  split at isRead
  · contradiction
  split at isRead
  · next tail isTail =>
      obtain ⟨-, rfl⟩ := Prod.mk.inj (Option.some.inj isRead)
      rw [isTail] at left
      apply mem_readGroups foreign
      simpa [foreign.noColon] using left
  · contradiction

/-- An IPv6 address is spelled with digits and separators alone. -/
theorem notMem_of_isIpv6 {c : Char} {input : Text} (isAddress : isIpv6 input = true)
    (foreign : Foreign c) : c ∉ input := by
  intro member
  unfold isIpv6 at isAddress
  split at isAddress
  · next groups isRead => exact absurd (leaves_readIpv6Addr foreign _ _ _ isRead member) List.not_mem_nil
  · contradiction

/-! ## How an address prints -/

/-- Parts joined by a separator. -/
def separated (separator : Char) (parts : List Text) : Text :=
  [separator].intercalate parts

def dotted (octets : List Nat) : Text :=
  separated '.' (octets.map decimal)

/-- Groups in lower-case hexadecimal. -/
def shownGroups (groups : List Nat) : Text :=
  separated ':' (groups.map (Nat.toDigits 16))

/-- The first of the longest runs of zero groups, as where it starts and how long it is:
the longest so far, and the one that reaches up to the next group. -/
def longestZeroes : List Nat → Nat → Nat × Nat → Nat × Nat → Nat × Nat
  | [], _, longest, _ => longest
  | group :: rest, index, longest, current =>
      if group = 0 then
        let current := if current.2 = 0 then (index, 1) else (current.1, current.2 + 1)
        longestZeroes rest (index + 1) (if longest.2 < current.2 then current else longest) current
      else
        longestZeroes rest (index + 1) longest (0, 0)

/-- `to_string`. -/
def IpAddr.shown : IpAddr → Text
  | .v4 octets => dotted octets
  | .v6 [0, 0, 0, 0, 0, 65535, high, low] =>
      text "::ffff:" ++ dotted [high / 256, high % 256, low / 256, low % 256]
  | .v6 groups =>
      let (start, length) := longestZeroes groups 0 (0, 0) (0, 0)
      if 1 < length then
        shownGroups (groups.take start) ++ text "::" ++ shownGroups (groups.drop (start + length))
      else
        shownGroups groups

example : (IpAddr.v6 [0x2001, 0xdb8, 0, 0, 1, 0, 0, 1]).shown = text "2001:db8::1:0:0:1" := by
  decide +kernel

example : parseIpAddr (text "2001:DB8::192.0.2.1") =
    some (.v6 [0x2001, 0xdb8, 0, 0, 0, 0, 0xc000, 0x201]) := by decide

example : (text "1.2.3.04" :: text "1:2:3:4:5:6:7:8:9" :: text "12345::" :: [text ":::"]).map
    parseIpAddr = [none, none, none, none] := by decide

end SipxClstr.Node
