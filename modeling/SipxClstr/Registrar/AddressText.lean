import SipxClstr.Registrar.Aor
import SipxClstr.Sip.Utf8

/-!
# Addresses told by their text

No two addresses share a text.  The text of an IPv6 address is read back from what stands
between its colons: an empty part marks the run of zeros that was left out.
-/

namespace SipxClstr.Registrar

open SipxClstr.Sip

/-! ## Numbers -/

theorem digitChar_injective {first second : Nat} (firstFits : first < 16)
    (secondFits : second < 16) (same : first.digitChar = second.digitChar) : first = second := by
  have all : ∀ first second : Fin 16, first.val.digitChar = second.val.digitChar →
      first.val = second.val := by
    decide
  exact all ⟨first, firstFits⟩ ⟨second, secondFits⟩ same

/-- Digits tell the number. -/
theorem toDigits_injective {base : Nat} (large : 1 < base) (small : base ≤ 16) :
    Function.Injective (Nat.toDigits base) := by
  have several : ∀ high low single : Nat,
      Nat.toDigits base high ++ [low.digitChar] ≠ [single.digitChar] := by
    intro high low single same
    have lengths := congrArg List.length same
    have some : Nat.toDigits base high ≠ [] := Nat.toDigits_ne_nil
    rw [List.length_append, List.length_singleton, List.length_singleton] at lengths
    exact some (List.length_eq_zero_iff.mp (by omega))
  have digit : ∀ first second : Nat, (first % base).digitChar = (second % base).digitChar →
      first % base = second % base := by
    intro first second
    apply digitChar_injective
    · exact lt_of_lt_of_le (Nat.mod_lt first (by omega)) small
    · exact lt_of_lt_of_le (Nat.mod_lt second (by omega)) small
  intro first
  induction first using Nat.strongRecOn with
  | ind first ih =>
      intro second same
      have isFirst := Nat.toDigits_eq_if (n := first) large
      have isSecond := Nat.toDigits_eq_if (n := second) large
      rw [isFirst, isSecond] at same
      by_cases single : first < base
      · by_cases other : second < base
        · rw [if_pos single, if_pos other, List.cons.injEq] at same
          exact digitChar_injective (lt_of_lt_of_le single small) (lt_of_lt_of_le other small)
            same.1
        · rw [if_pos single, if_neg other] at same
          exact absurd same.symm (several _ _ _)
      · by_cases other : second < base
        · rw [if_neg single, if_pos other] at same
          exact absurd same (several _ _ _)
        · rw [if_neg single, if_neg other] at same
          rcases List.append_inj' same rfl with ⟨high, low⟩
          have quotient : first / base = second / base :=
            ih (first / base) (Nat.div_lt_self (by omega) large) high
          rw [← Nat.div_add_mod first base, quotient, digit first second (List.cons.inj low).1,
            Nat.div_add_mod]

theorem decimal_injective : Function.Injective decimal :=
  toDigits_injective (by decide) (by decide)

/-- Digits up to sixteen are letters and digits. -/
theorem isAlphanum_of_mem_toDigits {base value : Nat} (large : 1 < base) (small : base ≤ 16)
    {digit : Char} (member : digit ∈ Nat.toDigits base value) : digit.isAlphanum = true := by
  have all : ∀ digit : Fin 16, digit.val.digitChar.isAlphanum = true := by
    decide
  induction value using Nat.strongRecOn with
  | ind value ih =>
      rw [Nat.toDigits_eq_if large] at member
      split at member
      · next single =>
          rw [List.mem_singleton] at member
          rw [member]
          exact all ⟨value, lt_of_lt_of_le single small⟩
      · rcases List.mem_append.mp member with high | low
        · exact ih (value / base) (Nat.div_lt_self (by omega) large) high
        · rw [List.mem_singleton] at low
          rw [low]
          exact all ⟨value % base, lt_of_lt_of_le (Nat.mod_lt value (by omega)) small⟩

theorem notMem_toDigits {base value : Nat} (large : 1 < base) (small : base ≤ 16)
    {separator : Char} (other : separator.isAlphanum = false) :
    separator ∉ Nat.toDigits base value := by
  intro member
  rw [isAlphanum_of_mem_toDigits large small member] at other
  contradiction

/-! ## IPv4 -/

/-- What stands before the first separator, and what behind it. -/
theorem append_cons_inj {α : Type} [DecidableEq α] {separator : α}
    {before behind before' behind' : List α}
    (free : separator ∉ before) (free' : separator ∉ before')
    (same : before ++ separator :: behind = before' ++ separator :: behind') :
    before = before' ∧ behind = behind' := by
  have parts := congrArg (List.splitOn separator) same
  rw [List.splitOn_append_cons_self_of_not_mem free,
    List.splitOn_append_cons_self_of_not_mem free', List.cons.injEq] at parts
  have joined := congrArg [separator].intercalate parts.2
  rw [List.intercalate_splitOn, List.intercalate_splitOn] at joined
  exact ⟨parts.1, joined⟩

theorem ipv4Text_injective : Function.Injective ipv4Text := by
  intro first second same
  have free : ∀ value, '.' ∉ decimal value := fun _ =>
    notMem_toDigits (by decide) (by decide) (by decide)
  simp only [ipv4Text, List.append_assoc, List.cons_append] at same
  rcases append_cons_inj (free _) (free _) same with ⟨octet3, same⟩
  rcases append_cons_inj (free _) (free _) same with ⟨octet2, same⟩
  rcases append_cons_inj (free _) (free _) same with ⟨octet1, octet0⟩
  have octet3 : first.toNat / 16777216 % 256 = second.toNat / 16777216 % 256 :=
    decimal_injective octet3
  have octet2 : first.toNat / 65536 % 256 = second.toNat / 65536 % 256 := decimal_injective octet2
  have octet1 : first.toNat / 256 % 256 = second.toNat / 256 % 256 := decimal_injective octet1
  have octet0 : first.toNat / 1 % 256 = second.toNat / 1 % 256 := decimal_injective octet0
  apply BitVec.eq_of_toNat_eq
  have firstFits := first.isLt
  have secondFits := second.isLt
  omega

/-- The characters of an IPv4 address. -/
theorem mem_ipv4Text {address : BitVec 32} {c : Char} (member : c ∈ ipv4Text address) :
    c.isDigit = true ∨ c = '.' := by
  simp only [ipv4Text, List.append_assoc, List.cons_append, List.mem_append, List.mem_cons]
    at member
  rcases member with digit | dot | digit | dot | digit | dot | digit
  · exact .inl (isDigit_of_mem_decimal digit)
  · exact .inr dot
  · exact .inl (isDigit_of_mem_decimal digit)
  · exact .inr dot
  · exact .inl (isDigit_of_mem_decimal digit)
  · exact .inr dot
  · exact .inl (isDigit_of_mem_decimal digit)

/-! ## IPv6 -/

/-- The segments a span covers are zero. -/
def Zeros (segments : List Nat) (span : Span) : Prop :=
  ∀ index, span.start ≤ index → index < span.start + span.length → segments[index]? = some 0

theorem zeros_empty (segments : List Nat) (start : Nat) : Zeros segments ⟨start, 0⟩ := by
  intro index above below
  exact absurd below (not_lt.mpr above)

theorem zeros_longestZeros {rest done : List Nat} {longest current : Span}
    (zeros : Zeros (done ++ rest) longest) (running : Zeros (done ++ rest) current)
    (ends : current.length = 0 ∨ current.start + current.length = done.length) :
    Zeros (done ++ rest) (longestZeros rest done.length longest current) := by
  induction rest generalizing done longest current with
  | nil => exact zeros
  | cons segment rest ih =>
      have split : done ++ segment :: rest = (done ++ [segment]) ++ rest := by
        simp
      have length : (done ++ [segment]).length = done.length + 1 := by
        simp
      unfold longestZeros
      by_cases isZero : segment = 0
      · subst isZero
        have here : (done ++ 0 :: rest)[done.length]? = some 0 := by
          simp
        have grown : Zeros (done ++ 0 :: rest) (if current.length = 0 then ⟨done.length, 1⟩
              else ⟨current.start, current.length + 1⟩) ∧
            (if current.length = 0 then (⟨done.length, 1⟩ : Span)
                else ⟨current.start, current.length + 1⟩).start +
              (if current.length = 0 then (⟨done.length, 1⟩ : Span)
                else ⟨current.start, current.length + 1⟩).length = done.length + 1 := by
          by_cases none : current.length = 0
          · rw [if_pos none]
            refine ⟨?_, rfl⟩
            intro index above below
            have isHere : index = done.length := Nat.le_antisymm (Nat.le_of_lt_succ below) above
            rw [isHere, here]
          · have reached := ends.resolve_left none
            rw [if_neg none]
            refine ⟨?_, congrArg (· + 1) reached⟩
            intro index above below
            by_cases earlier : index < current.start + current.length
            · exact running index above earlier
            · have isHere : index = done.length := by
                dsimp only at below
                omega
              rw [isHere, here]
        rw [if_pos rfl, ← length, split]
        rw [split, ← length] at grown
        rw [split] at zeros
        generalize (if current.length = 0 then (⟨done.length, 1⟩ : Span)
          else ⟨current.start, current.length + 1⟩) = longer at grown ⊢
        apply ih _ grown.1 (.inr grown.2)
        split
        · exact grown.1
        · exact zeros
      · rw [if_neg isZero, ← length, split]
        rw [split] at zeros
        exact ih zeros (zeros_empty _ _) (.inl rfl)

/-- The parts of a text of segments. -/
def partsOf (chunk : List Nat) : List Text :=
  if chunk = [] then [[]] else chunk.map (Nat.toDigits 16)

theorem splitOn_segmentsText (chunk : List Nat) :
    (segmentsText chunk).splitOn ':' = partsOf chunk := by
  unfold partsOf segmentsText
  split
  · next none =>
      rw [none]
      rfl
  · next some =>
      apply List.splitOn_intercalate
      · intro part member
        rcases List.mem_map.mp member with ⟨segment, -, rfl⟩
        exact notMem_toDigits (by decide) (by decide) (by decide)
      · simpa using some

theorem nil_notMem_map_toDigits (chunk : List Nat) : [] ∉ chunk.map (Nat.toDigits 16) := by
  intro member
  rcases List.mem_map.mp member with ⟨segment, -, isNil⟩
  exact Nat.toDigits_ne_nil isNil

theorem map_toDigits_injective :
    Function.Injective (List.map (Nat.toDigits 16)) :=
  List.map_injective_iff.mpr (toDigits_injective (by decide) (by decide))

theorem partsOf_injective : Function.Injective partsOf := by
  intro first second same
  unfold partsOf at same
  split at same
  · next none =>
      split at same
      · next other => rw [none, other]
      · exact absurd (same ▸ List.mem_singleton_self []) (nil_notMem_map_toDigits second)
  · split at same
    · exact absurd (same ▸ List.mem_singleton_self []) (nil_notMem_map_toDigits first)
    · exact map_toDigits_injective same

theorem nil_notMem_partsOf {chunk : List Nat} (some : chunk ≠ []) : [] ∉ partsOf chunk := by
  rw [partsOf, if_neg some]
  exact nil_notMem_map_toDigits chunk

/-- The segments around a run of zeros that was left out. -/
theorem compressed_injective {head tail head' tail' : List Nat}
    (same : partsOf head ++ [] :: partsOf tail = partsOf head' ++ [] :: partsOf tail') :
    head = head' ∧ tail = tail' := by
  have starts : ∀ (chunk tail tail' : List Nat), chunk ≠ [] →
      partsOf [] ++ [] :: partsOf tail ≠ partsOf chunk ++ [] :: partsOf tail' := by
    intro chunk tail tail' some same
    cases chunk with
    | nil => contradiction
    | cons segment rest =>
        have isParts : partsOf (segment :: rest) = (segment :: rest).map (Nat.toDigits 16) :=
          if_neg some
        rw [isParts] at same
        exact Nat.toDigits_ne_nil (List.cons.inj same).1.symm
  by_cases none : head = []
  · subst none
    by_cases other : head' = []
    · subst other
      rw [List.append_cancel_left_eq, List.cons.injEq] at same
      exact ⟨rfl, partsOf_injective same.2⟩
    · exact absurd same (starts _ _ _ other)
  · by_cases other : head' = []
    · subst other
      exact absurd same.symm (starts _ _ _ none)
    · rcases append_cons_inj (nil_notMem_partsOf none) (nil_notMem_partsOf other) same with
        ⟨heads, tails⟩
      exact ⟨partsOf_injective heads, partsOf_injective tails⟩

/-- Eight segments give the address back. -/
theorem segments_injective : Function.Injective segments := by
  intro first second same
  simp only [segments, List.map_cons, List.map_nil, List.cons.injEq, and_true] at same
  have firstFits := first.isLt
  have secondFits := second.isLt
  apply BitVec.eq_of_toNat_eq
  rcases same with ⟨seven, six, five, four, three, two, one, zero⟩
  simp only [Nat.pow_eq, Nat.reducePow] at seven six five four three two one zero
  omega

/-- What a run of zeros leaves of the segments. -/
theorem splitOn_compressed (head tail : List Nat) :
    (segmentsText head ++ text "::" ++ segmentsText tail).splitOn ':' =
      partsOf head ++ [] :: partsOf tail := by
  have colons : segmentsText head ++ text "::" ++ segmentsText tail =
      segmentsText head ++ ':' :: ([] ++ ':' :: segmentsText tail) := by
    simp [text]
  rw [colons, List.splitOn_append_cons_self, List.splitOn_append_cons_self, splitOn_segmentsText,
    splitOn_segmentsText]
  rfl

theorem mem_segmentsText {chunk : List Nat} {c : Char} (member : c ∈ segmentsText chunk) :
    c.isAlphanum = true ∨ c = ':' := by
  induction chunk with
  | nil => contradiction
  | cons segment rest ih =>
      cases rest with
      | nil =>
          left
          simp only [segmentsText, List.map_cons, List.map_nil, List.intercalate_singleton] at member
          exact isAlphanum_of_mem_toDigits (by decide) (by decide) member
      | cons next rest =>
          simp only [segmentsText, List.map_cons, List.intercalate_cons_cons, List.append_assoc,
            List.mem_append, List.mem_singleton] at member ih
          rcases member with digit | colon | later
          · exact .inl (isAlphanum_of_mem_toDigits (by decide) (by decide) digit)
          · exact .inr colon
          · exact ih later

/-- What a run of zeros leaves gives the segments back. -/
theorem eq_of_zeros {segments segments' : List Nat} {span span' : Span}
    (length : segments.length = segments'.length) (zeros : Zeros segments span)
    (zeros' : Zeros segments' span') (some : 0 < span.length) (some' : 0 < span'.length)
    (heads : segments.take span.start = segments'.take span'.start)
    (tails : segments.drop (span.start + span.length) =
      segments'.drop (span'.start + span'.length)) : segments = segments' := by
  have within : ∀ {segments : List Nat} {span : Span}, Zeros segments span → 0 < span.length →
      span.start + span.length ≤ segments.length := by
    intro segments span zeros some
    have last := zeros (span.start + span.length - 1) (by omega) (by omega)
    have bound := (List.getElem?_eq_some_iff.mp last).1
    omega
  have fits := within zeros some
  have fits' := within zeros' some'
  have headLengths := congrArg List.length heads
  have tailLengths := congrArg List.length tails
  rw [List.length_take, List.length_take] at headLengths
  rw [List.length_drop, List.length_drop] at tailLengths
  have starts : span.start = span'.start := by omega
  have lengths : span.length = span'.length := by omega
  apply List.ext_getElem?
  intro index
  by_cases before : index < span.start
  · rw [← List.getElem?_take_of_lt before, heads, List.getElem?_take_of_lt (starts ▸ before)]
  · by_cases inside : index < span.start + span.length
    · rw [zeros index (by omega) inside, zeros' index (by omega) (by omega)]
    · have behind : index = span.start + span.length + (index - (span.start + span.length)) := by
        omega
      rw [behind, ← List.getElem?_drop, tails, List.getElem?_drop, starts, lengths]

/-- The text of an address that is not an embedded IPv4 address gives its segments back. -/
theorem unmapped_injective {first second : BitVec 128}
    (unmapped : first.toNat / 4294967296 ≠ 65535) (unmapped' : second.toNat / 4294967296 ≠ 65535)
    (same : ipv6Text first = ipv6Text second) : first = second := by
  have zeros : ∀ address, Zeros ([] ++ segments address)
      (longestZeros (segments address) ([] : List Nat).length ⟨0, 0⟩ ⟨0, 0⟩) :=
    fun address => zeros_longestZeros (zeros_empty _ 0) (zeros_empty _ 0) (.inl rfl)
  simp only [List.nil_append, List.length_nil] at zeros
  have full : ∀ address : BitVec 128, segments address ≠ [] := by
    intro address
    simp [segments]
  apply segments_injective
  have parts := congrArg (List.splitOn ':') same
  unfold ipv6Text at parts
  rw [if_neg unmapped, if_neg unmapped'] at parts
  dsimp only at parts
  have firstZeros := zeros first
  have secondZeros := zeros second
  generalize longestZeros (segments first) 0 ⟨0, 0⟩ ⟨0, 0⟩ = span at parts firstZeros
  generalize longestZeros (segments second) 0 ⟨0, 0⟩ ⟨0, 0⟩ = span' at parts secondZeros
  by_cases runs : 1 < span.length
  · by_cases runs' : 1 < span'.length
    · rw [if_pos runs, if_pos runs', splitOn_compressed, splitOn_compressed] at parts
      rcases compressed_injective parts with ⟨heads, tails⟩
      exact eq_of_zeros rfl firstZeros secondZeros (by omega) (by omega) heads tails
    · rw [if_pos runs, if_neg runs', splitOn_compressed, splitOn_segmentsText] at parts
      exact absurd (parts ▸ List.mem_append_right _ List.mem_cons_self)
        (nil_notMem_partsOf (full second))
  · by_cases runs' : 1 < span'.length
    · rw [if_neg runs, if_pos runs', splitOn_compressed, splitOn_segmentsText] at parts
      exact absurd (parts ▸ List.mem_append_right _ List.mem_cons_self)
        (nil_notMem_partsOf (full first))
    · rw [if_neg runs, if_neg runs', splitOn_segmentsText, splitOn_segmentsText] at parts
      exact partsOf_injective parts

theorem mem_ipv6Text {address : BitVec 128} {c : Char} (member : c ∈ ipv6Text address) :
    c.isAlphanum = true ∨ c = ':' ∨ c = '.' := by
  have digit : ∀ {c : Char}, c.isDigit = true → c.isAlphanum = true := by
    intro c isDigit
    simp [Char.isAlphanum, isDigit]
  unfold ipv6Text at member
  split at member
  · rcases List.mem_append.mp member with start | octets
    · have letters : ∀ c ∈ text "::ffff:", c.isAlphanum = true ∨ c = ':' := by decide
      exact (letters c start).imp_right .inl
    · rcases mem_ipv4Text octets with isDigit | dot
      · exact .inl (digit isDigit)
      · exact .inr (.inr dot)
  · dsimp only at member
    split at member
    · rw [List.mem_append, List.mem_append] at member
      rcases member with (head | colons) | tail
      · exact (mem_segmentsText head).imp_right .inl
      · have only : ∀ c ∈ text "::", c = ':' := by decide
        exact .inr (.inl (only c colons))
      · exact (mem_segmentsText tail).imp_right .inl
    · exact (mem_segmentsText member).imp_right .inl

theorem dot_notMem_unmapped {address : BitVec 128} (unmapped : address.toNat / 4294967296 ≠ 65535) :
    '.' ∉ ipv6Text address := by
  have free : ∀ chunk, '.' ∉ segmentsText chunk := by
    intro chunk member
    rcases mem_segmentsText member with letter | colon
    · contradiction
    · contradiction
  have colons : '.' ∉ text "::" := by decide
  unfold ipv6Text
  rw [if_neg unmapped]
  dsimp only
  split
  · rw [List.mem_append, List.mem_append]
    rintro ((head | between) | tail)
    · exact free _ head
    · exact colons between
    · exact free _ tail
  · exact free _

theorem dot_mem_mapped {address : BitVec 128} (mapped : address.toNat / 4294967296 = 65535) :
    '.' ∈ ipv6Text address := by
  unfold ipv6Text
  rw [if_pos mapped]
  simp [ipv4Text]

theorem ipv6Text_injective : Function.Injective ipv6Text := by
  intro first second same
  by_cases mapped : first.toNat / 4294967296 = 65535
  · by_cases mapped' : second.toNat / 4294967296 = 65535
    · unfold ipv6Text at same
      rw [if_pos mapped, if_pos mapped', List.append_cancel_left_eq] at same
      have low := congrArg BitVec.toNat (ipv4Text_injective same)
      rw [BitVec.toNat_setWidth, BitVec.toNat_setWidth] at low
      apply BitVec.eq_of_toNat_eq
      omega
    · exact absurd (same ▸ dot_mem_mapped mapped) (dot_notMem_unmapped mapped')
  · by_cases mapped' : second.toNat / 4294967296 = 65535
    · exact absurd (same ▸ dot_mem_mapped mapped') (dot_notMem_unmapped mapped)
    · exact unmapped_injective mapped mapped' same

end SipxClstr.Registrar
