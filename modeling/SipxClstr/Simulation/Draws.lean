import SipxClstr.Simulation.Rng
import Mathlib.Data.Finset.Card
import Mathlib.Data.Int.CardIntervalMod
import Mathlib.Logic.Function.Iterate

/-!
# Draws from a range

A draw is thrown away from a limit on that is a whole number of ranges, so every value of a range
is what equally many draws are made into.  The state of a generator is one of finitely many, and a
stream that never comes below the limit repeats itself.
-/

namespace SipxClstr.Simulation

namespace SimRng

/-! ## Streams -/

/-- The stream behind this many draws. -/
def behind (rng : SimRng) (draws : Nat) : SimRng :=
  (fun rng => rng.nextU64.2)^[draws] rng

/-- The words of a stream. -/
def word (rng : SimRng) (place : Nat) : UInt64 :=
  (rng.behind place).nextU64.1

theorem behind_add (rng : SimRng) (more draws : Nat) :
    rng.behind (more + draws) = (rng.behind draws).behind more :=
  Function.iterate_add_apply _ more draws rng

/-- How many states there are. -/
def states : Nat :=
  Nat.pow 2 256

/-- A state as one number. -/
def code (rng : SimRng) : Nat :=
  rng.s0.toNat + UInt64.size * (rng.s1.toNat + UInt64.size *
    (rng.s2.toNat + UInt64.size * rng.s3.toNat))

theorem code_lt (rng : SimRng) : rng.code < states := by
  have first := rng.s0.toNat_lt
  have second := rng.s1.toNat_lt
  have third := rng.s2.toNat_lt
  have fourth := rng.s3.toNat_lt
  have all : states =
      115792089237316195423570985008687907853269984665640564039457584007913129639936 := rfl
  rw [all]
  simp only [code, UInt64.size]
  omega

theorem code_injective : Function.Injective code := by
  rintro ⟨s0, s1, s2, s3⟩ ⟨t0, t1, t2, t3⟩ same
  have bounds := And.intro s0.toNat_lt (And.intro s1.toNat_lt (And.intro s2.toNat_lt s3.toNat_lt))
  have others := And.intro t0.toNat_lt (And.intro t1.toNat_lt (And.intro t2.toNat_lt t3.toNat_lt))
  simp only [code, UInt64.size] at same
  have words : s0.toNat = t0.toNat ∧ s1.toNat = t1.toNat ∧ s2.toNat = t2.toNat ∧
      s3.toNat = t3.toNat := by
    omega
  rcases words with ⟨first, second, third, fourth⟩
  rw [UInt64.toNat_inj] at first second third fourth
  rw [first, second, third, fourth]

/-- What holds of a state somewhere on a stream holds of one of the first of them. -/
theorem first_lt_states {property : SimRng → Prop} {rng : SimRng} {place : Nat}
    (holds : property (rng.behind place))
    (first : ∀ earlier < place, ¬ property (rng.behind earlier)) : place < states := by
  by_contra late
  rw [not_lt] at late
  have crowded : (Finset.range states).card < (Finset.range (states + 1)).card := by
    rw [Finset.card_range, Finset.card_range]
    exact Nat.lt_succ_self _
  have repeats : ∃ i j, i < j ∧ j ≤ states ∧ rng.behind i = rng.behind j := by
    rcases Finset.exists_ne_map_eq_of_card_lt_of_maps_to crowded
      (fun draws _ => Finset.mem_coe.mpr (Finset.mem_range.mpr (code_lt (rng.behind draws)))) with
      ⟨i, isPlace, j, isOther, differ, same⟩
    rw [Finset.mem_range, Nat.lt_succ_iff] at isPlace isOther
    have same := code_injective same
    rcases lt_or_gt_of_ne differ with earlier | later
    · exact ⟨i, j, earlier, isOther, same⟩
    · exact ⟨j, i, later, isPlace, same.symm⟩
  rcases repeats with ⟨i, j, earlier, few, same⟩
  rcases Nat.exists_eq_add_of_le' (few.trans late) with ⟨rest, rfl⟩
  apply first (rest + i) (Nat.add_lt_add_left earlier rest)
  rw [behind_add, same, ← behind_add]
  exact holds

/-- The first word below the limit is the one that is taken. -/
theorem drawBelow_eq {limit : UInt64} {rng : SimRng} {place attempts : Nat}
    (below : rng.word place < limit) (first : ∀ earlier < place, ¬ rng.word earlier < limit)
    (enough : place < attempts) :
    drawBelow limit attempts rng = some (rng.word place, rng.behind (place + 1)) := by
  induction place generalizing rng attempts with
  | zero =>
      cases attempts with
      | zero => contradiction
      | succ attempts =>
          unfold drawBelow
          exact if_pos below
  | succ place ih =>
      cases attempts with
      | zero => contradiction
      | succ attempts =>
          have above : ¬ rng.nextU64.1 < limit := first 0 (Nat.succ_pos place)
          unfold drawBelow
          rw [if_neg above]
          apply ih below
          · intro earlier before
            exact first (earlier + 1) (Nat.succ_lt_succ before)
          · exact Nat.lt_of_succ_lt_succ enough

/-! ## Ranges -/

/-- The words of a range, unless it is every word there is. -/
def bound (low high : UInt64) : UInt64 :=
  high - low + 1

/-- From where on draws are thrown away. -/
def limit (low high : UInt64) : UInt64 :=
  0xffffffffffffffff - (0xffffffffffffffff % bound low high)

/-- What a draw is made into, unless it is thrown away. -/
def madeOf (low high draw : UInt64) : Option UInt64 :=
  if high - low = 0xffffffffffffffff then
    some draw
  else if draw < limit low high then
    some (low + draw % bound low high)
  else
    none

/-- How many of all words this holds of. -/
def count (property : UInt64 → Bool) : Nat :=
  Nat.count (fun draw => property (UInt64.ofNat draw) = true) UInt64.size

/-- No operation on the way from a draw to its value wraps around. -/
structure Exact (low high : UInt64) : Prop where
  span : (high - low).toNat = high.toNat - low.toNat
  bound : high - low ≠ 0xffffffffffffffff →
    (SimRng.bound low high).toNat = (high - low).toNat + 1
  limit : high - low ≠ 0xffffffffffffffff →
    (SimRng.limit low high).toNat =
      18446744073709551615 - 18446744073709551615 % (SimRng.bound low high).toNat
  value : high - low ≠ 0xffffffffffffffff → ∀ draw,
    (low + draw % SimRng.bound low high).toNat =
      low.toNat + draw.toNat % (SimRng.bound low high).toNat

/-- Sampling from a range. -/
structure Unbiased (low high : UInt64) : Prop where
  exact : Exact low high
  within : ∀ rng : SimRng, low ≤ (rng.rangeInclusive low high).1 ∧
    (rng.rangeInclusive low high).1 ≤ high
  /-- A range of one value draws nothing. -/
  alone : low = high → ∀ rng : SimRng, rng.rangeInclusive low high = (low, rng)
  /-- Otherwise the first draw that is not thrown away decides. -/
  decides : low < high → ∀ (rng : SimRng) place value, madeOf low high (rng.word place) = some value →
    (∀ earlier < place, madeOf low high (rng.word earlier) = none) →
      rng.rangeInclusive low high = (value, rng.behind (place + 1))
  half : UInt64.size ≤ 2 * count fun draw => (madeOf low high draw).isSome
  /-- More than half of all words cannot all be thrown away. -/
  ends : ∀ (words : Nat → UInt64) (places : Finset Nat),
    UInt64.size < 2 * (places.image words).card → ∃ place, (madeOf low high (words place)).isSome
  evenly : ∃ times, 0 < times ∧ ∀ value, low ≤ value → value ≤ high →
    (count fun draw => madeOf low high draw = some value) = times

/-! ## Counting -/

theorem count_congr {property : UInt64 → Bool} {same : Nat → Prop} [DecidablePred same]
    (agree : ∀ draw : UInt64, property draw = true ↔ same draw.toNat) :
    count property = Nat.count same UInt64.size := by
  unfold count
  rw [Nat.count_eq_card_filter_range, Nat.count_eq_card_filter_range]
  apply congrArg Finset.card
  apply Finset.filter_congr
  intro draw member
  rw [agree, UInt64.toNat_ofNat_of_lt' (Finset.mem_range.mp member)]

/-- What holds only below a limit is counted there. -/
theorem count_below {property : Nat → Prop} [DecidablePred property] {limit total : Nat}
    (early : limit ≤ total) :
    Nat.count (fun draw => draw < limit ∧ property draw) total = Nat.count property limit := by
  rw [Nat.count_eq_card_filter_range, Nat.count_eq_card_filter_range]
  apply congrArg Finset.card
  ext draw
  simp only [Finset.mem_filter, Finset.mem_range]
  constructor
  · rintro ⟨-, below, holds⟩
    exact ⟨below, holds⟩
  · rintro ⟨below, holds⟩
    exact ⟨lt_of_lt_of_le below early, below, holds⟩

/-- As many words are thrown away as are not taken. -/
theorem card_image_le {property : UInt64 → Bool} {words : Nat → UInt64} {places : Finset Nat}
    (none : ∀ place, property (words place) = false) :
    (places.image words).card + count property ≤ UInt64.size := by
  have thrown : (places.image words).card ≤
      ((Finset.range UInt64.size).filter fun draw =>
        ¬ property (UInt64.ofNat draw) = true).card := by
    apply Finset.card_le_card_of_injOn UInt64.toNat
    · intro draw member
      rcases Finset.mem_image.mp member with ⟨place, -, rfl⟩
      rw [Finset.mem_coe, Finset.mem_filter, Finset.mem_range, UInt64.ofNat_toNat, none place]
      exact ⟨UInt64.toNat_lt _, Bool.false_ne_true⟩
    · intro draw _ other _ same
      exact UInt64.toNat_inj.mp same
  have both := Finset.card_filter_add_card_filter_not (s := Finset.range UInt64.size)
    fun draw => property (UInt64.ofNat draw) = true
  rw [Finset.card_range] at both
  unfold count
  rw [Nat.count_eq_card_filter_range]
  omega

/-! ## One range -/

section Range

variable {low high : UInt64}

theorem exact_of_le (ordered : low ≤ high) : Exact low high := by
  have span : (high - low).toNat = high.toNat - low.toNat := UInt64.toNat_sub_of_le high low ordered
  have ofBound : high - low ≠ 0xffffffffffffffff →
      (bound low high).toNat = (high - low).toNat + 1 := by
    intro narrow
    have less : (high - low).toNat ≠ 18446744073709551615 := by
      intro same
      exact narrow (UInt64.toNat_inj.mp same)
    have fits := (high - low).toNat_lt
    rw [bound, UInt64.toNat_add]
    simp only [UInt64.toNat_one]
    omega
  refine ⟨span, ofBound, ?_, ?_⟩
  · intro narrow
    have least : 0xffffffffffffffff % bound low high ≤ 0xffffffffffffffff := by
      rw [UInt64.le_iff_toNat_le, UInt64.toNat_mod]
      exact Nat.mod_le _ _
    rw [limit, UInt64.toNat_sub_of_le _ _ least, UInt64.toNat_mod]
    rfl
  · intro narrow draw
    have rest := Nat.mod_lt draw.toNat (y := (bound low high).toNat) (by rw [ofBound narrow]; omega)
    have highFits := high.toNat_lt
    have ordered : low.toNat ≤ high.toNat := ordered
    rw [ofBound narrow, span] at rest
    rw [UInt64.toNat_add, UInt64.toNat_mod, ofBound narrow, span]
    omega

/-- The limit is a whole number of ranges, and more than half of all words. -/
theorem limit_cases (ordered : low ≤ high) (narrow : high - low ≠ 0xffffffffffffffff) :
    (limit low high).toNat ≤ UInt64.size ∧ UInt64.size ≤ 2 * (limit low high).toNat ∧
      (limit low high).toNat % (bound low high).toNat = 0 := by
  have exact := exact_of_le ordered
  have isBound := exact.bound narrow
  have fits := (bound low high).toNat_lt
  rw [exact.limit narrow]
  generalize (bound low high).toNat = width at isBound fits
  have positive : 0 < width := by omega
  have whole := Nat.div_add_mod 18446744073709551615 width
  have rest := Nat.mod_lt 18446744073709551615 positive
  have some : width ≤ width * (18446744073709551615 / width) :=
    Nat.le_mul_of_pos_right _ (Nat.div_pos (by omega) positive)
  refine ⟨?_, ?_, ?_⟩
  · simp only [UInt64.size]
    omega
  · simp only [UInt64.size]
    omega
  · exact Nat.mod_eq_zero_of_dvd (Nat.dvd_sub_mod _)

theorem madeOf_wide (wide : high - low = 0xffffffffffffffff) (draw : UInt64) :
    madeOf low high draw = some draw :=
  if_pos wide

theorem madeOf_narrow (narrow : high - low ≠ 0xffffffffffffffff) (draw : UInt64) :
    madeOf low high draw =
      if draw < limit low high then some (low + draw % bound low high) else none :=
  if_neg narrow

/-- A range of every word begins with the first of them. -/
theorem ends_of_wide (ordered : low ≤ high) (wide : high - low = 0xffffffffffffffff) :
    low.toNat = 0 ∧ high.toNat = 18446744073709551615 := by
  have span := (exact_of_le ordered).span
  have fits := high.toNat_lt
  have ordered : low.toNat ≤ high.toNat := ordered
  rw [wide] at span
  have all : (0xffffffffffffffff : UInt64).toNat = 18446744073709551615 := rfl
  rw [all] at span
  omega

theorem value_within (ordered : low ≤ high) (narrow : high - low ≠ 0xffffffffffffffff)
    (draw : UInt64) :
    low ≤ low + draw % bound low high ∧ low + draw % bound low high ≤ high := by
  have exact := exact_of_le ordered
  have rest := Nat.mod_lt draw.toNat (y := (bound low high).toNat)
    (by rw [exact.bound narrow]; omega)
  have ordered : low.toNat ≤ high.toNat := ordered
  rw [UInt64.le_iff_toNat_le, UInt64.le_iff_toNat_le, exact.value narrow]
  rw [exact.bound narrow, exact.span] at rest ⊢
  omega

/-- A value is what the draws below the limit are made into that leave it over the range. -/
theorem madeOf_eq_some_iff (ordered : low ≤ high) (narrow : high - low ≠ 0xffffffffffffffff)
    {value : UInt64} (above : low ≤ value) (below : value ≤ high) (draw : UInt64) :
    madeOf low high draw = some value ↔ draw.toNat < (limit low high).toNat ∧
      draw.toNat ≡ value.toNat - low.toNat [MOD (bound low high).toNat] := by
  have exact := exact_of_le ordered
  have above : low.toNat ≤ value.toNat := above
  have below : value.toNat ≤ high.toNat := below
  have small : value.toNat - low.toNat < (bound low high).toNat := by
    rw [exact.bound narrow, exact.span]
    omega
  rw [madeOf_narrow narrow, Nat.ModEq, Nat.mod_eq_of_lt small, ← UInt64.lt_iff_toNat_lt]
  by_cases early : draw < limit low high
  · rw [if_pos early, Option.some_inj, ← UInt64.toNat_inj, exact.value narrow]
    simp only [early, true_and]
    omega
  · simp [early]

theorem evenly_of_le (ordered : low ≤ high) : ∃ times, 0 < times ∧ ∀ value, low ≤ value →
    value ≤ high → (count fun draw => madeOf low high draw = some value) = times := by
  by_cases wide : high - low = 0xffffffffffffffff
  · refine ⟨1, Nat.one_pos, ?_⟩
    intro value _ _
    rw [@count_congr _ (fun draw => draw ≡ value.toNat [MOD UInt64.size])]
    · rw [Nat.count_modEq_card _ (by decide), Nat.mod_self]
      simp
    · intro draw
      rw [madeOf_wide wide, decide_eq_true_eq, Option.some_inj, ← UInt64.toNat_inj, Nat.ModEq,
        Nat.mod_eq_of_lt draw.toNat_lt, Nat.mod_eq_of_lt value.toNat_lt]
  · rcases limit_cases ordered wide with ⟨early, half, whole⟩
    have positive : 0 < (bound low high).toNat := by
      rw [(exact_of_le ordered).bound wide]
      exact Nat.succ_pos _
    refine ⟨(limit low high).toNat / (bound low high).toNat, ?_, ?_⟩
    · apply Nat.div_pos _ positive
      apply Nat.le_of_dvd _ (Nat.dvd_of_mod_eq_zero whole)
      simp only [UInt64.size] at half
      omega
    · intro value above below
      rw [@count_congr _ (fun draw => draw < (limit low high).toNat ∧
        draw ≡ value.toNat - low.toNat [MOD (bound low high).toNat])]
      · rw [count_below early, Nat.count_modEq_card _ positive, whole]
        simp
      · intro draw
        rw [decide_eq_true_eq]
        exact madeOf_eq_some_iff ordered wide above below draw

/-- At least half of all words are not thrown away. -/
theorem half_of_le (ordered : low ≤ high) :
    UInt64.size ≤ 2 * count fun draw => (madeOf low high draw).isSome := by
  by_cases wide : high - low = 0xffffffffffffffff
  · rw [@count_congr _ (fun _ => True)]
    · rw [Nat.count_true]
      omega
    · intro draw
      simp [madeOf_wide wide]
  · rcases limit_cases ordered wide with ⟨early, half, -⟩
    rw [@count_congr _ (fun draw => draw < (limit low high).toNat ∧ True)]
    · rw [count_below early, Nat.count_true]
      exact half
    · intro draw
      rw [madeOf_narrow wide, ← UInt64.lt_iff_toNat_lt]
      by_cases taken : draw < limit low high
      · simp [taken]
      · simp [taken]

/-- A range that is not every word there is takes the first draw below its limit. -/
theorem rangeInclusive_of_drawBelow (less : low < high) (narrow : high - low ≠ 0xffffffffffffffff)
    {rng rest : SimRng} {draw : UInt64}
    (drawn : drawBelow (limit low high) states rng = some (draw, rest)) :
    rng.rangeInclusive low high = (low + draw % bound low high, rest) := by
  unfold limit bound states at drawn
  unfold rangeInclusive bound
  rw [if_neg (UInt64.not_le.mpr less)]
  dsimp only
  rw [if_neg narrow, drawn]

/-- The first draw that is not thrown away decides. -/
theorem rangeInclusive_eq (less : low < high) {rng : SimRng} {place : Nat} {value : UInt64}
    (made : madeOf low high (rng.word place) = some value)
    (first : ∀ earlier < place, madeOf low high (rng.word earlier) = none) :
    rng.rangeInclusive low high = (value, rng.behind (place + 1)) := by
  by_cases wide : high - low = 0xffffffffffffffff
  · rw [madeOf_wide wide] at made
    cases place with
    | zero =>
        unfold rangeInclusive
        rw [if_neg (UInt64.not_le.mpr less), ← Option.some.inj made]
        exact if_pos wide
    | succ place =>
        have thrown := first 0 (Nat.succ_pos place)
        rw [madeOf_wide wide] at thrown
        contradiction
  · have below : ∀ place, rng.word place < limit low high ↔
        (madeOf low high (rng.word place)).isSome = true := by
      intro place
      rw [madeOf_narrow wide]
      by_cases taken : rng.word place < limit low high
      · simp [taken]
      · simp [taken]
    have isFirst : ∀ earlier < place, ¬ rng.word earlier < limit low high := by
      intro earlier before
      rw [below, first earlier before]
      exact Bool.false_ne_true
    have taken : rng.word place < limit low high := by
      rw [below, made]
      rfl
    have enough : place < states :=
      @first_lt_states (fun rng => rng.nextU64.1 < limit low high) rng place taken isFirst
    have drawn := drawBelow_eq taken isFirst enough
    rw [madeOf_narrow wide, if_pos taken, Option.some_inj] at made
    rw [rangeInclusive_of_drawBelow less wide drawn, made]

theorem rangeInclusive_within (ordered : low ≤ high) (rng : SimRng) :
    low ≤ (rng.rangeInclusive low high).1 ∧ (rng.rangeInclusive low high).1 ≤ high := by
  unfold rangeInclusive
  split
  · exact ⟨UInt64.le_refl low, ordered⟩
  · dsimp only
    split
    · next wide =>
        rcases ends_of_wide ordered wide with ⟨isLow, isHigh⟩
        have fits := rng.nextU64.1.toNat_lt
        rw [UInt64.le_iff_toNat_le, UInt64.le_iff_toNat_le, isLow, isHigh]
        omega
    · next narrow =>
        split
        · next draw _ _ => exact value_within ordered narrow draw
        · exact ⟨UInt64.le_refl low, ordered⟩

end Range

/-- A range is sampled without a bias, whatever its ends are. -/
theorem range_unbiased (low high : UInt64) (ordered : low ≤ high) : Unbiased low high where
  exact := exact_of_le ordered
  within := rangeInclusive_within ordered
  alone := by
    rintro rfl rng
    exact if_pos (UInt64.le_refl low)
  decides less rng place value := rangeInclusive_eq less
  half := half_of_le ordered
  ends := by
    intro words places many
    by_contra never
    have none : ∀ place, (madeOf low high (words place)).isSome = false := by
      intro place
      rw [Bool.eq_false_iff]
      exact fun taken => never ⟨place, taken⟩
    have few := @card_image_le (fun draw => (madeOf low high draw).isSome) words places none
    have half := half_of_le ordered
    omega
  evenly := evenly_of_le ordered

/-- A range of half of all words and one more, which throws nearly half of them away. -/
theorem range_unbiased_half :
    madeOf 0 0x8000000000000000 0x8000000000000001 = none ∧ Unbiased 0 0x8000000000000000 :=
  ⟨by decide +kernel, range_unbiased 0 0x8000000000000000 (by decide)⟩

end SimRng

end SipxClstr.Simulation
