import Mathlib.Order.Monotone.Basic
import Mathlib.Tactic.IntervalCases

/-!
# The proleptic Gregorian calendar

A date is counted by adding up the lengths of the years and the months before it.  The count
follows the order of the calendar, and goes up by one from each date to the next.
-/

namespace SipxClstr.Data.Calendar

/-! ## Years -/

/-- Whether a year has a leap day. -/
def IsLeap (year : Nat) : Prop :=
  4 ∣ year ∧ (¬ 100 ∣ year ∨ 400 ∣ year)

instance : DecidablePred IsLeap :=
  fun _ => inferInstanceAs (Decidable (_ ∧ _))

def yearLength (year : Nat) : Nat :=
  if IsLeap year then 366 else 365

/-- The days before the first of a year. -/
def daysBeforeYear : Nat → Nat
  | 0 => 0
  | year + 1 => daysBeforeYear year + yearLength year

theorem daysBeforeYear_mono : Monotone daysBeforeYear :=
  monotone_nat_of_le_succ fun _ => Nat.le_add_right _ _

/-- Every fourth year is a leap year, but for the centuries that 400 does not divide. -/
theorem daysBeforeYear_eq (year : Nat) :
    daysBeforeYear year + (year + 99) / 100 = 365 * year + (year + 3) / 4 + (year + 399) / 400 := by
  induction year with
  | zero => rfl
  | succ year ih =>
      have length : yearLength year + (if 100 ∣ year then 1 else 0) =
          365 + (if 4 ∣ year then 1 else 0) + (if 400 ∣ year then 1 else 0) := by
        unfold yearLength IsLeap
        by_cases fourth : 4 ∣ year
        · by_cases hundredth : 100 ∣ year
          · simp only [fourth, hundredth, not_true_eq_false, false_or, true_and, if_true]
            split <;> rfl
          · have notWhole : ¬ 400 ∣ year := by omega
            simp [fourth, hundredth, notWhole]
        · have notHundredth : ¬ 100 ∣ year := by omega
          have notWhole : ¬ 400 ∣ year := by omega
          simp [fourth, notHundredth, notWhole]
      rw [daysBeforeYear]
      split at length <;> split at length <;> split at length <;> omega

/-! ## Months -/

def monthLength (year month : Nat) : Nat :=
  match month with
  | 1 | 3 | 5 | 7 | 8 | 10 | 12 => 31
  | 4 | 6 | 9 | 11 => 30
  | 2 => if IsLeap year then 29 else 28
  | _ => 0

theorem monthLength_pos (year : Nat) {month : Nat} (first : 1 ≤ month) (last : month ≤ 12) :
    1 ≤ monthLength year month := by
  by_cases leap : IsLeap year
  · interval_cases month <;> simp [monthLength, leap]
  · interval_cases month <;> simp [monthLength, leap]

theorem monthLength_le (year month : Nat) : monthLength year month ≤ 31 := by
  by_cases leap : IsLeap year
  · simp only [monthLength, leap, if_true]
    split <;> decide
  · simp only [monthLength, leap, if_false]
    split <;> decide

/-- The days of a year before the first of a month. -/
def daysBeforeMonth (year : Nat) : Nat → Nat
  | 0 => 0
  | month + 1 => daysBeforeMonth year month + monthLength year month

theorem daysBeforeMonth_mono (year : Nat) : Monotone (daysBeforeMonth year) :=
  monotone_nat_of_le_succ fun _ => Nat.le_add_right _ _

/-- From March on the months are 31, 30, 31, 30 and 31 days long, and that again. -/
theorem daysBeforeMonth_eq (year : Nat) {month : Nat} (march : 3 ≤ month) (last : month ≤ 13) :
    daysBeforeMonth year month = (if IsLeap year then 60 else 59) + (153 * (month - 3) + 2) / 5 := by
  by_cases leap : IsLeap year
  · interval_cases month <;> simp [daysBeforeMonth, monthLength, leap]
  · interval_cases month <;> simp [daysBeforeMonth, monthLength, leap]

/-- The twelve months make up the year. -/
theorem daysBeforeMonth_thirteen (year : Nat) : daysBeforeMonth year 13 = yearLength year := by
  rw [daysBeforeMonth_eq year (by decide) le_rfl]
  unfold yearLength
  split <;> rfl

/-! ## Dates -/

structure Date where
  year : Nat
  month : Nat
  day : Nat
  first_month : 1 ≤ month
  last_month : month ≤ 12
  first_day : 1 ≤ day
  last_day : day ≤ monthLength year month

namespace Date

/-- The days from the first of January of the year 0. -/
def ordinal (date : Date) : Nat :=
  daysBeforeYear date.year + daysBeforeMonth date.year date.month + (date.day - 1)

/-- The order of the calendar. -/
def Before (first second : Date) : Prop :=
  first.year < second.year ∨ first.year = second.year ∧
    (first.month < second.month ∨ first.month = second.month ∧ first.day < second.day)

/-- The date after. -/
def next (date : Date) : Date :=
  if inMonth : date.day + 1 ≤ monthLength date.year date.month then
    ⟨date.year, date.month, date.day + 1, date.first_month, date.last_month,
      Nat.succ_pos _, inMonth⟩
  else if inYear : date.month + 1 ≤ 12 then
    ⟨date.year, date.month + 1, 1, Nat.succ_pos _, inYear, le_rfl,
      monthLength_pos _ (Nat.succ_pos _) inYear⟩
  else
    ⟨date.year + 1, 1, 1, le_rfl, by decide, le_rfl, monthLength_pos _ le_rfl (by decide)⟩

/-- A date is counted among those of its month. -/
theorem ordinal_lt_month (date : Date) :
    date.ordinal < daysBeforeYear date.year + daysBeforeMonth date.year (date.month + 1) := by
  have first := date.first_day
  have last := date.last_day
  rw [ordinal, daysBeforeMonth]
  omega

/-- A date is counted among those of its year. -/
theorem ordinal_lt_year (date : Date) : date.ordinal < daysBeforeYear (date.year + 1) := by
  have inMonth := date.ordinal_lt_month
  have inYear := daysBeforeMonth_mono date.year (Nat.succ_le_succ date.last_month)
  rw [daysBeforeMonth_thirteen] at inYear
  rw [daysBeforeYear]
  exact lt_of_lt_of_le inMonth (Nat.add_le_add_left inYear _)

/-- The count follows the order of the calendar. -/
theorem ordinal_lt_ordinal {first second : Date} (before : first.Before second) :
    first.ordinal < second.ordinal := by
  rcases before with year | ⟨sameYear, month | ⟨sameMonth, day⟩⟩
  · calc
      first.ordinal < daysBeforeYear (first.year + 1) := first.ordinal_lt_year
      _ ≤ daysBeforeYear second.year := daysBeforeYear_mono year
      _ ≤ second.ordinal := by
          rw [ordinal, Nat.add_assoc]
          exact Nat.le_add_right _ _
  · have months := daysBeforeMonth_mono first.year (Nat.succ_le_of_lt month)
    calc
      first.ordinal < daysBeforeYear first.year + daysBeforeMonth first.year (first.month + 1) :=
        first.ordinal_lt_month
      _ ≤ daysBeforeYear first.year + daysBeforeMonth first.year second.month :=
        Nat.add_le_add_left months _
      _ ≤ second.ordinal := by
          rw [ordinal, sameYear]
          exact Nat.le_add_right _ _
  · have firstDay := first.first_day
    rw [ordinal, ordinal, sameYear, sameMonth]
    omega

/-- From each date to the next the count goes up by one. -/
theorem ordinal_next (date : Date) : date.next.ordinal = date.ordinal + 1 := by
  have first := date.first_day
  have last := date.last_day
  unfold next
  split
  · simp only [ordinal]
    omega
  · next inMonth =>
    split
    · simp only [ordinal, daysBeforeMonth]
      omega
    · next inYear =>
        have december : date.month = 12 := by
          have lastMonth := date.last_month
          omega
        have whole := daysBeforeMonth_thirteen date.year
        rw [daysBeforeMonth] at whole
        rw [december] at last inMonth
        simp only [ordinal, daysBeforeYear, december]
        have january : daysBeforeMonth (date.year + 1) 1 = 0 := rfl
        rw [january]
        omega

/-- The first of January 1970. -/
def epoch : Date :=
  ⟨1970, 1, 1, le_rfl, by decide, le_rfl, by decide⟩

theorem ordinal_epoch : epoch.ordinal = 719528 := by
  have years := daysBeforeYear_eq 1970
  have months : daysBeforeMonth 1970 1 = 0 := rfl
  simp only [ordinal, epoch, months]
  omega

/-- The signed number of days from the first of January 1970. -/
def sinceEpoch (date : Date) : Int :=
  date.ordinal - epoch.ordinal

theorem sinceEpoch_next (date : Date) : date.next.sinceEpoch = date.sinceEpoch + 1 := by
  rw [sinceEpoch, sinceEpoch, ordinal_next]
  omega

theorem sinceEpoch_lt_sinceEpoch {first second : Date} (before : first.Before second) :
    first.sinceEpoch < second.sinceEpoch := by
  have ordered := ordinal_lt_ordinal before
  rw [sinceEpoch, sinceEpoch]
  omega

end Date

end SipxClstr.Data.Calendar
