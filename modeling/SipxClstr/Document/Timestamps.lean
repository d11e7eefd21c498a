import SipxClstr.Data.Calendar
import SipxClstr.Document.Instant
import SipxClstr.Sip.Ascii

/-!
# Timestamps

The texts that are read as instants are those of the grammar, and the instant is the one the
calendar counts: the days since the epoch, and the seconds of the day.
-/

namespace SipxClstr.Document

open SipxClstr.Sip SipxClstr.Data.Calendar

/-! ## The grammar -/

/-- A time of day.  A leap second is the sixtieth. -/
structure Clock where
  hour : Nat
  minute : Nat
  second : Nat
  hour_le : hour ≤ 23
  minute_le : minute ≤ 59
  second_le : second ≤ 60

def Clock.seconds (clock : Clock) : Nat :=
  clock.hour * 3600 + clock.minute * 60 + clock.second

/-- The order of the day. -/
def Clock.NotAfter (first second : Clock) : Prop :=
  first.hour < second.hour ∨ first.hour = second.hour ∧
    (first.minute < second.minute ∨ first.minute = second.minute ∧ first.second ≤ second.second)

/-- This many digits, and the number they are. -/
structure Digits (width value : Nat) (input : Text) : Prop where
  length : input.length = width
  isDigits : ∀ digit ∈ input, digit.isDigit = true
  isValue : digitsValue input = value

/-- `YYYY-MM-DD`. -/
structure WritesDate (input : Text) (date : Date) : Prop where
  parts : ∃ year month day, input = year ++ '-' :: (month ++ '-' :: day) ∧
    Digits 4 date.year year ∧ Digits 2 date.month month ∧ Digits 2 date.day day

/-- A fraction of a second, or nothing. -/
def IsFraction (input : Text) : Prop :=
  input = [] ∨ ∃ digits, digits ≠ [] ∧ (∀ digit ∈ digits, digit.isDigit = true) ∧
    input = '.' :: digits

/-- `HH:MM:SS[.frac]`. -/
structure WritesTime (input : Text) (clock : Clock) : Prop where
  parts : ∃ hour minute second fraction,
    input = hour ++ ':' :: (minute ++ ':' :: (second ++ fraction)) ∧ Digits 2 clock.hour hour ∧
      Digits 2 clock.minute minute ∧ Digits 2 clock.second second ∧ IsFraction fraction

/-- `YYYY-MM-DDTHH:MM:SS[.frac]Z`. -/
inductive Spells : Text → Date → Clock → Prop where
  | written {day time : Text} {separator zone : Char} {date : Date} {clock : Clock}
      (isDate : WritesDate day date) (isTime : WritesTime time clock)
      (isSeparator : separator = 'T' ∨ separator = 't') (isZone : zone = 'Z' ∨ zone = 'z') :
      Spells (day ++ separator :: (time ++ [zone])) date clock

/-- The instant of a date and a time of day. -/
def epochSeconds (date : Date) (clock : Clock) : Int :=
  86400 * date.sinceEpoch + clock.seconds

/-! ## Every operation checked -/

/-- The days of a year that begins in March, with every operation on `i64` checked. -/
def checkedDayOfYear (ofMonth day : Int) : Option Int := do
  let scaled ← checkedI64 (153 * ofMonth)
  let rounded ← checkedI64 (scaled + 2)
  let before ← checkedI64 (rounded.tdiv 5)
  let through ← checkedI64 (before + day)
  checkedI64 (through - 1)

/-- The days before a year of an era, with every operation checked. -/
def checkedDaysOfEra (yearOfEra : Int) : Option Int := do
  let years ← checkedI64 (yearOfEra * 365)
  let leapDays ← checkedI64 (yearOfEra.tdiv 4)
  let withLeap ← checkedI64 (years + leapDays)
  let centuries ← checkedI64 (yearOfEra.tdiv 100)
  checkedI64 (withLeap - centuries)

/-- `days_from_civil`, with every operation checked. -/
def checkedDays (year month day : Int) : Option Int := do
  let year ← checkedI64 (if month ≤ 2 then year - 1 else year)
  let dividend ← checkedI64 (if 0 ≤ year then year else year - 399)
  let era ← checkedI64 (dividend.tdiv 400)
  let eraYears ← checkedI64 (era * 400)
  let yearOfEra ← checkedI64 (year - eraYears)
  let ofMonth ← checkedI64 (if 2 < month then month - 3 else month + 9)
  let dayOfYear ← checkedDayOfYear ofMonth day
  let days ← checkedDaysOfEra yearOfEra
  let dayOfEra ← checkedI64 (days + dayOfYear)
  let eraDays ← checkedI64 (era * 146097)
  let total ← checkedI64 (eraDays + dayOfEra)
  checkedI64 (total - 719468)

/-- The arithmetic of an instant, with every operation on `i64` checked. -/
def checkedInstant (year month day hour minute second : Int) : Option Int := do
  let hourSeconds ← checkedI64 (hour * 3600)
  let minuteSeconds ← checkedI64 (minute * 60)
  let minutes ← checkedI64 (hourSeconds + minuteSeconds)
  let seconds ← checkedI64 (minutes + second)
  let days ← checkedDays year month day
  let daySeconds ← checkedI64 (days * 86400)
  checkedI64 (daySeconds + seconds)

/-- Reading instants. -/
structure ReadsInstants : Prop where
  /-- What is read is of the grammar, and is the instant that is written. -/
  exactly : ∀ input value, parseRfc3339Utc input = some value ↔
    ∃ date clock, Spells input date clock ∧ value = epochSeconds date clock
  /-- Every date of the years 0000 to 9999 can be written. -/
  everyDate : ∀ (date : Date) (clock : Clock), date.year ≤ 9999 → ∃ input, Spells input date clock
  monotone : ∀ {date later : Date} {clock other : Clock},
    date.Before later ∨ date = later ∧ clock.NotAfter other →
      epochSeconds date clock ≤ epochSeconds later other
  nextDate : ∀ (date : Date) (clock : Clock),
    epochSeconds date.next clock = epochSeconds date clock + 86400
  noOverflow : ∀ {input : Text} {date : Date} {clock : Clock}, Spells input date clock →
    checkedInstant date.year date.month date.day clock.hour clock.minute clock.second =
      some (epochSeconds date clock)

/-! ## Days -/

theorem isLeapYear_iff (year : Nat) : isLeapYear year = true ↔ IsLeap year := by
  unfold isLeapYear IsLeap
  simp only [Bool.and_eq_true, Bool.or_eq_true, decide_eq_true_eq]
  rw [Int.tmod_eq_emod_of_nonneg (by omega), Int.tmod_eq_emod_of_nonneg (by omega),
    Int.tmod_eq_emod_of_nonneg (by omega)]
  omega

theorem daysInMonth_eq (year : Nat) {month : Nat} (last : month ≤ 12) :
    daysInMonth year month = (monthLength year month : Nat) := by
  by_cases leap : IsLeap year
  · interval_cases month <;> simp [daysInMonth, monthLength, leap, isLeapYear_iff]
  · interval_cases month <;> simp [daysInMonth, monthLength, leap, isLeapYear_iff]

/-- The days before a month, in a year that begins in March. -/
theorem daysBeforeMonth_cases (date : Date) :
    (date.month = 1 ∧ daysBeforeMonth date.year date.month = 0) ∨
      (date.month = 2 ∧ daysBeforeMonth date.year date.month = 31) ∨
      3 ≤ date.month ∧ daysBeforeMonth date.year date.month =
        (if IsLeap date.year then 60 else 59) + (153 * (date.month - 3) + 2) / 5 := by
  have first := date.first_month
  have last := date.last_month
  rcases Nat.lt_or_ge date.month 3 with early | march
  · have isEarly : date.month = 1 ∨ date.month = 2 := by omega
    rcases isEarly with isMonth | isMonth
    · rw [isMonth]
      exact .inl ⟨rfl, rfl⟩
    · rw [isMonth]
      exact .inr (.inl ⟨rfl, rfl⟩)
  · exact .inr (.inr ⟨march, daysBeforeMonth_eq date.year march (Nat.le_succ_of_le last)⟩)

/-- Eras are counted down, the first negative one too. -/
theorem era_eq (year : Int) :
    (if 0 ≤ year then year else year - 399).tdiv 400 = year / 400 := by
  split
  · next isPositive => exact Int.tdiv_eq_ediv_of_nonneg isPositive
  · next isNegative =>
      have flipped : year - 399 = -(399 - year) := by omega
      rw [flipped, Int.neg_tdiv, Int.tdiv_eq_ediv_of_nonneg (by omega)]
      omega

/-- The year that begins in March, and the days since it began. -/
theorem daysFromCivil_shifted (year : Int) {month : Int} (first : 1 ≤ month) (day : Int) :
    daysFromCivil year month day =
      if month ≤ 2 then
        365 * (year - 1) + (year - 1) / 4 - (year - 1) / 100 + (year - 1) / 400 +
          ((153 * (month + 9) + 2) / 5 + day - 1) - 719468
      else
        365 * year + year / 4 - year / 100 + year / 400 +
          ((153 * (month - 3) + 2) / 5 + day - 1) - 719468 := by
  have ofEra : ∀ (shifted ofMonth : Int), 0 ≤ ofMonth →
      shifted / 400 * 146097 + ((shifted - shifted / 400 * 400) * 365 +
        (shifted - shifted / 400 * 400).tdiv 4 - (shifted - shifted / 400 * 400).tdiv 100 +
        ((153 * ofMonth + 2).tdiv 5 + day - 1)) - 719468 =
      365 * shifted + shifted / 4 - shifted / 100 + shifted / 400 +
        ((153 * ofMonth + 2) / 5 + day - 1) - 719468 := by
    intro shifted ofMonth isPositive
    rw [Int.tdiv_eq_ediv_of_nonneg (by omega), Int.tdiv_eq_ediv_of_nonneg (by omega),
      Int.tdiv_eq_ediv_of_nonneg (by omega)]
    omega
  unfold daysFromCivil
  dsimp only
  rw [era_eq]
  split
  · rw [if_neg (by omega)]
    exact ofEra _ _ (by omega)
  · rw [if_pos (by omega)]
    exact ofEra _ _ (by omega)

/-- The days before the first of March. -/
theorem daysBeforeMarch_eq (year : Nat) :
    daysBeforeYear year + (if IsLeap year then 60 else 59) + year / 100 =
      365 * year + 60 + year / 4 + year / 400 := by
  have years := daysBeforeYear_eq year
  by_cases leap : IsLeap year
  · rw [if_pos leap]
    unfold IsLeap at leap
    omega
  · rw [if_neg leap]
    unfold IsLeap at leap
    omega

/-- The civil-days arithmetic counts what the calendar does. -/
theorem daysFromCivil_eq (date : Date) :
    daysFromCivil date.year date.month date.day = date.sinceEpoch := by
  have years := daysBeforeYear_eq date.year
  have march := daysBeforeMarch_eq date.year
  have firstMonth := date.first_month
  have firstDay := date.first_day
  rw [daysFromCivil_shifted _ (by omega), Date.sinceEpoch, Date.ordinal_epoch, Date.ordinal]
  rcases daysBeforeMonth_cases date with ⟨isMonth, before⟩ | ⟨isMonth, before⟩ | ⟨late, before⟩
  · rw [before, isMonth, if_pos (by decide)]
    clear march
    omega
  · rw [before, isMonth, if_pos (by decide)]
    clear march
    omega
  · rw [before, if_neg (by omega)]
    clear years
    generalize (if IsLeap date.year then 60 else 59) = leapDays at march ⊢
    omega

/-! ## Digits -/

theorem Digits.notMem {width value : Nat} {input : Text} (digits : Digits width value input)
    {c : Char} (other : c.isDigit = false) : c ∉ input := by
  intro member
  rw [digits.isDigits c member] at other
  contradiction

theorem fixedDigits_eq_some_iff {input : Text} {width : Nat} {value : Int} :
    fixedDigits input width = some value ↔ ∃ number : Nat, Digits width number input ∧
      (number : Int) = value := by
  unfold fixedDigits
  constructor
  · intro read
    split at read
    · next fits =>
        exact ⟨_, ⟨fits.1, List.all_eq_true.mp fits.2, rfl⟩, Option.some.inj read⟩
    · contradiction
  · rintro ⟨number, digits, rfl⟩
    rw [if_pos ⟨digits.length, List.all_eq_true.mpr digits.isDigits⟩, digits.isValue]

theorem Digits.fixedDigits_eq {width value : Nat} {input : Text} (digits : Digits width value input) :
    fixedDigits input width = some (value : Int) :=
  fixedDigits_eq_some_iff.mpr ⟨value, digits, rfl⟩

theorem Digits.lt {width value : Nat} {input : Text} (digits : Digits width value input) :
    value < Nat.pow 10 width := by
  have below := digitsValue_lt digits.isDigits
  rwa [digits.isValue, digits.length] at below

theorem digits_zeroPadded {width value : Nat} (positive : 0 < width)
    (small : value < Nat.pow 10 width) : Digits width value (zeroPadded width value) :=
  ⟨length_zeroPadded positive small, isDigit_of_mem_zeroPadded, digitsValue_zeroPadded width value⟩

/-! ## Parts between separators -/

theorem eq_of_splitOn_eq {separator : Char} {input first second third : Text}
    (split : input.splitOn separator = [first, second, third]) :
    input = first ++ separator :: (second ++ separator :: third) := by
  rw [← @List.intercalate_splitOn _ input _ _ separator, split]
  simp [List.intercalate]

theorem splitOn_eq_of_notMem {separator : Char} {first second third : Text}
    (inFirst : separator ∉ first) (inSecond : separator ∉ second) (inThird : separator ∉ third) :
    (first ++ separator :: (second ++ separator :: third)).splitOn separator =
      [first, second, third] := by
  rw [List.splitOn_append_cons_self_of_not_mem inFirst,
    List.splitOn_append_cons_self_of_not_mem inSecond, List.splitOn_eq_singleton inThird]

theorem stripSuffix_eq_some_iff {suffix : Char} {input body : Text} :
    stripSuffix suffix input = some body ↔ input = body ++ [suffix] := by
  unfold stripSuffix
  constructor
  · intro stripped
    split at stripped
    · next isLast =>
        rw [← Option.some.inj stripped]
        exact (List.dropLast_append_getLast? suffix isLast).symm
    · contradiction
  · rintro rfl
    simp

/-! ## The parsers -/

theorem parseDate_eq_some_iff {input : Text} {year month day : Int} :
    parseDate input = some (year, month, day) ↔ ∃ date : Date, WritesDate input date ∧
      year = date.year ∧ month = date.month ∧ day = date.day := by
  constructor
  · intro parsed
    unfold parseDate at parsed
    split at parsed
    · next yearText monthText dayText split =>
        simp only [Option.bind_eq_bind, Option.bind_eq_some_iff, fixedDigits_eq_some_iff] at parsed
        rcases parsed with ⟨_, ⟨years, isYear, rfl⟩, _, ⟨months, isMonth, rfl⟩, _,
          ⟨days, isDay, rfl⟩, parsed⟩
        split at parsed
        · next inCalendar =>
            simp only [Option.some.injEq, Prod.mk.injEq] at parsed
            rcases parsed with ⟨rfl, rfl, rfl⟩
            rcases inCalendar with ⟨firstMonth, lastMonth, firstDay, lastDay⟩
            rw [daysInMonth_eq years (by omega)] at lastDay
            refine ⟨⟨years, months, days, by omega, by omega, by omega, by omega⟩, ?_, rfl, rfl, rfl⟩
            exact ⟨yearText, monthText, dayText, eq_of_splitOn_eq split, isYear, isMonth, isDay⟩
        · contradiction
    · contradiction
  · rintro ⟨date, ⟨yearText, monthText, dayText, rfl, isYear, isMonth, isDay⟩, rfl, rfl, rfl⟩
    have firstMonth := date.first_month
    have lastMonth := date.last_month
    have firstDay := date.first_day
    have lastDay := date.last_day
    unfold parseDate
    rw [splitOn_eq_of_notMem (isYear.notMem rfl) (isMonth.notMem rfl) (isDay.notMem rfl)]
    simp only [isYear.fixedDigits_eq, isMonth.fixedDigits_eq, isDay.fixedDigits_eq,
      Option.bind_eq_bind, Option.bind_some, daysInMonth_eq date.year lastMonth]
    exact if_pos (by omega)

/-- The parts of a time that stand for a time of day. -/
theorem clock_eq_some_iff {hourText minuteText secondText : Text} {seconds : Int} :
    (do
      let hour ← fixedDigits hourText 2
      let minute ← fixedDigits minuteText 2
      let second ← fixedDigits secondText 2
      if hour ≤ 23 ∧ minute ≤ 59 ∧ second ≤ 60 then
        some (hour * 3600 + minute * 60 + second)
      else
        none : Option Int) = some seconds ↔
      ∃ clock : Clock, Digits 2 clock.hour hourText ∧ Digits 2 clock.minute minuteText ∧
        Digits 2 clock.second secondText ∧ seconds = clock.seconds := by
  constructor
  · intro parsed
    simp only [Option.bind_eq_bind, Option.bind_eq_some_iff, fixedDigits_eq_some_iff] at parsed
    rcases parsed with ⟨_, ⟨hour, isHour, rfl⟩, _, ⟨minute, isMinute, rfl⟩, _,
      ⟨second, isSecond, rfl⟩, parsed⟩
    split at parsed
    · next inDay =>
        rcases inDay with ⟨hourLe, minuteLe, secondLe⟩
        rw [Option.some_inj] at parsed
        refine ⟨⟨hour, minute, second, by omega, by omega, by omega⟩, isHour, isMinute, isSecond, ?_⟩
        simp only [Clock.seconds]
        omega
    · contradiction
  · rintro ⟨clock, isHour, isMinute, isSecond, rfl⟩
    have hourLe := clock.hour_le
    have minuteLe := clock.minute_le
    have secondLe := clock.second_le
    simp only [isHour.fixedDigits_eq, isMinute.fixedDigits_eq, isSecond.fixedDigits_eq,
      Option.bind_eq_bind, Option.bind_some]
    rw [if_pos (by omega), Clock.seconds]
    simp

theorem parseTime_eq_some_iff {input : Text} {seconds : Int} :
    parseTime input = some seconds ↔ ∃ clock : Clock, WritesTime input clock ∧
      seconds = clock.seconds := by
  unfold parseTime
  constructor
  · intro parsed
    cases found : Node.splitOnce '.' input with
    | none =>
        rw [found, Option.getD_none] at parsed
        dsimp only at parsed
        rw [if_neg (by decide)] at parsed
        split at parsed
        · next hour minute second split =>
            rcases clock_eq_some_iff.mp parsed with ⟨clock, isHour, isMinute, isSecond, rfl⟩
            refine ⟨clock, ⟨hour, minute, second, [], ?_, isHour, isMinute, isSecond, .inl rfl⟩, rfl⟩
            rw [List.append_nil]
            exact eq_of_splitOn_eq split
        · contradiction
    | some parts =>
        rcases parts with ⟨before, fraction⟩
        rw [found, Option.getD_some] at parsed
        dsimp only at parsed
        split at parsed
        · contradiction
        · next isFraction =>
            rw [not_or, not_not] at isFraction
            split at parsed
            · next hour minute second split =>
                rcases clock_eq_some_iff.mp parsed with ⟨clock, isHour, isMinute, isSecond, rfl⟩
                refine ⟨clock, ⟨hour, minute, second, '.' :: fraction, ?_, isHour, isMinute,
                  isSecond, .inr ⟨fraction, ?_, List.all_eq_true.mp isFraction.2, rfl⟩⟩, rfl⟩
                · rw [(Node.splitOnce_eq_some_iff.mp found).1, eq_of_splitOn_eq split]
                  simp
                · simpa using isFraction.1
            · contradiction
  · rintro ⟨clock, ⟨hour, minute, second, fraction, rfl, isHour, isMinute, isSecond, isFraction⟩, rfl⟩
    have undotted : '.' ∉ hour ++ ':' :: (minute ++ ':' :: second) := by
      simp [isHour.notMem, isMinute.notMem, isSecond.notMem]
    have split := splitOn_eq_of_notMem (isHour.notMem rfl) (isMinute.notMem rfl)
      (isSecond.notMem (c := ':') rfl)
    rcases isFraction with rfl | ⟨digits, nonempty, isDigits, rfl⟩
    · rw [List.append_nil, Node.splitOnce_eq_none_iff.mpr undotted, Option.getD_none]
      dsimp only
      rw [if_neg (by decide), split]
      exact clock_eq_some_iff.mpr ⟨clock, isHour, isMinute, isSecond, rfl⟩
    · have dotted : hour ++ ':' :: (minute ++ ':' :: (second ++ '.' :: digits)) =
          (hour ++ ':' :: (minute ++ ':' :: second)) ++ '.' :: digits := by
        simp
      rw [dotted, Node.splitOnce_eq_some_iff.mpr ⟨rfl, undotted⟩, Option.getD_some]
      dsimp only
      rw [if_neg, split]
      · exact clock_eq_some_iff.mpr ⟨clock, isHour, isMinute, isSecond, rfl⟩
      · simp [nonempty, List.all_eq_true.mpr isDigits]

/-! ## The whole -/

theorem WritesDate.notMem {input : Text} {date : Date} (written : WritesDate input date) {c : Char}
    (other : c.isDigit = false) (noDash : c ≠ '-') : c ∉ input := by
  rcases written.parts with ⟨year, month, day, rfl, isYear, isMonth, isDay⟩
  simp [isYear.notMem other, isMonth.notMem other, isDay.notMem other, noDash]

theorem WritesTime.notMem {input : Text} {clock : Clock} (written : WritesTime input clock) {c : Char}
    (other : c.isDigit = false) (noColon : c ≠ ':') (noDot : c ≠ '.') : c ∉ input := by
  rcases written.parts with ⟨hour, minute, second, fraction, rfl, isHour, isMinute, isSecond,
    rfl | ⟨digits, -, isDigits, rfl⟩⟩
  · simp [isHour.notMem other, isMinute.notMem other, isSecond.notMem other, noColon]
  · have notFraction : c ∉ digits := by
      intro member
      rw [isDigits c member] at other
      contradiction
    simp [isHour.notMem other, isMinute.notMem other, isSecond.notMem other, noColon, noDot,
      notFraction]

/-- A year of four digits is not far from the epoch. -/
theorem sinceEpoch_bounds {date : Date} (year : date.year ≤ 9999) :
    -719528 ≤ date.sinceEpoch ∧ date.sinceEpoch < 2932897 := by
  have below := date.ordinal_lt_year
  have last := daysBeforeYear_mono (Nat.succ_le_succ year)
  have all := daysBeforeYear_eq 10000
  rw [Date.sinceEpoch, Date.ordinal_epoch]
  change daysBeforeYear (date.year + 1) ≤ daysBeforeYear 10000 at last
  omega

theorem Clock.seconds_le (clock : Clock) : clock.seconds ≤ 86400 := by
  have hourLe := clock.hour_le
  have minuteLe := clock.minute_le
  have secondLe := clock.second_le
  rw [seconds]
  omega

theorem checkedI64_eq_some {value : Int} (low : -9223372036854775808 ≤ value)
    (high : value ≤ 9223372036854775807) : checkedI64 value = some value :=
  if_pos ⟨low, high⟩

theorem Spells.year_le {input : Text} {date : Date} {clock : Clock} (spells : Spells input date clock) :
    date.year ≤ 9999 := by
  rcases spells with ⟨⟨_, _, _, -, isYear, -, -⟩, -, -, -⟩
  exact Nat.le_of_lt_succ isYear.lt

theorem zone_eq_some_iff {input body : Text} :
    (stripSuffix 'Z' input).or (stripSuffix 'z' input) = some body ↔
      ∃ zone, (zone = 'Z' ∨ zone = 'z') ∧ input = body ++ [zone] := by
  constructor
  · intro stripped
    cases upper : stripSuffix 'Z' input with
    | some found =>
        rw [upper, Option.some_or, Option.some_inj] at stripped
        exact ⟨'Z', .inl rfl, stripSuffix_eq_some_iff.mp (stripped ▸ upper)⟩
    | none =>
        rw [upper, Option.none_or] at stripped
        exact ⟨'z', .inr rfl, stripSuffix_eq_some_iff.mp stripped⟩
  · rintro ⟨zone, rfl | rfl, rfl⟩
    · rw [stripSuffix_eq_some_iff.mpr rfl, Option.some_or]
    · have lower : stripSuffix 'Z' (body ++ ['z']) = none := by
        simp [stripSuffix]
      rw [lower, Option.none_or, stripSuffix_eq_some_iff.mpr rfl]

theorem exists_separator {body day time : Text}
    (split : (Node.splitOnce 'T' body).or (Node.splitOnce 't' body) = some (day, time)) :
    ∃ separator, (separator = 'T' ∨ separator = 't') ∧ body = day ++ separator :: time := by
  cases upper : Node.splitOnce 'T' body with
  | some found =>
      rw [upper, Option.some_or] at split
      exact ⟨'T', .inl rfl, (Node.splitOnce_eq_some_iff.mp (upper.trans split)).1⟩
  | none =>
      rw [upper, Option.none_or] at split
      exact ⟨'t', .inr rfl, (Node.splitOnce_eq_some_iff.mp split).1⟩

theorem splitOnce_separator {separator : Char} {day time : Text}
    (isSeparator : separator = 'T' ∨ separator = 't') (inDay : ∀ c ∈ ['T', 't'], c ∉ day)
    (inTime : 'T' ∉ time) :
    (Node.splitOnce 'T' (day ++ separator :: time)).or
      (Node.splitOnce 't' (day ++ separator :: time)) = some (day, time) := by
  rcases isSeparator with rfl | rfl
  · rw [Node.splitOnce_eq_some_iff.mpr ⟨rfl, inDay 'T' (by simp)⟩, Option.some_or]
  · have upper : 'T' ∉ day ++ 't' :: time := by
      simp [inDay 'T' (by simp), inTime]
    rw [Node.splitOnce_eq_none_iff.mpr upper, Option.none_or,
      Node.splitOnce_eq_some_iff.mpr ⟨rfl, inDay 't' (by simp)⟩]

/-- The last two operations stay within `i64`. -/
theorem checkedI64_instant {date : Date} (clock : Clock) (year : date.year ≤ 9999) :
    checkedI64 (date.sinceEpoch * 86400) = some (date.sinceEpoch * 86400) ∧
      checkedI64 (date.sinceEpoch * 86400 + (clock.seconds : Int)) = some (epochSeconds date clock) := by
  rcases sinceEpoch_bounds year with ⟨low, high⟩
  have seconds := clock.seconds_le
  constructor
  · exact checkedI64_eq_some (by omega) (by omega)
  · rw [checkedI64_eq_some (by omega) (by omega), epochSeconds, Int.mul_comm]

/-- What is read is of the grammar, and is the instant that is written. -/
theorem parseRfc3339Utc_eq_some_iff {input : Text} {value : Int} :
    parseRfc3339Utc input = some value ↔
      ∃ date clock, Spells input date clock ∧ value = epochSeconds date clock := by
  unfold parseRfc3339Utc
  constructor
  · intro parsed
    simp only [Option.bind_eq_bind, Option.bind_eq_some_iff, zone_eq_some_iff] at parsed
    rcases parsed with ⟨body, ⟨zone, isZone, rfl⟩, ⟨day, time⟩, split, ⟨year, month, number⟩,
      isDate, seconds, isTime, days, isDays, total⟩
    rcases exists_separator split with ⟨separator, isSeparator, rfl⟩
    rcases parseDate_eq_some_iff.mp isDate with ⟨date, written, rfl, rfl, rfl⟩
    rcases parseTime_eq_some_iff.mp isTime with ⟨clock, timed, rfl⟩
    have spells : Spells (day ++ separator :: (time ++ [zone])) date clock :=
      .written written timed isSeparator isZone
    rcases checkedI64_instant clock spells.year_le with ⟨ofDays, ofSeconds⟩
    rw [daysFromCivil_eq, ofDays, Option.some_inj] at isDays
    rw [← isDays, ofSeconds, Option.some_inj] at total
    refine ⟨date, clock, ?_, total.symm⟩
    rw [List.append_assoc, List.cons_append]
    exact spells
  · rintro ⟨date, clock, spells, isValue⟩
    rcases checkedI64_instant clock spells.year_le with ⟨ofDays, ofSeconds⟩
    rw [isValue]
    rcases spells with ⟨written, timed, isSeparator, isZone⟩
    next day time separator zone =>
      have body : day ++ separator :: (time ++ [zone]) = (day ++ separator :: time) ++ [zone] := by
        simp
      have inDay : ∀ c ∈ ['T', 't'], c ∉ day := by
        intro c member
        simp only [List.mem_cons, List.not_mem_nil, or_false] at member
        rcases member with rfl | rfl
        · exact written.notMem rfl (by decide)
        · exact written.notMem rfl (by decide)
      have inTime : 'T' ∉ time := timed.notMem rfl (by decide) (by decide)
      rw [zone_eq_some_iff.mpr ⟨zone, isZone, body⟩]
      simp only [Option.bind_eq_bind, Option.bind_some,
        splitOnce_separator isSeparator inDay inTime,
        parseDate_eq_some_iff.mpr ⟨date, written, rfl, rfl, rfl⟩,
        parseTime_eq_some_iff.mpr ⟨clock, timed, rfl⟩, daysFromCivil_eq, ofDays, ofSeconds]

/-- Every date of the years 0000 to 9999 can be written. -/
theorem exists_spells {date : Date} (clock : Clock) (year : date.year ≤ 9999) :
    ∃ input, Spells input date clock := by
  have lastMonth := date.last_month
  have lastDay : date.day ≤ 31 := date.last_day.trans (monthLength_le _ _)
  have hourLe := clock.hour_le
  have minuteLe := clock.minute_le
  have secondLe := clock.second_le
  have two : ∀ value, value ≤ 99 → Digits 2 value (zeroPadded 2 value) := by
    intro value small
    exact digits_zeroPadded (by decide) (Nat.lt_succ_of_le small)
  exact ⟨_, .written
    ⟨_, _, _, rfl, digits_zeroPadded (by decide) (Nat.lt_succ_of_le year),
      two _ (by omega), two _ (by omega)⟩
    ⟨_, _, _, _, rfl, two _ (by omega), two _ (by omega), two _ (by omega), .inl rfl⟩
    (.inl rfl) (.inl rfl)⟩

/-- What is nowhere near the ends of `i64`. -/
theorem checkedI64_of_small {value : Int} (low : -1000000000000 ≤ value)
    (high : value ≤ 1000000000000) : checkedI64 value = some value :=
  checkedI64_eq_some (by omega) (by omega)

theorem checkedDayOfYear_eq {ofMonth day : Int} (firstMonth : 0 ≤ ofMonth) (lastMonth : ofMonth ≤ 11)
    (firstDay : 1 ≤ day) (lastDay : day ≤ 31) :
    checkedDayOfYear ofMonth day = some ((153 * ofMonth + 2).tdiv 5 + day - 1) := by
  have quotient := Int.tdiv_eq_ediv_of_nonneg (a := 153 * ofMonth + 2) (b := 5) (by omega)
  simp only [checkedDayOfYear, Option.bind_eq_bind]
  rw [checkedI64_of_small, Option.bind_some, checkedI64_of_small, Option.bind_some,
    checkedI64_of_small, Option.bind_some, checkedI64_of_small, Option.bind_some,
    checkedI64_of_small]
  all_goals omega

theorem checkedDaysOfEra_eq {yearOfEra : Int} (first : 0 ≤ yearOfEra) (last : yearOfEra ≤ 399) :
    checkedDaysOfEra yearOfEra =
      some (yearOfEra * 365 + yearOfEra.tdiv 4 - yearOfEra.tdiv 100) := by
  have fourths := Int.tdiv_eq_ediv_of_nonneg (b := 4) first
  have centuries := Int.tdiv_eq_ediv_of_nonneg (b := 100) first
  simp only [checkedDaysOfEra, Option.bind_eq_bind]
  rw [checkedI64_of_small, Option.bind_some, checkedI64_of_small, Option.bind_some,
    checkedI64_of_small, Option.bind_some, checkedI64_of_small, Option.bind_some,
    checkedI64_of_small]
  all_goals omega

/-- The civil-days arithmetic stays within `i64`. -/
theorem checkedDays_eq {year month day : Int} (firstYear : 0 ≤ year) (lastYear : year ≤ 9999)
    (firstMonth : 1 ≤ month) (lastMonth : month ≤ 12) (firstDay : 1 ≤ day) (lastDay : day ≤ 31) :
    checkedDays year month day = some (daysFromCivil year month day) := by
  unfold checkedDays daysFromCivil
  have shiftedYear : -1 ≤ (if month ≤ 2 then year - 1 else year) ∧
      (if month ≤ 2 then year - 1 else year) ≤ 9999 := by
    split <;> omega
  have shiftedMonth : 0 ≤ (if 2 < month then month - 3 else month + 9) ∧
      (if 2 < month then month - 3 else month + 9) ≤ 11 := by
    split <;> omega
  generalize (if month ≤ 2 then year - 1 else year) = shifted at shiftedYear ⊢
  generalize (if 2 < month then month - 3 else month + 9) = ofMonth at shiftedMonth ⊢
  dsimp only
  rw [@checkedI64_of_small shifted (by omega) (by omega), Option.bind_eq_bind, Option.bind_some]
  have era := era_eq shifted
  have dividend : -400 ≤ (if 0 ≤ shifted then shifted else shifted - 399) ∧
      (if 0 ≤ shifted then shifted else shifted - 399) ≤ 9999 := by
    split <;> omega
  generalize (if 0 ≤ shifted then shifted else shifted - 399) = divided at era dividend ⊢
  have monthDays := Int.tdiv_eq_ediv_of_nonneg (a := 153 * ofMonth + 2) (b := 5) (by omega)
  have fourths := Int.tdiv_eq_ediv_of_nonneg (a := shifted - divided.tdiv 400 * 400) (b := 4)
    (by omega)
  have centuries := Int.tdiv_eq_ediv_of_nonneg (a := shifted - divided.tdiv 400 * 400) (b := 100)
    (by omega)
  rw [checkedI64_of_small, Option.bind_some, checkedI64_of_small, Option.bind_some,
    checkedI64_of_small, Option.bind_some, checkedI64_of_small, Option.bind_some,
    checkedI64_of_small, Option.bind_some, checkedDayOfYear_eq, Option.bind_some,
    checkedDaysOfEra_eq, Option.bind_some, checkedI64_of_small, Option.bind_some,
    checkedI64_of_small, Option.bind_some, checkedI64_of_small, Option.bind_some,
    checkedI64_of_small]
  all_goals omega

/-- The arithmetic of an instant stays within `i64`. -/
theorem checkedInstant_eq {date : Date} (clock : Clock) (year : date.year ≤ 9999) :
    checkedInstant date.year date.month date.day clock.hour clock.minute clock.second =
      some (epochSeconds date clock) := by
  have firstMonth := date.first_month
  have lastMonth := date.last_month
  have firstDay := date.first_day
  have lastDay : date.day ≤ 31 := date.last_day.trans (monthLength_le _ _)
  have hourLe := clock.hour_le
  have minuteLe := clock.minute_le
  have secondLe := clock.second_le
  rcases sinceEpoch_bounds year with ⟨low, high⟩
  unfold checkedInstant
  rw [checkedDays_eq (by omega) (by omega) (by omega) (by omega) (by omega) (by omega),
    daysFromCivil_eq]
  simp only [Option.bind_eq_bind, Option.bind_some]
  rw [checkedI64_of_small, Option.bind_some, checkedI64_of_small, Option.bind_some,
    checkedI64_of_small, Option.bind_some, checkedI64_of_small, Option.bind_some,
    checkedI64_of_small, Option.bind_some, checkedI64_of_small, epochSeconds, Clock.seconds]
  · rw [Option.some_inj]
    push_cast
    omega
  all_goals omega

/-- What is later in the calendar is no earlier instant. -/
theorem epochSeconds_mono {date later : Date} {clock other : Clock}
    (ordered : date.Before later ∨ date = later ∧ clock.NotAfter other) :
    epochSeconds date clock ≤ epochSeconds later other := by
  have seconds := clock.seconds_le
  rcases ordered with before | ⟨rfl, notAfter⟩
  · have days := Date.sinceEpoch_lt_sinceEpoch before
    rw [epochSeconds, epochSeconds]
    omega
  · have minuteLe := clock.minute_le
    have secondLe := clock.second_le
    have inDay : clock.seconds ≤ other.seconds := by
      rw [Clock.seconds, Clock.seconds]
      rcases notAfter with hour | ⟨hour, minute | ⟨minute, second⟩⟩
      · omega
      · omega
      · omega
    rw [epochSeconds, epochSeconds]
    omega

/-- Instants are read exactly. -/
theorem reads_instants : ReadsInstants where
  exactly _ _ := parseRfc3339Utc_eq_some_iff
  everyDate _ clock year := exists_spells clock year
  monotone := epochSeconds_mono
  nextDate date clock := by
    rw [epochSeconds, epochSeconds, Date.sinceEpoch_next]
    omega
  noOverflow {_ _ clock} spells := checkedInstant_eq clock spells.year_le

end SipxClstr.Document
