import SipxClstr.Document.Readers
import SipxClstr.Node.Listen

/-!
# Instants

The `Z` form of RFC 3339, read into UNIX seconds.  The fraction is checked and discarded,
for what is compared is whole seconds.
-/

namespace SipxClstr.Document

open SipxClstr.Sip Reading

/-- Exactly this many ASCII digits. -/
def fixedDigits (input : Text) (width : Nat) : Option Int :=
  if input.length = width ∧ input.all Char.isDigit then
    some (digitsValue input : Nat)
  else
    none

def isLeapYear (year : Int) : Bool :=
  year.tmod 4 = 0 && (year.tmod 100 ≠ 0 || year.tmod 400 = 0)

def daysInMonth (year month : Int) : Int :=
  if month ∈ [1, 3, 5, 7, 8, 10, 12] then
    31
  else if month ∈ [4, 6, 9, 11] then
    30
  else if month = 2 then
    if isLeapYear year then 29 else 28
  else
    0

/-- Days from 1970-01-01 in the proleptic Gregorian calendar. -/
def daysFromCivil (year month day : Int) : Int :=
  let year := if month ≤ 2 then year - 1 else year
  let era := (if 0 ≤ year then year else year - 399).tdiv 400
  let yearOfEra := year - era * 400
  let dayOfYear := (153 * (if 2 < month then month - 3 else month + 9) + 2).tdiv 5 + day - 1
  let dayOfEra := yearOfEra * 365 + yearOfEra.tdiv 4 - yearOfEra.tdiv 100 + dayOfYear
  era * 146097 + dayOfEra - 719468

/-- The value of a checked operation on `i64`. -/
def checkedI64 (value : Int) : Option Int :=
  if -9223372036854775808 ≤ value ∧ value ≤ 9223372036854775807 then some value else none

/-- `strip_suffix`, for one character. -/
def stripSuffix (suffix : Char) (input : Text) : Option Text :=
  if input.getLast? = some suffix then some input.dropLast else none

def parseDate (date : Text) : Option (Int × Int × Int) :=
  match date.splitOn '-' with
  | [year, month, day] => do
      let year ← fixedDigits year 4
      let month ← fixedDigits month 2
      let day ← fixedDigits day 2
      if 1 ≤ month ∧ month ≤ 12 ∧ 1 ≤ day ∧ day ≤ daysInMonth year month then
        some (year, month, day)
      else
        none
  | _ => none

/-- The seconds of a day.  The leap second is 60. -/
def parseTime (time : Text) : Option Int := do
  let (time, fraction) := (Node.splitOnce '.' time).getD (time, ['0'])
  if fraction.isEmpty ∨ ¬ fraction.all Char.isDigit then
    none
  else
    match time.splitOn ':' with
    | [hour, minute, second] => do
        let hour ← fixedDigits hour 2
        let minute ← fixedDigits minute 2
        let second ← fixedDigits second 2
        if hour ≤ 23 ∧ minute ≤ 59 ∧ second ≤ 60 then
          some (hour * 3600 + minute * 60 + second)
        else
          none
    | _ => none

/-- `YYYY-MM-DDTHH:MM:SS[.frac]Z` as UNIX seconds. -/
def parseRfc3339Utc (input : Text) : Option Int := do
  let body ← (stripSuffix 'Z' input).or (stripSuffix 'z' input)
  let (date, time) ← (Node.splitOnce 'T' body).or (Node.splitOnce 't' body)
  let (year, month, day) ← parseDate date
  let seconds ← parseTime time
  let days ← checkedI64 (daysFromCivil year month day * 86400)
  checkedI64 (days + seconds)

example : parseRfc3339Utc (text "2026-07-28T12:00:00Z") = some 1785240000 := by
  decide +kernel

example : parseRfc3339Utc (text "2026-07-28T-1:-5:-9Z") = none := by
  decide +kernel

/-- Read one absolute instant into UNIX seconds. -/
def readInstant (map : Mapping) (key : Text) (path : Path) : Reading (Option Int) :=
  match map.get key with
  | none =>
      refuse (.new (path.field key) "CC-KY4" none
        (text "an RFC 3339 UTC instant such as 2026-07-28T12:00:00Z; it is required, and a relative window is unrepresentable because the loader has no clock")) none
  | some value =>
      match value.asStr with
      | none =>
          refuse (.new (path.field key) "CC-KY4" (some (typeOf value))
            (text "an RFC 3339 UTC instant such as 2026-07-28T12:00:00Z")) none
      | some spelling =>
          match parseRfc3339Utc spelling with
          | some seconds => pure (some seconds)
          | none =>
              refuse (.new (path.field key) "CC-KY4" (some spelling)
                (text "an RFC 3339 UTC instant such as 2026-07-28T12:00:00Z; UTC is spelled `Z`, because one instant with two spellings is a window nobody can review in a diff")) none

end SipxClstr.Document
