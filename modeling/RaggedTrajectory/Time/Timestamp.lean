import RaggedTrajectory.Number.Binary
import RaggedTrajectory.Time.Calendar

/-!
# Moments

A moment is a date and a time of day without a zone. The last second of a minute can be followed by
a leap second, which is written as that second with a thousand million nanoseconds or more.
-/

namespace RaggedTrajectory

/-- A date and a time of day. -/
structure Timestamp where
  year : Int
  month : Nat
  day : Nat
  hour : Nat
  minute : Nat
  second : Nat
  /-- Nanoseconds; a thousand million or more in a leap second. -/
  nanosecond : Nat
  deriving DecidableEq, Repr

namespace Timestamp

/-- Nanoseconds of a second. -/
def perSecond : Nat := 1000000000

/-- Seconds of a day. -/
def perDay : Nat := 86400

/-- Whether there is such a moment. -/
def isValid (t : Timestamp) : Bool :=
  Calendar.isDate t.year t.month t.day ∧ t.hour < 24 ∧ t.minute < 60 ∧ t.second < 60 ∧
    (t.nanosecond < perSecond ∨ t.second = 59 ∧ t.nanosecond < 2 * perSecond)

/-- The number of the day. -/
def dayNumber (t : Timestamp) : Int := Calendar.dayNumber t.year t.month t.day

/-- The seconds since midnight. -/
def secondOfDay (t : Timestamp) : Nat := t.hour * 3600 + t.minute * 60 + t.second

/-- Whether the moment lies in a leap second. -/
def isLeapSecond (t : Timestamp) : Bool := perSecond ≤ t.nanosecond

/-- The nanoseconds from one moment to another. A leap second counts if it lies between the two in
the order of the times of day. -/
def nanosecondsSince (t origin : Timestamp) : Int :=
  let days := t.dayNumber - origin.dayNumber
  let seconds : Int := (t.secondOfDay : Int) - origin.secondOfDay
  let leap : Int :=
    if origin.secondOfDay < t.secondOfDay ∧ origin.isLeapSecond then 1
    else if t.secondOfDay < origin.secondOfDay ∧ t.isLeapSecond then -1
    else 0
  (days * perDay + seconds + leap) * perSecond + ((t.nanosecond : Int) - origin.nanosecond)

/-- The seconds from one moment to another, to the microsecond; to the millisecond where the
microseconds pass 64 bits. -/
def secondsSince (t origin : Timestamp) : Binary64 :=
  let nanoseconds := t.nanosecondsSince origin
  let whole := Int.tdiv nanoseconds perSecond
  let microseconds := Int.tdiv nanoseconds 1000
  let fits (n : Int) : Bool := -2 ^ 63 ≤ n ∧ n < 2 ^ 63
  if fits (whole * 1000000) ∧ fits microseconds then
    (Binary64.ofInt microseconds).div (Binary64.ofInt 1000000)
  else (Binary64.ofInt (Int.tdiv nanoseconds 1000000)).div (Binary64.ofInt 1000)

/-- The moment on a given day. -/
def ofDay? (dayNumber : Int) (secondOfDay nanosecond : Nat) : Option Timestamp :=
  let (year, month, day) := Calendar.ofDayNumber dayNumber
  if Calendar.minYear ≤ year ∧ year ≤ Calendar.maxYear then
    some ⟨year, month, day, secondOfDay / 3600, secondOfDay / 60 % 60, secondOfDay % 60, nanosecond⟩
  else none

/-- The moment a number of nanoseconds later. A leap second is left behind as soon as it ends, or
when whole seconds are added; going back from it counts the second it follows. -/
def add? (t : Timestamp) (nanoseconds : Int) : Option Timestamp :=
  let whole := Int.tdiv nanoseconds perSecond
  let part := Int.tmod nanoseconds perSecond
  let ordinary (second nanosecond : Int) : Option Timestamp :=
    let second := second + whole + (nanosecond + part) / perSecond
    ofDay? (t.dayNumber + second / perDay) (second % perDay).toNat
      ((nanosecond + part) % perSecond).toNat
  if t.isLeapSecond then
    if 0 < whole ∨ (0 < part ∧ (2 * perSecond : Nat) ≤ t.nanosecond + part) then
      ordinary t.secondOfDay (t.nanosecond - perSecond : Nat)
    else if whole < 0 then ordinary (t.secondOfDay + 1) (t.nanosecond - perSecond : Nat)
    else some { t with nanosecond := (t.nanosecond + part).toNat }
  else ordinary t.secondOfDay t.nanosecond

/-- The moment a number of seconds later, rounded to the microsecond. -/
def after? (origin : Timestamp) (seconds : Binary64) : Option Timestamp :=
  let microseconds := (seconds.mul (Binary64.ofInt 1000000)).roundWithin (-2 ^ 63) (2 ^ 63 - 1)
  origin.add? (microseconds * 1000)

end Timestamp

end RaggedTrajectory
