import DatabasePool.Text.Decimal
import DatabasePool.Time

/-!
# Calendar time

A timestamp is a moment of universal time: the whole seconds since the start
of 1970, which may be negative, and the nanoseconds within the second.  In the
last second of a minute the nanoseconds may run on for one more second, which
is a leap second.

A timestamp is written as date and time of the Gregorian calendar, with the
second `60` for a leap second and with none, three, six or nine digits after
the point, the fewest that are exact.
-/

namespace DatabasePool

/-- A day of the Gregorian calendar. -/
structure Date where
  year : Int
  month : Nat
  day : Nat
  deriving DecidableEq, Repr

namespace Date

/-- The days of four centuries. -/
def cycleDays : Nat := 146097

/-- The days from the first of March of the year 0 to the start of 1970. -/
def epochDays : Nat := 719468

/-- The date a number of days after the start of 1970.  Years are counted
from March on, so that a leap day is the last day of its year. -/
def ofDays (days : Int) : Date :=
  let shifted := days + epochDays
  let cycle := shifted / cycleDays
  let day := (shifted % cycleDays).toNat
  let year := (day - day / 1460 + day / 36524 - day / 146096) / 365
  let dayOfYear := day - (365 * year + year / 4 - year / 100)
  let month := (5 * dayOfYear + 2) / 153
  { year := year + cycle * 400 + if month < 10 then 0 else 1
    month := if month < 10 then month + 3 else month - 9
    day := dayOfYear - (153 * month + 2) / 5 + 1 }

/-- The text of a year: four digits, or a sign and at least four digits when
the year is before 0 or after 9999. -/
def yearText (year : Int) : String :=
  if 0 ≤ year && year ≤ 9999 then Text.paddedNumeral 4 year.toNat
  else
    (if year < 0 then "-" else "+") ++ Text.paddedNumeral 4 year.natAbs

/-- The text of a date. -/
def text (d : Date) : String :=
  yearText d.year ++ "-" ++ Text.paddedNumeral 2 d.month ++ "-" ++
    Text.paddedNumeral 2 d.day

end Date

/-- A moment of universal time. -/
structure Timestamp where
  /-- Whole seconds since the start of 1970. -/
  seconds : Int
  /-- Nanoseconds within the second, a leap second included. -/
  nanos : Nat
  deriving DecidableEq, Repr

namespace Timestamp

/-- The seconds of a day. -/
def perDay : Nat := 86400

/-- The first and the last year that can be represented. -/
def firstYear : Int := -262143

@[inherit_doc firstYear]
def lastYear : Int := 262142

/-- The date of a timestamp. -/
def date (t : Timestamp) : Date := .ofDays (t.seconds / perDay)

/-- The seconds of a timestamp since midnight. -/
def secondOfDay (t : Timestamp) : Nat := (t.seconds % perDay).toNat

/-- The timestamp is one that can be represented. -/
def isValid (t : Timestamp) : Bool :=
  firstYear ≤ t.date.year && t.date.year ≤ lastYear &&
    (t.nanos < Time.perSecond ||
      (t.nanos < 2 * Time.perSecond && t.secondOfDay % 60 = 59))

/-- The timestamp with the given parts, if it can be represented. -/
def ofParts? (seconds : Int) (nanos : Nat) : Option Timestamp :=
  let t : Timestamp := ⟨seconds, nanos⟩
  if t.isValid then some t else none

/-- The fraction of a second, in groups of three digits. -/
def fractionText (nanos : Nat) : String :=
  if nanos = 0 then ""
  else if nanos % 1000000 = 0 then
    "." ++ Text.paddedNumeral 3 (nanos / 1000000)
  else if nanos % 1000 = 0 then "." ++ Text.paddedNumeral 6 (nanos / 1000)
  else "." ++ Text.paddedNumeral 9 nanos

/-- Date and time, followed by a word for the zone. -/
def textWith (zone : String) (t : Timestamp) : String :=
  let ofDay := t.secondOfDay
  let leap := Time.perSecond ≤ t.nanos
  let second := ofDay % 60 + if leap then 1 else 0
  t.date.text ++ "T" ++
    Text.paddedNumeral 2 (ofDay / 3600) ++ ":" ++
    Text.paddedNumeral 2 (ofDay / 60 % 60) ++ ":" ++
    Text.paddedNumeral 2 second ++
    fractionText (if leap then t.nanos - Time.perSecond else t.nanos) ++ zone

/-- The timestamp with universal time as an offset. -/
def text (t : Timestamp) : String := t.textWith "+00:00"

/-- The timestamp with universal time as a letter. -/
def zuluText (t : Timestamp) : String := t.textWith "Z"

end Timestamp

end DatabasePool
