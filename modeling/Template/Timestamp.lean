import Template.Files
import Template.Text.Basic

/-! # Timestamps

A time on a disk as a date and a time of day, in universal time. The written form is that of
Internet timestamps: as many fractional digits as the nanoseconds need, in groups of three,
then the offset.
-/

namespace Template

/-- A moment of a calendar day. -/
structure Timestamp where
  year : Nat
  month : Nat
  /-- The day of the month, from 1. -/
  day : Nat
  /-- The seconds since the day began. -/
  second : Nat
  /-- The nanoseconds since the second began. -/
  nanosecond : Nat
  deriving DecidableEq, Repr

namespace Timestamp

/-- Days between the first of March of the year 0 and the beginning of 1970. -/
def daysToEpoch : Nat := 719468

def daysPerCycle : Nat := 146097

/-- Year, month and day after a number of days since the beginning of 1970. Years are counted
    from the first of March, so that a leap day ends its year and a cycle of four centuries. -/
def date (days : Nat) : Nat × Nat × Nat :=
  let days := days + daysToEpoch
  let inCycle := days % daysPerCycle
  let yearInCycle := (inCycle - inCycle / 1460 + inCycle / 36524 - inCycle / 146096) / 365
  let inYear := inCycle - (365 * yearInCycle + yearInCycle / 4 - yearInCycle / 100)
  let fromMarch := (5 * inYear + 2) / 153
  let day := inYear - (153 * fromMarch + 2) / 5 + 1
  let month := if fromMarch < 10 then fromMarch + 3 else fromMarch - 9
  let year := days / daysPerCycle * 400 + yearInCycle
  (if month ≤ 2 then year + 1 else year, month, day)

/-- The moment that is a number of nanoseconds after the beginning of 1970. -/
def ofTime (time : Time) : Timestamp :=
  let seconds := time / 1000000000
  let (year, month, day) := date (seconds / 86400)
  ⟨year, month, day, seconds % 86400, time % 1000000000⟩

/-- Fraction of a second: nothing, milliseconds, microseconds or nanoseconds. -/
def fraction (nanosecond : Nat) : Text :=
  if nanosecond = 0 then []
  else if nanosecond % 1000000 = 0 then '.' :: Text.padded 10 3 (nanosecond / 1000000)
  else if nanosecond % 1000 = 0 then '.' :: Text.padded 10 6 (nanosecond / 1000)
  else '.' :: Text.padded 10 9 nanosecond

/-- The written form before the offset. A year with more than four digits has a sign. -/
def written (stamp : Timestamp) : Text :=
  let two := Text.padded 10 2
  (if 9999 < stamp.year then ['+'] else []) ++ Text.padded 10 4 stamp.year ++
    '-' :: two stamp.month ++ '-' :: two stamp.day ++
    'T' :: two (stamp.second / 3600) ++ ':' :: two (stamp.second / 60 % 60) ++
    ':' :: two (stamp.second % 60) ++ fraction stamp.nanosecond

/-- The written form with the offset as hours and minutes. -/
def withOffset (stamp : Timestamp) : Text := stamp.written ++ "+00:00".toList

/-- The written form with the offset as a letter. -/
def withZone (stamp : Timestamp) : Text := stamp.written ++ ['Z']

end Timestamp

end Template
