import MonitorCoverage.Decimal.Integer

/-!
# Moments and durations

A moment is counted in nanoseconds and written as date and time of day at its place, with the
distance of that place from universal time. A duration is written in hours, minutes and seconds, or
in the largest unit below a second of which it has at least one.
-/

namespace MonitorCoverage.Log

/-- A moment between the years 1677 and 2262. -/
structure Moment where
  /-- Nanoseconds since the beginning of 1970, in universal time. -/
  nanoseconds : Int64
  /-- How many seconds the clocks of the place are ahead of universal time. -/
  ahead : Int32
  deriving DecidableEq, Repr

/-- A number with zeros in front of it, so that it has at least some digits. -/
def paddedDigits (width n : Nat) : List Char :=
  let digits := Decimal.ofNat n
  List.replicate (width - digits.length) '0' ++ digits

/-- Digits behind a point, without the zeros at their end; without digits there is no point. -/
def fractionDigits (width n : Nat) : List Char :=
  match ((paddedDigits width n).reverse.dropWhile (· = '0')).reverse with
  | [] => []
  | digits => '.' :: digits

namespace Moment

/-- A day of the calendar. -/
structure Date where
  year : Nat
  month : Nat
  day : Nat
  deriving DecidableEq, Repr

/-- The day that comes a number of days after the first of March of the year zero. Years are counted
from March on, so that a leap day is the last day of its year; 400 years have 146097 days, and five
months from March or August on have 153. -/
def Date.ofDays (days : Nat) : Date :=
  let ofEra := days % 146097
  let yearOfEra := (ofEra - ofEra / 1460 + ofEra / 36524 - ofEra / 146096) / 365
  let ofYear := ofEra - (365 * yearOfEra + yearOfEra / 4 - yearOfEra / 100)
  let month := (5 * ofYear + 2) / 153
  { year := days / 146097 * 400 + yearOfEra + if month < 10 then 0 else 1
    month := if month < 10 then month + 3 else month - 9
    day := ofYear - (153 * month + 2) / 5 + 1 }

/-- Nanoseconds on the clocks of the place since the first of March of the year zero, which is
719468 days before 1970. -/
def localNanoseconds (moment : Moment) : Nat :=
  (moment.nanoseconds.toInt + (moment.ahead.toInt + 719468 * 86400) * 1000000000).toNat

/-- The distance from universal time, to the minute. -/
def zone (moment : Moment) : List Char :=
  if moment.ahead = 0 then ['Z']
  else
    let minutes := (moment.ahead / 60).toInt
    (if minutes < 0 then '-' else '+') :: paddedDigits 2 (minutes.natAbs / 60)
      ++ ':' :: paddedDigits 2 (minutes.natAbs % 60)

/-- Date, time of day and zone. What stands behind the seconds is made of the nanoseconds. -/
def chars (moment : Moment) (behindSeconds : Nat → List Char) : List Char :=
  let seconds := moment.localNanoseconds / 1000000000
  let date := Date.ofDays (seconds / 86400)
  paddedDigits 4 date.year ++ '-' :: paddedDigits 2 date.month ++ '-' :: paddedDigits 2 date.day
    ++ 'T' :: paddedDigits 2 (seconds / 3600 % 24) ++ ':' :: paddedDigits 2 (seconds / 60 % 60)
    ++ ':' :: paddedDigits 2 (seconds % 60)
    ++ behindSeconds (moment.localNanoseconds % 1000000000) ++ moment.zone

/-- A moment to the millisecond. -/
def milliText (moment : Moment) : String :=
  String.ofList (moment.chars fun nanoseconds => '.' :: paddedDigits 3 (nanoseconds / 1000000))

/-- A moment with as many places of a second as it needs. -/
def nanoText (moment : Moment) : String := String.ofList (moment.chars (fractionDigits 9))

end Moment

/-- The text of a duration below a second: the whole units and the rest of a unit. -/
def subsecondChars (nanoseconds : Nat) : List Char :=
  if nanoseconds = 0 then ['0', 's']
  else if nanoseconds < 1000 then Decimal.ofNat nanoseconds ++ ['n', 's']
  else if nanoseconds < 1000000 then
    Decimal.ofNat (nanoseconds / 1000) ++ fractionDigits 3 (nanoseconds % 1000)
      ++ [Char.ofNat 0xB5, 's']
  else
    Decimal.ofNat (nanoseconds / 1000000) ++ fractionDigits 6 (nanoseconds % 1000000) ++ ['m', 's']

/-- A duration in nanoseconds as text. -/
def durationText (nanoseconds : Int64) : String :=
  let magnitude := nanoseconds.toInt.natAbs
  let seconds := magnitude / 1000000000
  let hours := if seconds < 3600 then [] else Decimal.ofNat (seconds / 3600) ++ ['h']
  let minutes := if seconds < 60 then [] else Decimal.ofNat (seconds / 60 % 60) ++ ['m']
  let chars :=
    if seconds = 0 then subsecondChars magnitude
    else
      hours ++ minutes ++ Decimal.ofNat (seconds % 60)
        ++ fractionDigits 9 (magnitude % 1000000000) ++ ['s']
  String.ofList (if nanoseconds < 0 then '-' :: chars else chars)

end MonitorCoverage.Log
