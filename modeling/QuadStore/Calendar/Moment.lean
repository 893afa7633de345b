import QuadStore.Calendar.Date
import QuadStore.Number.Power
import QuadStore.Text.Decimal

namespace QuadStore

/-- An instant with the offset of the clock that shows it. A billion nanoseconds or more
stand for a leap second that follows the given second, which need not be the last one of its
minute in universal time. -/
structure Moment where
  /-- Seconds since the start of 1970 in universal time. -/
  seconds : Int
  nanos : Nat
  /-- Seconds by which the clock is ahead of universal time. -/
  offset : Int
  nanos_lt : nanos < 2000000000
  offset_lt : offset.natAbs < 86400
deriving DecidableEq

namespace Moment

/-- The moment with the given parts, when they are in range. -/
def ofParts? (seconds : Int) (nanos : Nat) (offset : Int) : Option Moment :=
  if h : nanos < 2000000000 ∧ offset.natAbs < 86400 then
    some ⟨seconds, nanos, offset, h.1, h.2⟩
  else none

/-- The same moment, as clocks at another offset show it. -/
def withOffset? (m : Moment) (offset : Int) : Option Moment :=
  ofParts? m.seconds m.nanos offset

def toUtc (m : Moment) : Moment :=
  ⟨m.seconds, m.nanos, 0, m.nanos_lt, by decide⟩

/-- Seconds since the start of 1970 on the clock that shows the moment. -/
def localSeconds (m : Moment) : Int :=
  m.seconds + m.offset

/-- The day that local clocks show. -/
def date (m : Moment) : Date :=
  Date.ofDays (m.localSeconds / 86400)

/-- How many seconds local clocks show since midnight, a leap second apart. -/
def secondOfDay (m : Moment) : Nat :=
  (m.localSeconds % 86400).toNat

open Text

/-- Years take four digits, and a sign when these are not enough. -/
def yearText (year : Int) : List Char :=
  if 0 ≤ year ∧ year ≤ 9999 then paddedDigits 4 year.toNat
  else (if year < 0 then '-' else '+') :: paddedDigits 4 year.natAbs

/-- A day as year, month and day with hyphens between them. -/
def calendarText (d : Date) : List Char :=
  yearText d.year ++ '-' :: paddedDigits 2 d.month ++ '-' :: paddedDigits 2 d.day

/-- Hours, minutes and seconds of the clock. A leap second is counted as the second after
the one that it follows. -/
def clockText (m : Moment) : List Char :=
  let s := m.secondOfDay
  paddedDigits 2 (s / 3600) ++ ':' :: paddedDigits 2 (s / 60 % 60) ++ ':' ::
    paddedDigits 2 (s % 60 + m.nanos / 1000000000)

/-- A fraction of a second with the given number of digits. -/
def fractionText (places nanos : Nat) : List Char :=
  '.' :: paddedDigits places (nanos / tenPow (9 - places))

/-- A fraction of a second with as many groups of three digits as it needs. -/
def shortFractionText (nanos : Nat) : List Char :=
  if nanos = 0 then []
  else if nanos % 1000000 = 0 then fractionText 3 nanos
  else if nanos % 1000 = 0 then fractionText 6 nanos
  else fractionText 9 nanos

/-- An offset in hours and minutes, rounded to whole minutes. -/
def offsetText (offset : Int) : List Char :=
  if offset = 0 then ['Z']
  else
    let minutes := (offset.natAbs + 30) / 60
    (if offset < 0 then '-' else '+') :: paddedDigits 2 (minutes / 60) ++ ':' ::
      paddedDigits 2 (minutes % 60)

/-- A moment with its offset, in the form of RFC 3339. -/
def text (m : Moment) : String :=
  String.ofList (calendarText m.date ++ 'T' :: m.clockText ++
    shortFractionText (m.nanos % 1000000000) ++ offsetText m.offset)

def dateText (m : Moment) : String :=
  String.ofList (calendarText m.date)

/-- Date and time in universal time with all nine places of the fraction, so that all such texts
of four-digit years are equally long. They are meant to order as the instants do. -/
def columnText (m : Moment) : String :=
  let m := m.toUtc
  String.ofList (calendarText m.date ++ 'T' :: m.clockText ++
    fractionText 9 (m.nanos % 1000000000) ++ ['Z'])

end Moment
end QuadStore
