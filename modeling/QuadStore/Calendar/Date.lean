
namespace QuadStore

/-- A day by year, month and day of the month, each counted from one except the year. -/
structure Date where
  year : Int
  month : Nat
  day : Nat
deriving DecidableEq

namespace Date

/-- Years of the proleptic Gregorian calendar, with a year zero and negative years before it. -/
def isLeapYear (year : Int) : Bool :=
  year % 4 == 0 && (year % 100 != 0 || year % 400 == 0)

def daysInMonth (year : Int) (month : Nat) : Nat :=
  if month = 2 then if isLeapYear year then 29 else 28
  else if month = 4 ∨ month = 6 ∨ month = 9 ∨ month = 11 then 30
  else 31

/-- Whether there is such a day. -/
def isValid (d : Date) : Bool :=
  1 ≤ d.month && d.month ≤ 12 && 1 ≤ d.day && d.day ≤ daysInMonth d.year d.month

/-- Days from the first of March of the year zero to the first of March of the year. -/
def daysBeforeMarch (year : Int) : Int :=
  365 * year + year / 4 - year / 100 + year / 400

/-- Days from the first of March to the first of the `n`-th month after it. -/
def daysAfterMarch (n : Nat) : Nat :=
  (153 * n + 2) / 5

/-- Days since the first of January 1970. Years are taken to begin in March, so that the day that
a leap year adds comes last. -/
def toDays (d : Date) : Int :=
  let year := if d.month ≤ 2 then d.year - 1 else d.year
  daysBeforeMarch year + daysAfterMarch ((d.month + 9) % 12) + d.day - 1 - 719468

/-- The day that lies a number of days after the first of January 1970. -/
def ofDays (days : Int) : Date :=
  let n := days + 719468
  let era := n / 146097
  let dayOfEra := (n % 146097).toNat
  let yearOfEra := (dayOfEra - dayOfEra / 1460 + dayOfEra / 36524 - dayOfEra / 146096) / 365
  let dayOfYear := dayOfEra - (365 * yearOfEra + yearOfEra / 4 - yearOfEra / 100)
  let n := (5 * dayOfYear + 2) / 153
  let month := if n < 10 then n + 3 else n - 9
  let year : Int := 400 * era + yearOfEra
  ⟨if month ≤ 2 then year + 1 else year, month, dayOfYear - daysAfterMarch n + 1⟩

example : toDays ⟨1970, 1, 1⟩ = 0 := by decide

example : toDays ⟨2000, 2, 29⟩ = 11016 := by decide

example : ofDays 11016 = ⟨2000, 2, 29⟩ := by decide

example : ofDays (-719529) = ⟨-1, 12, 31⟩ := by decide

end Date
end QuadStore
