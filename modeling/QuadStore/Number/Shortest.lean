import QuadStore.Number.Binary64

namespace QuadStore.Binary64

/-- A decimal `digits * 10 ^ exponent`. -/
structure Decimal where
  digits : Nat
  exponent : Int

/-- How many decimal digits a number takes, none for zero. -/
def digitCount (n : Nat) : Nat :=
  if n = 0 then 0 else digitCount (n / 10) + 1
termination_by n
decreasing_by omega

/-- The least `k` with `num / den < 10 ^ k`. -/
def ceilLog10 (num den : Nat) : Int :=
  if den ≤ num then digitCount (num / den)
  else 1 - digitCount ((den + num - 1) / num - 1 : Nat)

/-- The decimals that round to a magnitude: those from `low` to `high`, in units in which the
magnitude itself is `value`. The ends belong to them when the significand is even. -/
structure Interval where
  low : Nat
  value : Nat
  high : Nat
  closed : Bool

/-- Whether a number lies in an interval. The ends may belong to it or not. -/
def Interval.holds (i : Interval) (x : Nat) : Bool :=
  if i.closed then i.low ≤ x && x ≤ i.high else i.low < x && x < i.high

/-- The interval of a finite magnitude above zero, in quarters of its last place times `scale`.
Below a power of two the next magnitude is only half as far away. -/
def interval (magnitude scale : Nat) : Interval :=
  let m := significand magnitude
  let below := if magnitude % twoPow 52 = 0 && twoPow 52 < magnitude then 1 else 2
  ⟨(4 * m - below) * scale, 4 * m * scale, (4 * m + 2) * scale, m % 2 = 0⟩

/-- The decimal nearest to the value on the grid of the multiples of `unit`, if one of the value's
two neighbours there lies in the interval; a tie goes up. -/
def gridPoint (i : Interval) (unit : Nat) : Option Nat :=
  let down := i.value / unit
  let up := down + 1
  match i.holds (down * unit), i.holds (up * unit) with
  | true, true => some (if 2 * (i.value % unit) < unit then down else up)
  | true, false => some down
  | false, true => some up
  | false, false => none

/-- Tries the grids of `count` digits and more, at most `fuel` of them. -/
def shortestFrom (magnitude : Nat) (top : Int) : (fuel count : Nat) → Decimal
  | 0, _ => ⟨significand magnitude, 0⟩
  | fuel + 1, count =>
      let place : Int := top - count
      let e := exponent magnitude - 2
      let i := interval magnitude (twoPow e.toNat * tenPow (-place).toNat)
      match gridPoint i (twoPow (-e).toNat * tenPow place.toNat) with
      | some digits => ⟨digits, place⟩
      | none => shortestFrom magnitude top fuel (count + 1)

/-- The shortest decimal of a finite magnitude above zero. Seventeen digits always suffice. -/
def shortest (magnitude : Nat) : Decimal :=
  let m := significand magnitude
  let e := exponent magnitude
  shortestFrom magnitude (ceilLog10 (m * twoPow e.toNat) (twoPow (-e).toNat)) 17 1

end QuadStore.Binary64
