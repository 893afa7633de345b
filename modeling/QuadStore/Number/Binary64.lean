import QuadStore.Number.Power

/-!
Floating point numbers of 64 bits, kept as a sign and the remaining 63 bits. As a number those
bits grow with the absolute value, so they order the finite values and rounding to the nearest
value is arithmetic on natural numbers.
-/

namespace QuadStore

/-- A number in the binary format of 64 bits. -/
structure Binary64 where
  negative : Bool
  /-- The bits below the sign: exponent, then fraction. -/
  magnitude : Nat
  magnitude_lt : magnitude < twoPow 63
deriving DecidableEq

namespace Binary64

/-- The magnitude of the infinities; greater ones stand for no number. -/
def infinity : Nat :=
  2047 * twoPow 52

def ofBits (bits : Nat) : Binary64 :=
  ⟨bits / twoPow 63 % 2 == 1, bits % twoPow 63, Nat.mod_lt _ (by decide)⟩

/-- The bits of a number, the sign first. -/
def bits (x : Binary64) : Nat :=
  (if x.negative then twoPow 63 else 0) + x.magnitude

/-- Whether it is no number. -/
def isNaN (x : Binary64) : Bool :=
  infinity < x.magnitude

def isInfinite (x : Binary64) : Bool :=
  x.magnitude == infinity

def isZero (x : Binary64) : Bool :=
  x.magnitude == 0

/-- The one that operations give. -/
def nan : Binary64 :=
  ⟨false, infinity + twoPow 51, by decide⟩

/-- A number of the given magnitude, where what is too large is infinite. -/
def ofMagnitude (negative : Bool) (magnitude : Nat) : Binary64 :=
  ⟨negative, min magnitude infinity, Nat.lt_of_le_of_lt (Nat.min_le_right _ _) (by decide)⟩

/-- The place of a number among all that are numbers: zero for both zeros. -/
def orderKey (x : Binary64) : Int :=
  if x.negative then -x.magnitude else x.magnitude

/-- A finite magnitude is `significand * 2 ^ exponent`. -/
def significand (magnitude : Nat) : Nat :=
  if magnitude / twoPow 52 = 0 then magnitude else twoPow 52 + magnitude % twoPow 52

/-- The power of two that the last digit of a magnitude stands for. -/
def exponent (magnitude : Nat) : Int :=
  if magnitude / twoPow 52 = 0 then -1074 else (magnitude / twoPow 52 : Nat) - 1075

/-- The quotient rounded to the nearest natural number, a half to the even neighbour. -/
def roundHalfEven (num den : Nat) : Nat :=
  let floor := num / den
  let rest := num % den
  if 2 * rest < den then floor
  else if 2 * rest = den then floor + floor % 2
  else floor + 1

/-- The greatest `e` with `2 ^ e ≤ num / den`. -/
def floorLog2 (num den : Nat) : Int :=
  let e : Int := (num.log2 : Int) - den.log2
  if num * twoPow (-e).toNat < den * twoPow e.toNat then e - 1 else e

/-- The magnitude nearest to a positive quotient; of two, the one with an even significand. -/
def roundMagnitude (num den : Nat) : Nat :=
  if num = 0 then 0
  else
    let e := max (-1074) (floorLog2 num den - 52)
    (e + 1074).toNat * twoPow 52 + roundHalfEven (num * twoPow (-e).toNat) (den * twoPow e.toNat)

/-- The number next to a quotient; of two that are equally near, the even one. -/
def ofQuotient (negative : Bool) (num den : Nat) : Binary64 :=
  ofMagnitude negative (roundMagnitude num den)

/-- The number next to an integer. -/
def ofInt (i : Int) : Binary64 :=
  ofQuotient (i < 0) i.natAbs 1

example : (ofInt 3).bits = 0x4008000000000000 := by decide +kernel

example : (ofInt (-9007199254740993)).bits = 0xC340000000000000 := by decide +kernel

end Binary64
end QuadStore
