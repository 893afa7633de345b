import QuadStore.Number.Shortest
import QuadStore.Text.Decimal

namespace QuadStore.Binary64

open QuadStore.Text

/-- Without zeros at the end. -/
def Decimal.strip (d : Decimal) : Decimal :=
  if d.digits ≠ 0 ∧ d.digits % 10 = 0 then Decimal.strip ⟨d.digits / 10, d.exponent + 1⟩ else d
termination_by d.digits
decreasing_by omega

/-- Digits with a point after the first `point` of them, filled up with zeros on both sides. One
digit stands on each side of the point. -/
def positional (digits : List Char) (point : Int) : List Char :=
  if point ≤ 0 then '0' :: '.' :: List.replicate (-point).toNat '0' ++ digits
  else
    let whole := digits.take point.toNat
    let rest := digits.drop point.toNat
    whole ++ List.replicate (point.toNat - digits.length) '0' ++ '.' ::
      (if rest.isEmpty then ['0'] else rest)

/-- One digit before the point, the others after it, and the power of ten. -/
def scientific (digits : List Char) (power : Int) : List Char :=
  digits.take 1 ++ (if digits.length ≤ 1 then [] else '.' :: digits.drop 1) ++
    'e' :: (intText power).toList

/-- A finite magnitude. Numbers from a ten thousandth up to ten to the sixteenth are written by
position, others with a power of ten. -/
def magnitudeText (magnitude : Nat) : List Char :=
  if magnitude = 0 then ['0', '.', '0']
  else
    let d := (shortest magnitude).strip
    let ds := Text.digits d.digits
    let point : Int := ds.length + d.exponent
    if -3 ≤ point ∧ point ≤ 16 then positional ds point else scientific ds (point - 1)

/-- The shortest decimal that is read as the number, or its name if it has no digits. -/
def text (x : Binary64) : String :=
  if x.isNaN then "NaN"
  else
    let body := if x.isInfinite then ['i', 'n', 'f'] else magnitudeText x.magnitude
    String.ofList (if x.negative then '-' :: body else body)

/-- The number nearest to `digits * 10 ^ power`. Beyond 400 places before or after the point every
number is infinite or zero. -/
def ofDecimal (negative : Bool) (digits : Nat) (power : Int) : Binary64 :=
  let top := (digitCount digits : Int) + power
  if digits = 0 ∨ top < -400 then ofMagnitude negative 0
  else if 400 < top then ofMagnitude negative infinity
  else ofQuotient negative (digits * tenPow power.toNat) (tenPow (-power).toNat)

/-- Reads the power of ten after a mark. Without one it is zero. -/
def readPower : List Char → Option Int
  | [] => some 0
  | c :: rest =>
      if c = 'e' ∨ c = 'E' then
        let (negative, ds) := splitSign rest
        (readNat ds).map fun n => if negative then -n else n
      else none

/-- Reads a decimal without sign: digits with a point among them or at an end, one digit at least,
and a power of ten. -/
def readUnsigned (negative : Bool) (s : List Char) : Option Binary64 :=
  let whole := s.takeWhile isDigit
  let rest := s.dropWhile isDigit
  let (fraction, rest) :=
    match rest with
    | '.' :: rest => (rest.takeWhile isDigit, rest.dropWhile isDigit)
    | _ => ([], rest)
  if whole.isEmpty && fraction.isEmpty then none
  else
    (readPower rest).map fun power =>
      ofDecimal negative (natOfDigits (whole ++ fraction)) (power - fraction.length)

/-- Reads a number: a decimal, or a name of infinity or of no number in any case of letters. -/
def read (s : List Char) : Option Binary64 :=
  let (negative, rest) := splitSign s
  let name := String.ofList (rest.map Char.toLower)
  if name = "inf" ∨ name = "infinity" then some (ofMagnitude negative infinity)
  else if name = "nan" then some { nan with negative }
  else readUnsigned negative rest

example : (ofInt 42).text = "42.0" := by decide +kernel

example : (ofBits 1).text = "5e-324" := by decide +kernel

example : (ofBits 0x3FB999999999999A).text = "0.1" := by decide +kernel

example : (read ".5e1".toList).map bits = some 0x4014000000000000 := by decide +kernel

end QuadStore.Binary64
