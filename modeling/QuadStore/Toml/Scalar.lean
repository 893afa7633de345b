import QuadStore.Calendar.Date
import QuadStore.Toml.Value

namespace QuadStore.Toml

open QuadStore.Text

/-- Digits in groups, with an underscore between two groups; gives back the digits alone. -/
def groupedDigits (test : Char → Bool) : List Char → Option (List Char)
  | [] => none
  | [c] => if test c then some [c] else none
  | c :: '_' :: rest => if test c then (groupedDigits test rest).map (c :: ·) else none
  | c :: rest => if test c then (groupedDigits test rest).map (c :: ·) else none

/-- The digit of a character to base sixteen. -/
def hexValue (c : Char) : Nat :=
  if isDigit c then digitValue c
  else if 'a' ≤ c ∧ c ≤ 'f' then c.toNat - 87
  else c.toNat - 55

def isHexDigit (c : Char) : Bool :=
  isDigit c || ('a' ≤ c && c ≤ 'f') || ('A' ≤ c && c ≤ 'F')

def natOfBase (base : Nat) (s : List Char) : Nat :=
  s.foldl (fun n c => base * n + hexValue c) 0

/-- Integers take 64 bits, with sign or without. -/
def integer? (i : Int) : Option Value :=
  if -9223372036854775808 ≤ i ∧ i ≤ 18446744073709551615 then some (.integer i) else none

/-- Whether no needless zero comes first. -/
def leadsWell : List Char → Bool
  | '0' :: _ :: _ => false
  | _ => true

/-- Reads an integer to base ten, or to another base that is marked. -/
def readInteger (s : List Char) : Option Value :=
  match s with
  | '0' :: 'x' :: rest =>
      (groupedDigits isHexDigit rest).bind fun ds => integer? (natOfBase 16 ds)
  | '0' :: 'o' :: rest =>
      (groupedDigits (fun c => '0' ≤ c && c ≤ '7') rest).bind fun ds => integer? (natOfBase 8 ds)
  | '0' :: 'b' :: rest =>
      (groupedDigits (fun c => c == '0' || c == '1') rest).bind fun ds =>
        integer? (natOfBase 2 ds)
  | _ =>
      let (negative, rest) := splitSign s
      (groupedDigits isDigit rest).bind fun ds =>
        if leadsWell ds then
          integer? (if negative then -(natOfDigits ds : Int) else natOfDigits ds)
        else none

/-- Whether a character begins the power of ten of a number. -/
def isPowerMark (c : Char) : Bool :=
  c == 'e' || c == 'E'

/-- Reads a number with a fraction or a power of ten, or one that has a name. -/
def readFloat (s : List Char) : Option Value :=
  let (negative, rest) := splitSign s
  if rest = ['i', 'n', 'f'] then some (.float (Binary64.ofMagnitude negative Binary64.infinity))
  else if rest = ['n', 'a', 'n'] then some (.float { Binary64.nan with negative })
  else do
    let mantissa := rest.takeWhile fun c => !isPowerMark c
    let tail := rest.drop mantissa.length
    let whole ← groupedDigits isDigit (mantissa.takeWhile (· != '.'))
    let fraction ←
      match mantissa.dropWhile (· != '.') with
      | [] => if tail.isEmpty then none else some []
      | _ :: ds => groupedDigits isDigit ds
    let power ←
      match tail with
      | [] => some []
      | _ :: p => (groupedDigits isDigit (splitSign p).2).map fun ds =>
          'e' :: (if (splitSign p).1 then '-' :: ds else ds)
    if leadsWell whole then
      (Binary64.readUnsigned negative (whole ++ '.' :: fraction ++ power)).map .float
    else none

def takeDigits (count : Nat) (s : List Char) : Option (Nat × List Char) :=
  let ds := s.take count
  if ds.length = count && ds.all isDigit then some (natOfDigits ds, s.drop count) else none

def takeMark (test : Char → Bool) : List Char → Option (List Char)
  | c :: rest => if test c then some rest else none
  | [] => none

/-- A day that there is in the calendar. -/
def takeDate (s : List Char) : Option (List Char) := do
  let (year, rest) ← takeDigits 4 s
  let rest ← takeMark (· == '-') rest
  let (month, rest) ← takeDigits 2 rest
  let rest ← takeMark (· == '-') rest
  let (day, rest) ← takeDigits 2 rest
  if (Date.mk year month day).isValid then some rest else none

/-- A time of day; the seconds and their fraction may be left out. -/
def takeTime (s : List Char) : Option (List Char) := do
  let (hour, rest) ← takeDigits 2 s
  let rest ← takeMark (· == ':') rest
  let (minute, rest) ← takeDigits 2 rest
  if 23 < hour || 59 < minute then none
  else
    match rest with
    | ':' :: rest => do
        let (second, rest) ← takeDigits 2 rest
        if 60 < second then none
        else
          match rest with
          | '.' :: rest =>
              if (rest.takeWhile isDigit).isEmpty then none else some (rest.dropWhile isDigit)
          | _ => some rest
    | _ => some rest

/-- An offset, which may be left out. -/
def takeOffset (s : List Char) : Option (List Char) :=
  match s with
  | [] => some []
  | c :: rest =>
      if c = 'Z' ∨ c = 'z' then some rest
      else if c = '+' ∨ c = '-' then do
        let (hour, rest) ← takeDigits 2 rest
        let rest ← takeMark (· == ':') rest
        let (minute, rest) ← takeDigits 2 rest
        if 23 < hour || 59 < minute then none else some rest
      else none

/-- Reads a date, a time of day, or both. Only both may have an offset. -/
def readDateTime (s : List Char) : Option Value :=
  let rest :=
    match takeDate s with
    | some [] => some []
    | some (c :: rest) =>
        if c = 'T' ∨ c = 't' ∨ c = ' ' then (takeTime rest).bind takeOffset else none
    | none => takeTime s
  if rest = some [] then some (.dateTime (String.ofList s)) else none

/-- Reads a value without quotes. Dates come first, as they begin like numbers. -/
def readWord (s : List Char) : Option Value :=
  if s = "true".toList then some (.boolean true)
  else if s = "false".toList then some (.boolean false)
  else (readDateTime s).or ((readInteger s).or (readFloat s))

end QuadStore.Toml
