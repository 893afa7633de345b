import QuadStore.Calendar.Moment
import QuadStore.Text.Blank

namespace QuadStore.Moment

open QuadStore.Text

/-- Why a text is no timestamp. -/
inductive TimestampError
  | tooShort
  | invalid
  | outOfRange
  | tooLong
deriving DecidableEq

/-- What is reported of a text that is no time. -/
def TimestampError.message : TimestampError → String
  | .tooShort => "premature end of input"
  | .invalid => "input contains invalid characters"
  | .outOfRange => "input is out of range"
  | .tooLong => "trailing input"

def readDigits (count : Nat) (s : List Char) : Except TimestampError (Nat × List Char) :=
  if (s.take count).all isDigit then .ok (natOfDigits (s.take count), s.drop count)
  else .error .invalid

def readMark (test : Char → Bool) : List Char → Except TimestampError (List Char)
  | c :: rest => if test c then .ok rest else .error .invalid
  | [] => .error .tooShort

/-- Reads the fraction of a second, in nanoseconds. Digits after the ninth do not count. -/
def readFraction (s : List Char) : Except TimestampError (Nat × List Char) :=
  match s with
  | '.' :: rest =>
      let ds := rest.takeWhile isDigit
      if rest.isEmpty then .error .tooShort
      else if ds.isEmpty then .error .invalid
      else .ok (natOfDigits ((ds ++ List.replicate 9 '0').take 9), rest.dropWhile isDigit)
  | _ => .ok (0, s)

/-- Reads two digits, as a number below a hundred. -/
def readPair : List Char → Except TimestampError (Nat × List Char)
  | a :: b :: rest =>
      if isDigit a && isDigit b then .ok (natOfDigits [a, b], rest) else .error .invalid
  | _ => .error .tooShort

/-- Reads an offset: `Z`, or a sign with hours and minutes. -/
def readOffset : List Char → Except TimestampError (Int × List Char)
  | [] => .error .tooShort
  | c :: rest =>
      if c = 'Z' ∨ c = 'z' then .ok (0, rest)
      else if c = '+' ∨ c = '-' ∨ c = '−' then do
        let (hours, rest) ← readPair rest
        let rest ← readMark (· == ':') rest
        let (minutes, rest) ← readPair rest
        if 59 < minutes then .error .outOfRange
        else
          let seconds : Int := hours * 3600 + minutes * 60
          .ok (if c = '+' then seconds else -seconds, rest)
      else .error .invalid

/-- Seconds since the epoch, of a day and a time in universal time. -/
def secondsOf (d : Date) (hour minute second : Nat) : Int :=
  d.toDays * 86400 + (hour * 3600 + minute * 60 + second : Nat)

/-- Reads a timestamp. The second sixty is the leap second after the fifty-ninth. -/
def readTimestamp (s : String) : Except TimestampError Moment := do
  if s.utf8ByteSize < 19 then throw .tooShort
  let (year, rest) ← readDigits 4 s.toList
  let rest ← readMark (· == '-') rest
  let (month, rest) ← readDigits 2 rest
  let rest ← readMark (· == '-') rest
  let (day, rest) ← readDigits 2 rest
  let date : Date := ⟨year, month, day⟩
  if !date.isValid then throw .outOfRange
  let rest ← readMark (fun c => c == 'T' || c == 't' || c == ' ') rest
  let (hour, rest) ← readDigits 2 rest
  let rest ← readMark (· == ':') rest
  let (minute, rest) ← readDigits 2 rest
  let rest ← readMark (· == ':') rest
  let (second, rest) ← readDigits 2 rest
  let (nanos, rest) ← readFraction rest
  if 23 < hour || 59 < minute || 60 < second then throw .outOfRange
  let (offset, rest) ← readOffset rest
  if !rest.isEmpty then throw .tooLong
  let leap := second / 60
  let seconds := secondsOf date hour minute (second - leap) - offset
  match ofParts? seconds (nanos + leap * 1000000000) offset with
  | some m => .ok m
  | none => .error .outOfRange

/-- Reads between one and `width` digits after any blanks. -/
def readField (width : Nat) (s : List Char) : Option (Nat × List Char) :=
  let s := trimStart s
  let ds := (s.take width).takeWhile isDigit
  if ds.isEmpty then none else some (natOfDigits ds, s.drop ds.length)

/-- Reads a year after any blanks: up to four digits, or any number of them after a sign. -/
def readYear (s : List Char) : Option (Int × List Char) :=
  let s := trimStart s
  match s with
  | '-' :: rest => signed rest (-1)
  | '+' :: rest => signed rest 1
  | _ => (readField 4 s).map fun (n, rest) => ((n : Int), rest)
where
  signed (s : List Char) (sign : Int) : Option (Int × List Char) :=
    let ds := s.takeWhile isDigit
    if ds.isEmpty then none else some (sign * natOfDigits ds, s.drop ds.length)

/-- Reads a date of the years that dates are kept for, as midnight in universal time. -/
def readDate (s : List Char) : Option Moment := do
  let (year, rest) ← readYear s
  let rest ← readDash rest
  let (month, rest) ← readField 2 rest
  let rest ← readDash rest
  let (day, rest) ← readField 2 rest
  let date : Date := ⟨year, month, day⟩
  if rest.isEmpty && date.isValid && -262143 ≤ year && year ≤ 262142 then
    ofParts? (secondsOf date 0 0 0) 0 0
  else none
where
  readDash : List Char → Option (List Char)
    | '-' :: rest => some rest
    | _ => none

end QuadStore.Moment
