import QuadStore.Toml.Scalar

/-!
Documents in the TOML format: lines that set keys, headers that open tables, and values. A reader
takes the characters that are left and gives back what it read with the rest, or nothing when the
text is malformed.
-/

namespace QuadStore.Toml

open QuadStore.Text

/-- Blanks within a line. -/
def isGap (c : Char) : Bool :=
  c == ' ' || c == '\t'

/-- Skips blanks within a line. -/
def skipGaps (s : List Char) : List Char :=
  s.dropWhile isGap

/-- Characters that may not stand as they are, tabs apart. -/
def isControl (c : Char) : Bool :=
  (c.toNat < 32 && c != '\t') || c.toNat == 127

/-- Reads a line end, of one character or two. -/
def takeNewline : List Char → Option (List Char)
  | '\n' :: rest => some rest
  | '\r' :: '\n' :: rest => some rest
  | _ => none

/-- Skips a comment, if one begins. Nothing but the end of its line may stop it. -/
def skipComment (s : List Char) : Option (List Char) :=
  match s with
  | '#' :: rest =>
      let after := rest.dropWhile fun c => !isControl c
      if after.isEmpty || (takeNewline after).isSome then some after else none
  | _ => some s

/-- Skips blanks, comments and line ends, at most `fuel` lines of them. -/
def skipLines : Nat → List Char → Option (List Char)
  | 0, s => some s
  | fuel + 1, s =>
      (skipComment (skipGaps s)).bind fun rest =>
        match takeNewline rest with
        | some rest => skipLines fuel rest
        | none => some rest

/-- Reads the end of a line, after which nothing may be left on it. -/
def endLine (s : List Char) : Option (List Char) :=
  (skipComment (skipGaps s)).bind fun rest =>
    if rest.isEmpty then some [] else takeNewline rest

/-- Reads a code point of `count` digits to base sixteen. -/
def takeCodePoint (count : Nat) (s : List Char) : Option (Char × List Char) :=
  let ds := s.take count
  let code := natOfBase 16 ds
  if ds.length = count && ds.all isHexDigit &&
    (code < 0xD800 || 0xDFFF < code && code < 0x110000) then
    some (Char.ofNat code, s.drop count)
  else none

/-- Reads what follows a backslash. -/
def takeEscape : List Char → Option (Char × List Char)
  | 'b' :: rest => some ('\x08', rest)
  | 't' :: rest => some ('\t', rest)
  | 'n' :: rest => some ('\n', rest)
  | 'f' :: rest => some ('\x0c', rest)
  | 'r' :: rest => some ('\r', rest)
  | 'e' :: rest => some ('\x1b', rest)
  | '"' :: rest => some ('"', rest)
  | '\\' :: rest => some ('\\', rest)
  | 'x' :: rest => takeCodePoint 2 rest
  | 'u' :: rest => takeCodePoint 4 rest
  | 'U' :: rest => takeCodePoint 8 rest
  | _ => none

/-- Reads a text up to a double quote, of at most `fuel` characters. -/
def takeBasic : Nat → List Char → Option (List Char × List Char)
  | 0, _ => none
  | fuel + 1, s =>
      match s with
      | '"' :: rest => some ([], rest)
      | '\\' :: rest => do
          let (c, rest) ← takeEscape rest
          let (text, rest) ← takeBasic fuel rest
          some (c :: text, rest)
      | c :: rest =>
          if isControl c then none
          else (takeBasic fuel rest).map fun (text, rest) => (c :: text, rest)
      | [] => none

/-- Reads a text up to a single quote; nothing in it is an escape. -/
def takeLiteral : List Char → Option (List Char × List Char)
  | '\'' :: rest => some ([], rest)
  | c :: rest =>
      if isControl c then none
      else (takeLiteral rest).map fun (text, rest) => (c :: text, rest)
  | [] => none

/-- The end of a text over several lines: three quotes, with up to two more that belong to it. -/
def takeClosing (quote : Char) (s : List Char) : Option (List Char × List Char) :=
  let quotes := (s.take 5).takeWhile (· == quote)
  if quotes.length < 3 then none else some (quotes.drop 3, s.drop quotes.length)

/-- Reads a text over several lines. A backslash at the end of a line joins it to the next
one that is not blank. -/
def takeLongBasic : Nat → List Char → Option (List Char × List Char)
  | 0, _ => none
  | fuel + 1, s =>
      match takeClosing '"' s with
      | some closing => some closing
      | none =>
          match s with
          | '\\' :: rest =>
              if (takeNewline (skipGaps rest)).isSome then
                takeLongBasic fuel
                  (rest.dropWhile fun c => isGap c || c == '\n' || c == '\r')
              else do
                let (c, rest) ← takeEscape rest
                let (text, rest) ← takeLongBasic fuel rest
                some (c :: text, rest)
          | '\r' :: '\n' :: rest =>
              (takeLongBasic fuel rest).map fun (text, rest) => ('\r' :: '\n' :: text, rest)
          | c :: rest =>
              if isControl c && c != '\n' then none
              else (takeLongBasic fuel rest).map fun (text, rest) => (c :: text, rest)
          | [] => none

/-- Reads a text over several lines in which nothing is an escape. -/
def takeLongLiteral : Nat → List Char → Option (List Char × List Char)
  | 0, _ => none
  | fuel + 1, s =>
      match takeClosing '\'' s with
      | some closing => some closing
      | none =>
          match s with
          | '\r' :: '\n' :: rest =>
              (takeLongLiteral fuel rest).map fun (text, rest) => ('\r' :: '\n' :: text, rest)
          | c :: rest =>
              if isControl c && c != '\n' then none
              else (takeLongLiteral fuel rest).map fun (text, rest) => (c :: text, rest)
          | [] => none

/-- The line end after three quotes does not belong to the text. -/
def dropFirstNewline (s : List Char) : List Char :=
  (takeNewline s).getD s

/-- Reads a text in any of the four kinds of quotes. -/
def takeText (s : List Char) : Option (List Char × List Char) :=
  match s with
  | '"' :: '"' :: '"' :: rest => takeLongBasic (s.length + 1) (dropFirstNewline rest)
  | '\'' :: '\'' :: '\'' :: rest => takeLongLiteral (s.length + 1) (dropFirstNewline rest)
  | '"' :: rest => takeBasic (s.length + 1) rest
  | '\'' :: rest => takeLiteral rest
  | _ => none

/-- Characters of keys without quotes. -/
def isBare (c : Char) : Bool :=
  isDigit c || ('a' ≤ c && c ≤ 'z') || ('A' ≤ c && c ≤ 'Z') || c == '_' || c == '-'

/-- Reads one part of a key, in quotes or without. -/
def takeKeyPart (s : List Char) : Option (String × List Char) :=
  match s with
  | '"' :: rest =>
      (takeBasic (s.length + 1) rest).map fun (key, rest) => (String.ofList key, rest)
  | '\'' :: rest => (takeLiteral rest).map fun (key, rest) => (String.ofList key, rest)
  | _ =>
      let key := s.takeWhile isBare
      if key.isEmpty then none else some (String.ofList key, s.drop key.length)

/-- Reads a key: parts with dots between them, at most `fuel`. -/
def takeKey : Nat → List Char → Option (List String × List Char)
  | 0, _ => none
  | fuel + 1, s => do
      let (part, rest) ← takeKeyPart (skipGaps s)
      match skipGaps rest with
      | '.' :: rest => do
          let (parts, rest) ← takeKey fuel rest
          some (part :: parts, rest)
      | rest => some ([part], rest)

/-- Characters of values without quotes. -/
def isWordChar (c : Char) : Bool :=
  isBare c || c == '+' || c == '.' || c == ':'

/-- Reads a word. A date goes on after one space when a time follows. -/
def takeWord (s : List Char) : List Char × List Char :=
  let word := s.takeWhile isWordChar
  let rest := s.drop word.length
  match rest with
  | ' ' :: more =>
      if takeDate word = some [] && (takeTime (more.takeWhile isWordChar)).isSome then
        let time := more.takeWhile isWordChar
        (word ++ ' ' :: time, more.drop time.length)
      else (word, rest)
  | _ => (word, rest)

mutual
/-- Reads a value. The fuel bounds how many values may stand in one another or side by side. -/
def takeValue : Nat → List Char → Option (Value × List Char)
  | 0, _ => none
  | fuel + 1, s =>
      match s with
      | '"' :: _ => (takeText s).map fun (text, rest) => (.string (String.ofList text), rest)
      | '\'' :: _ => (takeText s).map fun (text, rest) => (.string (String.ofList text), rest)
      | '[' :: rest => (takeItems fuel rest).map fun (items, rest) => (.array items, rest)
      | '\x7b' :: rest =>
          (takeInline fuel rest []).map fun (entries, rest) => (.table (finishAll entries), rest)
      | _ =>
          let (word, rest) := takeWord s
          (readWord word).map fun value => (value, rest)

/-- Reads the items of an array up to its end. A comma may stand after the last one. -/
def takeItems : Nat → List Char → Option (List Value × List Char)
  | 0, _ => none
  | fuel + 1, s => do
      let rest ← skipLines (s.length + 1) s
      match rest with
      | ']' :: rest => some ([], rest)
      | _ => do
          let (value, rest) ← takeValue fuel rest
          let rest ← skipLines (rest.length + 1) rest
          match rest with
          | ',' :: rest => do
              let (values, rest) ← takeItems fuel rest
              some (value :: values, rest)
          | ']' :: rest => some ([value], rest)
          | _ => none

/-- Reads the entries of a table in braces up to its end. -/
def takeInline : Nat → List Char → Entries → Option (Entries × List Char)
  | 0, _, _ => none
  | fuel + 1, s, entries => do
      let rest ← skipLines (s.length + 1) s
      match rest with
      | '\x7d' :: rest => some (entries, rest)
      | _ => do
          let (key, rest) ← takeKey (rest.length + 1) rest
          let rest ← takeMark (· == '=') rest
          let (value, rest) ← takeValue fuel (skipGaps rest)
          let entries ← insertValue key.dropLast (key.getLastD "") value .header entries
          let rest ← skipLines (rest.length + 1) rest
          match rest with
          | ',' :: rest => takeInline fuel rest entries
          | '\x7d' :: rest => some (entries, rest)
          | _ => none
end

/-- Reads the key of a header, its closing brackets and the end of the line. -/
def takeHeader (closing : List Char) (s : List Char) : Option (List String × List Char) := do
  let (key, rest) ← takeKey (s.length + 1) s
  if closing.isPrefixOf rest then
    (endLine (rest.drop closing.length)).map fun rest => (key, rest)
  else none

/-- Reads the lines of a document, of which there are at most `fuel`. New keys go into the table
at the path `current`. -/
def readLines : Nat → (current : List String) → Entries → List Char → Option Entries
  | 0, _, root, _ => some root
  | fuel + 1, current, root, s => do
      let rest ← skipLines (s.length + 1) s
      match rest with
      | [] => some root
      | '[' :: '[' :: rest => do
          let (key, rest) ← takeHeader [']', ']'] rest
          let root ← openNextTable key.dropLast (key.getLastD "") root
          readLines fuel key root rest
      | '[' :: rest => do
          let (key, rest) ← takeHeader [']'] rest
          let root ← openTable key.dropLast (key.getLastD "") root
          readLines fuel key root rest
      | _ => do
          let (key, rest) ← takeKey (rest.length + 1) rest
          let rest ← takeMark (· == '=') rest
          let rest := skipGaps rest
          let (value, rest) ← takeValue (rest.length + 1) rest
          let root ←
            updateAt .passed current
              (fun origin => insertValue key.dropLast (key.getLastD "") value origin) .header root
          let rest ← endLine rest
          readLines fuel current root rest

/-- Reads a document. A mark of the byte order may come first. -/
def read (text : String) : Option (List (String × Value)) :=
  let s :=
    match text.toList with
    | '\ufeff' :: rest => rest
    | s => s
  (readLines (s.length + 1) [] [] s).map finishAll

end QuadStore.Toml
