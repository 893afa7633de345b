import QuadStore.Text.CaseTable

namespace QuadStore.Text

def CapitalRun.holds (run : CapitalRun) (code : Nat) : Bool :=
  run.first ≤ code && code ≤ run.last && (code - run.first) % run.step == 0

/-- The lower case form of a character that stands alone. -/
def lowerChar (c : Char) : List Char :=
  if c = 'İ' then ['i', '\u0307']
  else
    match capitalRuns.find? fun run => run.holds c.toNat with
    | some run => [Char.ofNat (c.toNat + run.shift).toNat]
    | none => [c]

/-- Whether a character is passed over when the end of a word is looked for. -/
def isCaseIgnorable (c : Char) : Bool :=
  inRanges caseIgnorableRanges c

/-- Whether a character has a case, so that it counts as part of a word. -/
def isCased (c : Char) : Bool :=
  inRanges casedRanges c

/-- Whether the first character that is not passed over is a letter with case. -/
def startsCased (s : List Char) : Bool :=
  match s.dropWhile isCaseIgnorable with
  | c :: _ => isCased c
  | [] => false

/-- Lower-cases a text whose preceding characters, nearest first, are `before`. A sigma is final
when a letter comes before it and none after it. -/
def lowerAfter (before : List Char) : List Char → List Char
  | [] => []
  | c :: rest =>
      let form :=
        if c = 'Σ' then
          if startsCased before && !startsCased rest then ['ς'] else ['σ']
        else lowerChar c
      form ++ lowerAfter (c :: before) rest

/-- A text in lower case, with the final form of sigma at the end of words. -/
def lowerCase (s : String) : String :=
  String.ofList (lowerAfter [] s.toList)

example : lowerCase "De-AT" = "de-at" := by decide +kernel

example : lowerCase "ΑΣ ΑΣx" = "ας ασx" := by decide +kernel

end QuadStore.Text
