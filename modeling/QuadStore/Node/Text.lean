import QuadStore.Node

namespace QuadStore

/-- A character with a backslash in front, if it is the given one. -/
def marked (special c : Char) : List Char :=
  if c = special then ['\\', c] else [c]

/-- The content of a literal as it stands between quotes: backslashes are marked first,
and quotes after that. -/
def escapedContent (s : String) : String :=
  String.ofList ((s.toList.flatMap (marked '\\')).flatMap (marked '"'))

def Literal.text (l : Literal) : String :=
  let suffix :=
    match l.language, l.datatypeUri with
    | some language, _ => "@" ++ language
    | none, some datatype => "^^<" ++ datatype ++ ">"
    | none, none => ""
  "\"" ++ escapedContent l.content ++ "\"" ++ suffix

/-- A node in the syntax of N-Triples. -/
def Node.text (n : Node) : String :=
  match n.term with
  | .uri uri => "<" ++ uri ++ ">"
  | .blank label => "_:" ++ label
  | .literal l => l.text

end QuadStore
