import QuadStore.Node

namespace QuadStore

/-- What makes a literal the literal it is. -/
structure LiteralKey where
  content : String
  language : Option String
  datatype : Option String
deriving DecidableEq

/-- What makes a node the node it is. -/
inductive NodeKey
  | uri (uri : String)
  | blank (label : String)
  | literal (key : LiteralKey)
deriving DecidableEq

/-- The key of a literal with the given parts. Languages are compared in lower case. -/
def LiteralKey.make (content : String) (language datatype : Option String) : LiteralKey :=
  ⟨content, language.map Text.lowerCase, datatype⟩

/-- What two literals have to agree in to be the same. -/
def Literal.key (l : Literal) : LiteralKey :=
  .make l.content l.language l.datatypeUri

/-- One value in the sequence that a hash of a node is computed from. -/
inductive FingerprintItem
  | tag (n : Nat)
  | text (s : String)
  | option (s : Option String)
deriving DecidableEq

namespace Node

/-- What two nodes have to agree in to be the same, whatever their ids. -/
def key (n : Node) : NodeKey :=
  match n.term with
  | .uri uri => .uri uri
  | .blank label => .blank label
  | .literal l => .literal l.key

def literalKey? (n : Node) : Option LiteralKey :=
  n.literal?.map Literal.key

/-- Whether two nodes are the same term. -/
def same (a b : Node) : Bool :=
  match a.term, b.term with
  | .uri x, .uri y => x == y
  | .blank x, .blank y => x == y
  | .literal x, .literal y =>
      x.content == y.content && x.language == y.language && x.datatypeUri == y.datatypeUri
  | _, _ => false

/-- The values that a hash of the node is computed from. -/
def fingerprint (n : Node) : List FingerprintItem :=
  match n.term with
  | .uri uri => [.tag 0, .text uri]
  | .blank label => [.tag 1, .text label]
  | .literal l =>
      [.tag 2, .option (some l.content), .option l.language, .option l.datatypeUri]

end Node
end QuadStore
