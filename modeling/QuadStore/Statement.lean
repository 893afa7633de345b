import QuadStore.Error
import QuadStore.Node.Key

namespace QuadStore

/-- A statement with the id of its row and what is known of that row. -/
structure Statement where
  id : Int
  subject : Node
  predicate : Node
  object : Node
  context : Option Node
  creator : Option Node
  deleted : Bool
  /-- Whether a time of deletion is known. -/
  deletionTimed : Bool
  inferred : Bool
  /-- Whether the id was taken for this very copy of the statement. -/
  isNew : Bool
deriving DecidableEq

/-- Checks that subject and context are resources and the predicate is a URI. -/
def checkSlots (subject predicate : Node) (context : Option Node) :
    Except StatementFault Unit := do
  if !subject.isResource then throw (.wrongKind .subject subject)
  if !predicate.isUri then throw (.wrongKind .predicate predicate)
  match context with
  | some c => if !c.isResource then throw (.wrongKind .context c)
  | none => pure ()

namespace Statement

/-- A statement that is not stored yet, of nodes that may stand in their slots. -/
def make (subject predicate object : Node) (context : Option Node) :
    Except StatementFault Statement := do
  checkSlots subject predicate context
  pure {
    id := transientId, subject, predicate, object, context, creator := none, deleted := false,
    deletionTimed := false, inferred := false, isNew := false }

def isPersisted (t : Statement) : Bool :=
  0 ≤ t.id

/-- A statement in the syntax of N-Triples, with its context if it has one. -/
def text (t : Statement) : String :=
  t.subject.text ++ " " ++ t.predicate.text ++ " " ++ t.object.text ++
    (match t.context with
      | some c => " " ++ c.text
      | none => "") ++ " ."

/-- Whether two optional nodes are both absent or the same term. -/
def sameOption : Option Node → Option Node → Bool
  | some a, some b => a.same b
  | none, none => true
  | _, _ => false

/-- Whether two statements say the same, whatever their ids and marks. -/
def same (a b : Statement) : Bool :=
  a.subject.same b.subject && a.predicate.same b.predicate && a.object.same b.object &&
    sameOption a.context b.context

/-- Whether the statement has the given nodes in its slots. An absent node matches any. -/
def matchesSlots (t : Statement) (subject predicate object context : Option Node) : Bool :=
  subject.all (·.same t.subject) && predicate.all (·.same t.predicate) &&
    object.all (·.same t.object) && context.all fun c => sameOption t.context (some c)

/-- The values that a hash of the statement is computed from. -/
def fingerprint (t : Statement) : List FingerprintItem :=
  t.subject.fingerprint ++ t.predicate.fingerprint ++ t.object.fingerprint ++
    match t.context with
    | some c => .tag 1 :: c.fingerprint
    | none => [.tag 0]

end Statement
end QuadStore
