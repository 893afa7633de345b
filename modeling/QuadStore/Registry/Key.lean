import QuadStore.Statement

namespace QuadStore

/-- The node ids of a statement. -/
structure StatementKey where
  subject : Int
  predicate : Int
  object : Int
  context : Int
deriving DecidableEq

/-- The key of a statement. A missing context counts as one that is not stored. -/
def Statement.key (t : Statement) : StatementKey :=
  ⟨t.subject.id, t.predicate.id, t.object.id, (t.context.map Node.id).getD transientId⟩

/-- A key as it is shown: the four ids in parentheses. -/
def StatementKey.text (k : StatementKey) : String :=
  "(" ++ Text.intText k.subject ++ ", " ++ Text.intText k.predicate ++ ", " ++
    Text.intText k.object ++ ", " ++ Text.intText k.context ++ ")"

end QuadStore
