import QuadStore.Registry.Key
import QuadStore.Table

namespace QuadStore.StatementRow

/-- The row of a statement that is being stored, which is not deleted. -/
def ofStatement (t : Statement) : StatementRow where
  id := t.id
  subject := t.key.subject
  predicate := t.key.predicate
  object := t.key.object
  context := t.key.context
  creator := t.creator.map Node.id
  inferred := if t.inferred then 1 else 0
  deleted := 0
  created := .clock
  deletedAt := none

/-- The ids of the slots of a row. -/
def key (r : StatementRow) : StatementKey :=
  ⟨r.subject, r.predicate, r.object, r.context⟩

/-- Whether the slots of a row have the ids that are given for them. -/
def hasIds (r : StatementRow) (ids : List (Option Int)) : Bool :=
  (ids.zip [r.subject, r.predicate, r.object, r.context]).all fun (wanted, id) =>
    wanted.all (· == id)

theorem key_ofStatement (t : Statement) : (ofStatement t).key = t.key := rfl

end QuadStore.StatementRow
