import QuadStore.Error
import QuadStore.Number.Power
import QuadStore.Query.Select
import QuadStore.Table.Cell

namespace QuadStore

/-- The rows chosen so far, by the names that the statement gives them. -/
abbrev Choice := List (String × Row)

namespace Choice

/-- The cell of a column, if a row with its name has been chosen. -/
def cell? (choice : Choice) (c : Column) : Option Cell :=
  (choice.lookup c.table).map fun row => row c.name

/-- Whether an equation holds for a choice. Of a missing cell it is not known. -/
def truth? (choice : Choice) (c : Condition) : Option Bool :=
  match choice.cell? c.left, c.right with
  | some left, .param value => some (left.equals (.int value))
  | some left, .column right => (choice.cell? right).map left.equals
  | none, _ => none

/-- Whether no equation has failed. -/
def admits (choice : Choice) (conditions : List Condition) : Bool :=
  conditions.all fun c => (choice.truth? c).getD true

/-- Chooses a row of one more table in every way that keeps the equations. -/
def extend (t : Tables) (conditions : List Condition) (table label : String)
    (choices : List Choice) : List Choice :=
  choices.flatMap fun choice =>
    ((t.rows table).map fun row => choice ++ [(label, row)]).filter (·.admits conditions)

/-- Chooses the rows of a table and of those joined to it. -/
def addSource (t : Tables) (conditions : List Condition) (choices : List Choice) (s : TableRef) :
    List Choice :=
  s.joins.foldl (fun choices j => extend t conditions j.table j.label choices)
    (extend t conditions s.table s.label choices)

/-- What choices are ordered by. -/
def orderKey (choice : Choice) (terms : List OrderTerm) : List (Bool × Cell) :=
  terms.map fun o => (o.ascending, (choice.cell? o.column).getD .null)

end Choice

/-- Whether a sort key comes before another or equals it. -/
def keyLe : List (Bool × Cell) → List (Bool × Cell) → Bool
  | (ascending, a) :: as, (_, b) :: bs =>
      if a.lt b then ascending
      else if b.lt a then !ascending
      else keyLe as bs
  | _, _ => true

namespace SelectQuery

/-- The equations of the joins and those that stand by themselves. -/
def equations (q : SelectQuery) : List Condition :=
  (q.sources.flatMap fun s => s.joins.flatMap Join.on) ++ q.conditions

/-- All choices of rows for which the equations of the statement hold. -/
def choices (q : SelectQuery) (t : Tables) : List Choice :=
  (q.sources.foldl (Choice.addSource t q.equations) [[]]).filter fun choice =>
    q.equations.all fun c => choice.truth? c = some true

/-- The choices of a statement in its order. -/
def ordered (q : SelectQuery) (t : Tables) : List Choice :=
  (q.choices t).mergeSort fun a b => keyLe (a.orderKey q.orderBy) (b.orderKey q.orderBy)

/-- What is answered for a choice. -/
def project (q : SelectQuery) (choice : Choice) : List Cell :=
  q.projections.map fun p => (choice.cell? p.column).getD .null

def tableCount (q : SelectQuery) : Nat :=
  q.sources.foldr (fun s count => s.joins.length + 1 + count) 0

/-- How many tables the database can join. -/
def maxTables : Nat := 64

/-- The greatest limit that the database can take. -/
def maxLimit : Nat := twoPow 63 - 1

/-- Refuses what the database cannot run. -/
def check (q : SelectQuery) : Except DataFault Unit := do
  if maxTables < q.tableCount then throw .tooManyTables
  if q.limit.any (maxLimit < ·) then throw .limitOutOfRange

/-- The rows that are answered, in their order. -/
def run (q : SelectQuery) (t : Tables) : Except DataFault (List (List Cell)) := do
  q.check
  let rows := (q.ordered t).map q.project
  pure (match q.limit with
    | some n => rows.take n
    | none => rows)

end SelectQuery
end QuadStore
