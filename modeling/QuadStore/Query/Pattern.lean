import QuadStore.Node.Key
import QuadStore.Error

namespace QuadStore

/-- What a pattern has in one of its slots. -/
inductive PatternTerm
  | value (node : Node)
  | var (name : String)
deriving DecidableEq

/-- A statement with variables in some of its slots. Without a context it
matches in all of them. -/
structure Pattern where
  subject : PatternTerm
  predicate : PatternTerm
  object : PatternTerm
  context : Option PatternTerm
deriving DecidableEq

/-- A condition on the values of variables. -/
inductive Filter
  /-- Both variables have the same value. -/
  | sameTerm (a b : String)
  /-- The variable has the given value. -/
  | sameValue (name : String) (node : Node)
  /-- The text of the value matches an expression. -/
  | regex (name pattern : String)
  | compare (name : String) (op : Comparison) (node : Node)
deriving DecidableEq

/-- A query: patterns that share variables, with conditions on these. -/
structure PatternQuery where
  patterns : List Pattern
  /-- Values that variables are given beforehand, each variable once. -/
  bindings : List (String × Node) := []
  orderBy : List String := []
  /-- Whether each row comes with the statements that made it. -/
  justifications : Bool := false
  filters : List Filter := []
  limit : Option Nat := none
deriving DecidableEq

namespace Filter

def terms? : Filter → Option (String × String)
  | .sameTerm a b => some (a, b)
  | _ => none

def value? : Filter → Option (String × Node)
  | .sameValue name node => some (name, node)
  | _ => none

end Filter

namespace PatternTerm

def var? : PatternTerm → Option String
  | .var name => some name
  | .value _ => none

end PatternTerm

/-- The terms of a pattern, slot by slot. -/
def Pattern.terms (p : Pattern) : List PatternTerm :=
  [p.subject, p.predicate, p.object] ++ p.context.toList

namespace PatternQuery

/-- The variables of a query, as often as they occur. -/
def varNames (q : PatternQuery) : List String :=
  q.patterns.flatMap fun p => p.terms.filterMap PatternTerm.var?

/-- Refuses the filters that are not compiled. -/
def checkFilter : Filter → Except StoreError Unit
  | .regex name _ => throw (.filter (.regex name))
  | .compare name op _ => throw (.filter (.compare op name))
  | _ => pure ()

/-- Refuses a variable that no pattern binds. -/
def checkVariable (q : PatternQuery) (role : VariableRole) (name : String) :
    Except StoreError Unit :=
  if q.varNames.contains name then pure () else throw (.query (.unknownVariable role name))

/-- The variables of a filter. -/
def Filter.names : Filter → List String
  | .sameTerm a b => [a, b]
  | .sameValue name _ => [name]
  | _ => []

/-- Checks that a query can be evaluated: it has patterns, its filters can be expressed, and
variables have names and occur in patterns. -/
def validate (q : PatternQuery) : Except StoreError Unit := do
  if q.patterns.isEmpty then throw (.query .noPatterns)
  q.filters.forM checkFilter
  if q.varNames.contains "" then throw (.query .emptyVariable)
  q.orderBy.forM (q.checkVariable .order)
  q.filters.forM fun f => (Filter.names f).forM (q.checkVariable .filter)

end PatternQuery
end QuadStore
