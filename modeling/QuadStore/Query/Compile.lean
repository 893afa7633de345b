import QuadStore.Query.Pattern
import QuadStore.Query.Select
import QuadStore.Text.Decimal

/-!
From patterns to a SELECT statement. Each pattern takes one row of the table of statements, named
`P1`, `P2` and so on; each occurrence of a variable takes a row of the table of nodes, named by
pattern, slot and variable. Variables are numbered by their first occurrence, which the other
occurrences have to equal.
-/

namespace QuadStore

/-- What a resolved pattern has in a slot: the id of a node or a variable. -/
inductive SlotTerm
  | id (id : Int)
  | var (name : String)
deriving DecidableEq

/-- A pattern whose nodes are given by their ids. -/
structure ResolvedPattern where
  /-- The place of the pattern in the query that it comes from. -/
  index : Nat
  subject : SlotTerm
  predicate : SlotTerm
  object : SlotTerm
  context : Option SlotTerm
deriving DecidableEq

/-- A query with the ids of stored nodes in place of the nodes. -/
structure ResolvedQuery where
  patterns : List ResolvedPattern
  /-- Values given beforehand to variables of the patterns. -/
  bindings : List (String × Int) := []
  /-- Values given beforehand to other variables. -/
  extraBindings : List (String × Node) := []
  sameTerms : List (String × String) := []
  sameValues : List (String × Int) := []
  orderBy : List String := []
  justifications : Bool := false
  limit : Option Nat := none
deriving DecidableEq

/-- A statement with the meaning of its columns: one for each variable, then the ids of the
statements that made the row. -/
structure CompiledQuery where
  select : SelectQuery
  varNames : List String
  justifications : Nat
deriving DecidableEq

namespace Slot

def column : Slot → String
  | .subject => "subject"
  | .predicate => "predicate"
  | .object => "object"
  | .context => "context"

/-- What a slot adds to the names of the rows that are joined for it. -/
def letter : Slot → String
  | .subject => "S"
  | .predicate => "P"
  | .object => "O"
  | .context => "C"

end Slot

namespace ResolvedPattern

/-- The slots of a pattern with their terms; the context only if the pattern has one. -/
def slots (p : ResolvedPattern) : List (Slot × SlotTerm) :=
  [(.subject, p.subject), (.predicate, p.predicate), (.object, p.object)] ++
    p.context.toList.map fun term => (.context, term)

/-- The ids that a pattern asks for, by slot. -/
def boundIds (p : ResolvedPattern) : List (Option Int) :=
  [some p.subject, some p.predicate, some p.object, p.context].map fun
    | some (.id id) => some id
    | _ => none

end ResolvedPattern

/-- Where a variable occurs: in a slot of the pattern with a given number. -/
structure Occurrence where
  pattern : Nat
  slot : Slot
  name : String
deriving DecidableEq

/-- The name of the row that a pattern takes; patterns are numbered from zero. -/
def patternLabel (pattern : Nat) : String :=
  "P" ++ Text.natText (pattern + 1)

/-- The name of a variable's column; variables are numbered from zero. -/
def variableLabel (number : Nat) : String :=
  "V" ++ Text.natText (number + 1)

namespace ResolvedQuery

/-- The patterns with their places, from which their rows get their names. -/
def numbered (q : ResolvedQuery) : List (Nat × ResolvedPattern) :=
  q.patterns.zipIdx.map fun (p, i) => (i, p)

/-- All places at which variables stand, in order. -/
def occurrences (q : ResolvedQuery) : List Occurrence :=
  q.numbered.flatMap fun (i, p) =>
    p.slots.filterMap fun
      | (slot, .var name) => some ⟨i, slot, name⟩
      | (_, .id _) => none

/-- The variables in the order of their first occurrence. -/
def varNames (q : ResolvedQuery) : List String :=
  (q.occurrences.map Occurrence.name).eraseDups

/-- The place that stands for a variable: its first one. -/
def firstOccurrence? (q : ResolvedQuery) (name : String) : Option Occurrence :=
  q.occurrences.find? fun o => o.name == name

end ResolvedQuery

/-- The column of a statement's row that holds the value of an occurrence. -/
def Occurrence.column (o : Occurrence) : Column :=
  ⟨patternLabel o.pattern, o.slot.column⟩

/-- The name of the row of nodes that an occurrence takes. -/
def Occurrence.nodeLabel (q : ResolvedQuery) (o : Occurrence) : String :=
  patternLabel o.pattern ++ "_" ++ o.slot.letter ++ "_" ++ variableLabel (q.varNames.idxOf o.name)

namespace ResolvedQuery

/-- What a slot of a pattern demands of the pattern's row. -/
def slotConditions (q : ResolvedQuery) (pattern : Nat) : Slot × SlotTerm → List Condition
  | (slot, .id id) => [⟨⟨patternLabel pattern, slot.column⟩, .param id⟩]
  | (slot, .var name) =>
      let here : Occurrence := ⟨pattern, slot, name⟩
      match q.firstOccurrence? name with
      | some first => if first = here then [] else [⟨here.column, .column first.column⟩]
      | none => []

/-- The conditions of a pattern: those of its slots, and that the row is not deleted. -/
def patternConditions (q : ResolvedQuery) (pattern : Nat)
    (p : ResolvedPattern) : List Condition :=
  p.slots.flatMap (q.slotConditions pattern) ++ [⟨⟨patternLabel pattern, "deleted"⟩, .param 0⟩]

/-- The row of a pattern with the rows of nodes for its variables. -/
def source (q : ResolvedQuery) (pattern : Nat) (p : ResolvedPattern) : TableRef where
  table := "triples"
  label := patternLabel pattern
  joins := p.slots.filterMap fun
    | (slot, .var name) =>
        let here : Occurrence := ⟨pattern, slot, name⟩
        let label := here.nodeLabel q
        some ⟨"nodes", label, [⟨⟨label, "id"⟩, .column here.column⟩]⟩
    | (_, .id _) => none

/-- Equations for variables that are to have a value. -/
def valueConditions (q : ResolvedQuery) (values : List (String × Int)) : List Condition :=
  values.filterMap fun (name, id) =>
    (q.firstOccurrence? name).map fun first => ⟨first.column, .param id⟩

/-- Equations for variables that are to be equal. -/
def termConditions (q : ResolvedQuery) : List Condition :=
  q.sameTerms.filterMap fun (a, b) =>
    match q.firstOccurrence? a, q.firstOccurrence? b with
    | some x, some y => some ⟨x.column, .column y.column⟩
    | _, _ => none

/-- The numbers of the patterns in the order of the query they come from. -/
def callerOrder (q : ResolvedQuery) : List Nat :=
  ((q.numbered.map fun (i, p) => (p.index, i)).mergeSort fun a b => a.1 ≤ b.1).map Prod.snd

/-- The ids that variables stand for, named by the order of the variables. -/
def variableProjections (q : ResolvedQuery) : List Projection :=
  q.varNames.zipIdx.filterMap fun (name, k) =>
    (q.firstOccurrence? name).map fun first =>
      ⟨⟨first.nodeLabel q, "id"⟩, variableLabel k⟩

/-- The ids of the matched statements, when they are asked for. -/
def justificationProjections (q : ResolvedQuery) : List Projection :=
  if q.justifications then
    q.callerOrder.zipIdx.map fun (pattern, j) =>
      ⟨⟨patternLabel pattern, "id"⟩, "J" ++ Text.natText (j + 1)⟩
  else []

/-- Rows are ordered by the numbers of a variable's values, then by their
dates, then by their texts. -/
def orderTerms (q : ResolvedQuery) : List OrderTerm :=
  q.orderBy.flatMap fun name =>
    match q.firstOccurrence? name with
    | some first =>
        ["dvalue", "tvalue", "svalue"].map fun column => ⟨⟨first.nodeLabel q, column⟩, true⟩
    | none => []

/-- The statement that answers a query. -/
def select (q : ResolvedQuery) : SelectQuery where
  projections := q.variableProjections ++ q.justificationProjections
  sources := q.numbered.map fun (i, p) => q.source i p
  conditions :=
    (q.numbered.flatMap fun (i, p) => q.patternConditions i p) ++ q.valueConditions q.bindings ++
      q.termConditions ++ q.valueConditions q.sameValues
  orderBy := q.orderTerms
  limit := q.limit

/-- The statement of a query, with the meaning of its columns. -/
def compile (q : ResolvedQuery) : CompiledQuery where
  select := q.select
  varNames := q.varNames
  justifications := if q.justifications then q.patterns.length else 0

end ResolvedQuery
end QuadStore
