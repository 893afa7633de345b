import QuadStore.Connection.Statements
import QuadStore.Query.Compile
import QuadStore.Query.Pattern
import QuadStore.Query.Run

namespace QuadStore

/-- A row of an answer: the values of the variables, and the statements that made it. -/
structure BindingSet where
  bindings : List (String × Node)
  justifications : List Statement
deriving DecidableEq

/-- The rows of an answer, of which those still to come hold ids. -/
structure QueryResults where
  rows : List (List Int) := []
  varNames : List String := []
  /-- The values of variables that no pattern names. -/
  extra : List (String × Node) := []
deriving DecidableEq

namespace QueryResults

def remaining (r : QueryResults) : Nat :=
  r.rows.length

def close (r : QueryResults) : QueryResults :=
  { r with rows := [] }

end QueryResults

/-- The query with its patterns in the order of their counts, the least first. When they could not
be counted they stay as they are. -/
def ResolvedQuery.reordered (q : ResolvedQuery) : Except StoreError (List Nat) → ResolvedQuery
  | .ok counts =>
      { q with patterns := ((counts.zip q.patterns).mergeSort fun a b => a.1 ≤ b.1).map Prod.snd }
  | .error _ => q

namespace Action

/-- Resolves a term; a node that is not stored has no id. -/
def resolveTerm : PatternTerm → Action (Option SlotTerm)
  | .var name => pure (some (.var name))
  | .value n => do pure ((← nodeId n).map .id)

/-- Resolves a pattern, unless one of its nodes is not stored. -/
def resolvePattern (index : Nat) (p : Pattern) : Action (Option ResolvedPattern) := do
  let subject ← resolveTerm p.subject
  let predicate ← resolveTerm p.predicate
  let object ← resolveTerm p.object
  match subject, predicate, object with
  | some subject, some predicate, some object =>
      match p.context with
      | none => pure (some ⟨index, subject, predicate, object, none⟩)
      | some term => do
          pure ((← resolveTerm term).map fun c => ⟨index, subject, predicate, object, some c⟩)
  | _, _, _ => pure none

/-- Does the same for all elements of a list, up to the first that gives nothing. -/
def collect (f : α → Action (Option β)) : List α → Action (Option (List β))
  | [] => pure (some [])
  | a :: rest => do
      match ← f a with
      | some b => do pure ((← collect f rest).map (b :: ·))
      | none => pure none

/-- A name with the id of its node, if that is stored. -/
def resolveValueOf (entry : String × Node) : Action (Option (String × Int)) := do
  pure ((← nodeId entry.2).map fun id => (entry.1, id))

/-- Resolves a query, unless one of its nodes is not stored and it has no rows for that reason. -/
def resolveQuery (q : PatternQuery) : Action (Option ResolvedQuery) := do
  let some patterns ← collect (fun (p, i) => resolvePattern i p) q.patterns.zipIdx
    | pure none
  let given := q.bindings.mergeSort fun a b => !(b.1 < a.1)
  let (named, extraBindings) := given.partition fun entry => q.varNames.contains entry.1
  let some bindings ← collect resolveValueOf named
    | pure none
  let some sameValues ← collect resolveValueOf (q.filters.filterMap Filter.value?)
    | pure none
  pure (some {
    patterns, bindings, extraBindings, sameTerms := q.filters.filterMap Filter.terms?, sameValues,
    orderBy := q.orderBy, justifications := q.justifications, limit := q.limit })

/-- How an operation ends. One that never ends has no end to answer. -/
def attempt (a : Action α) : Action (Except StoreError α) := fun w =>
  match a w with
  | .ok v w => .ok (.ok v) w
  | .error .endless w => .error .endless w
  | .error e w => .ok (.error e) w

/-- Puts the patterns that the fewest statements match first. -/
def reorderPatterns (q : ResolvedQuery) : Action ResolvedQuery := do
  if q.patterns.length < 2 then pure q
  else pure (q.reordered (← attempt (q.patterns.mapM fun p => countPattern p.boundIds)))

/-- Checks and resolves a query, and puts its patterns in the order that it is run in. -/
def prepareQuery (q : PatternQuery) (reorder : Bool) : Action (Option ResolvedQuery) := do
  ofExcept q.validate
  match ← resolveQuery q with
  | some resolved => if reorder then some <$> reorderPatterns resolved else pure (some resolved)
  | none => pure none

/-- Answers a query. Where a node is not stored that the query asks for, nothing matches. -/
def evaluate (q : PatternQuery) (reorder : Bool) : Action QueryResults := do
  match ← prepareQuery q reorder with
  | none => pure {}
  | some resolved => do
      let compiled := resolved.compile
      let rows ← ofData (compiled.select.run (← get).view)
      pure ⟨rows.map fun row => row.filterMap Cell.int?,
        compiled.varNames, resolved.extraBindings⟩

/-- A name with the node that a row has for it. -/
def resolveBinding (entry : String × Int) : Action (String × Node) := do
  match ← resolveNode entry.2 with
  | some n => pure (entry.1, n)
  | none => throw (.data (.unknownResultNode entry.2))

/-- Replaces the ids of a row: those of the variables come first, then those of statements. -/
def materialize (r : QueryResults) (row : List Int) : Action BindingSet := do
  let bindings ← (r.varNames.zip row).mapM resolveBinding
  let found ← (row.drop r.varNames.length).mapM loadStatement
  pure ⟨bindings ++ r.extra, found.filterMap fun t => t⟩

/-- Fetches the next rows, as many as are asked for. A row that fails does not end the rest. -/
def fetch (count : Nat) (r : QueryResults) :
    Action (List (Except StoreError BindingSet) × QueryResults) := do
  let fetched ← (r.rows.take count).mapM fun row => attempt (materialize r row)
  pure (fetched, { r with rows := r.rows.drop count })

end Action
end QuadStore
