import QuadStore.Connection.Namespaces
import QuadStore.Connection.Queries
import QuadStore.Connection.Values

/-!
Transactions. A transaction does its work through one connection, keeps account of the statements
that it has added and removed, and ends with a commit or a rollback; after that nothing more can
be done in it. The account of a commit is reported to the store.
-/

namespace QuadStore

namespace ChangeEvent

def empty : ChangeEvent :=
  ⟨[], []⟩

def add (e : ChangeEvent) (t : Statement) : ChangeEvent :=
  { e with added := e.added ++ [t] }

/-- The account after a removal. What was added before is no change in the end. -/
def remove (e : ChangeEvent) (t : Statement) : ChangeEvent :=
  if e.added.any fun u => u.id == t.id then
    { e with added := e.added.eraseP fun u => u.id == t.id }
  else { e with removed := e.removed ++ [t] }

end ChangeEvent

/-- A transaction with what it is going to tell listeners. -/
structure Transaction where
  conn : Connection
  changes : ChangeEvent := .empty
  closed : Bool := false

namespace Transaction

/-- All that an operation of a transaction reads and changes. -/
structure Scope where
  work : Workspace
  changes : ChangeEvent
  closed : Bool

/-- An operation of a transaction. A failing operation keeps what it has changed before. -/
abbrev Operation := EStateM StoreError Scope

/-- Lets the connection of a transaction do something, whether or not the transaction is open. -/
def work (a : Action α) : Operation α := fun s =>
  match a s.work with
  | .ok v w => .ok v { s with work := w }
  | .error e w => .error e { s with work := w }

/-- An operation that fails when the transaction is closed. -/
def whileOpen (op : Operation α) : Operation α := do
  if (← get).closed then throw .closed
  op

/-- Lets the connection of an open transaction do something. -/
def perform (a : Action α) : Operation α :=
  whileOpen (work a)

/-- Changes what listeners are going to be told. -/
def modifyChanges (f : ChangeEvent → ChangeEvent) : Operation Unit :=
  modify fun s => { s with changes := f s.changes }

/-- Stores a statement and takes account of it if it was not there. -/
def store (t : Statement) : Operation Statement := do
  let (t, isAdded) ← work (Action.storeStatement t)
  if isAdded then modifyChanges (·.add t)
  pure t

/-- Adds a statement; without a context it goes to the default one. -/
def add (subject predicate object : Node) (context : Option Node) : Operation Statement :=
  whileOpen do
    store (← work (Action.createStatement subject predicate object context))

/-- Adds a derived statement; without a context it goes to the one for derived statements. A
statement that is stored already keeps its mark. -/
def addInferred (subject predicate object : Node) (context : Option Node) : Operation Statement :=
  whileOpen do
    let context ←
      match context with
      | some c => pure c
      | none => work do Action.createUri (← get).store.config.inferredContext
    let t ← work (Action.createStatement subject predicate object (some context))
    store { t with inferred := true }

/-- Removes a statement, and notes it when its row was live. -/
def removeOne (t : Statement) : Operation Bool := do
  let (t, isRemoved) ← work (Action.removeStatement t)
  if isRemoved then modifyChanges (·.remove t)
  pure isRemoved

/-- Removes the statements with the given nodes in their slots, derived ones included.
Answers how many there were. -/
def remove (subject predicate object context : Option Node) : Operation Nat :=
  whileOpen do
    let found ← work (Action.listStatements subject predicate object context true)
    let removals ← found.mapM removeOne
    pure (removals.filter id).length

/-- Whether there is a statement with the given nodes in its slots. A failure of the
tables counts as none. -/
def contains (subject predicate object context : Option Node) : Operation Bool :=
  whileOpen do
    match ← work (Action.attempt
      (Action.listStatements subject predicate object context true)) with
    | .ok found => pure (!found.isEmpty)
    | .error e => if e.isDataFault then pure false else throw e

/-- Answers a query. The store may put its patterns in another order first. -/
def query (q : PatternQuery) : Operation QueryResults :=
  perform do Action.evaluate q (← get).store.config.reorderPatterns

/-- Binds a prefix to a URI, in place of what either was bound to. -/
def setNamespace (label uri : String) : Operation Namespace :=
  perform do
    match ← Action.loadNamespaceByLabel label with
    | some ns =>
        if ns.uri = uri then return ns
        discard (Action.deleteNamespace ns)
    | none => pure ()
    match ← Action.loadNamespaceByUri uri with
    | some ns => discard (Action.deleteNamespace ns)
    | none => pure ()
    Action.storeNamespace (.make label uri)

/-- Removes the binding of a prefix. Answers whether there was one. -/
def removeNamespace (label : String) : Operation Bool :=
  perform do
    match ← Action.loadNamespaceByLabel label with
    | some ns => Action.deleteNamespace ns
    | none => pure false

/-- From here on nothing but dropping the transaction succeeds. -/
def close : Operation Unit :=
  modify fun s => { s with closed := true }

/-- Ends the transaction with a commit that the database may refuse. What was done lasts, and is
reported if there are changes, when the commit succeeds, and is undone otherwise. -/
def finish (refusal : Option DataFault) : Operation Unit :=
  whileOpen do
    close
    let flushed ← work (Action.flush refusal)
    work Action.releaseRegistry
    match flushed with
    | .ok _ =>
        work Action.publish
        let event := (← get).changes
        modifyChanges fun _ => .empty
        if !event.isEmpty then
          work (Action.modifyStore fun s => { s with events := s.events ++ [event] })
    | .error e =>
        work Action.discard
        modifyChanges fun _ => .empty
        throw e

/-- Makes what was done last, and reports the changes if there are any. -/
def commit : Operation Unit :=
  finish none

/-- Ends the transaction without a commit: what it wrote, what it registered and what it noted are
given up. -/
def abort : Operation Unit := do
  close
  work do
    Action.rollback
    Action.releaseRegistry
    Action.discard
  modifyChanges fun _ => .empty

/-- Gives an open transaction up. -/
def rollback : Operation Unit :=
  whileOpen abort

/-- Gives the transaction up; an open one is rolled back. -/
def drop : Operation Unit := do
  if !(← get).closed then abort

end Transaction
end QuadStore
