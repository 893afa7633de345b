import QuadStore.Connection.Nodes

namespace QuadStore.Action

/-- The id of the live row with the slots of a statement. -/
def liveStatementId (key : StatementKey) : Action (Option Int) :=
  view fun t =>
    (t.statements.find? fun r => r.live && r.key = key).map StatementRow.id

/-- The statement of a row, with all of its nodes. -/
def statementOfRow (row : StatementRow) : Action Statement := do
  let subject ← requireNode row.subject
  let predicate ← requireNode row.predicate
  let object ← requireNode row.object
  let context ← requireNode row.context
  let creator ←
    match row.creator with
    | some id => resolveNode id
    | none => pure none
  let t ← ofStatement (Statement.make subject predicate object (some context))
  ofData row.created.check
  ofData (row.deletedAt.forM Stamp.check)
  pure { t with
    id := row.id, creator, inferred := row.isInferred, deleted := !row.live,
    deletionTimed := row.deletedAt.isSome }

/-- The statement with the given id, from the cache or from the tables. -/
def loadStatement (id : Int) : Action (Option Statement) := do
  match (← get).store.caches.statement.get? id with
  | some t => pure (some t)
  | none =>
      match ← view (·.statementById? id) with
      | none => pure none
      | some row => do
          let t ← statementOfRow row
          cacheStatement t
          pure (some t)

/-- Checks that a statement can be stored: it has a context, and all of its nodes are stored. -/
def checkStorable (t : Statement) : Action Unit := do
  match t.context with
  | none => throw (.statement (.noContext t.text))
  | some context =>
      if t.subject.id < 0 || t.predicate.id < 0 || t.object.id < 0 || context.id < 0 then
        throw (.statement (.unpersistedNodes t.text))

/-- Checks that a statement can be stored and gives it an id, if it has none. -/
def identify (t : Statement) : Action Statement := do
  checkStorable t
  if t.id < 0 then pure { t with id := ← nextId .statements } else pure t

/-- Adds the row of a statement, if no live row holds it. A statement whose id is taken gets
the next id that is free. -/
def insertRow (t : Statement) : Action Statement := do
  match ← view (·.insertStatement? (.ofStatement t)) with
  | some tables => do
      setTables tables
      pure t
  | none => do
      let used ← view fun tables => tables.statements.map StatementRow.id
      modifyStore fun s => { s with
        counters := s.counters.set (Counters.skipUsed used used.length s.counters.statements)
          .statements }
      let t := { t with id := (← get).store.counters.statements }
      let tables ← view fun tables =>
        { tables with statements := tables.statements ++ [.ofStatement t] }
      setTables tables
      pure t

/-- Stores a statement that has an id. Gives back the statement as it is stored, and whether a row
was added; a statement that is stored already takes the id of its row. -/
def storeIdentified (t : Statement) : Action (Statement × Bool) := do
  beginWrite
  match ← liveStatementId t.key with
  | some existing => do
      let marks ← do
        match ← loadStatement existing with
        | some stored => pure stored.inferred
        | none => pure t.inferred
      pure ({ t with id := existing, inferred := marks, deleted := false }, false)
  | none => do
      let t ← insertRow t
      let t := { t with deleted := false, deletionTimed := false }
      modifyConn fun c =>
        { c with touched := c.touched ++ [t.id], freshStatements := c.freshStatements ++ [t] }
      pure (t, true)

/-- Stores a statement, unless a live row holds it. Answers the stored one, and whether its row is
new. -/
def storeStatement (t : Statement) : Action (Statement × Bool) := do
  storeIdentified (← identify t)

/-- Marks the row of a statement as deleted. Gives back the statement as it is then, and
whether its row was live. -/
def deleteStatement (t : Statement) : Action (Statement × Bool) := do
  if t.id < 0 then pure (t, false)
  else
    beginWrite
    let changed ← view (·.deleteStatement? t.id)
    match changed with
    | some tables => setTables tables
    | none => pure ()
    modifyConn fun c =>
      { c with
        touched := c.touched ++ [t.id]
        freshStatements := c.freshStatements.filter fun u => u.id ≠ t.id }
    if changed.isSome then pure ({ t with deleted := true, deletionTimed := true }, true)
    else pure (t, false)

/-- The ids that the slots of a pattern are fixed to. An absent node leaves its slot open; a node
that is not stored matches nothing, and then there are no ids. -/
def slotIds : List (Option Node) → Action (Option (List (Option Int)))
  | [] => pure (some [])
  | none :: rest => do pure ((← slotIds rest).map (none :: ·))
  | some n :: rest => do
      match ← nodeId n with
      | some id => do pure ((← slotIds rest).map (some id :: ·))
      | none => pure none

/-- Lists the live statements with the given nodes in their slots, by id. -/
def listStatements (subject predicate object context : Option Node) (includeInferred : Bool) :
    Action (List Statement) := do
  match ← slotIds [subject, predicate, object, context] with
  | none => pure []
  | some ids => do
      let rows ← view fun t =>
        t.liveStatements.filter fun r => r.hasIds ids && (includeInferred || !r.isInferred)
      rows.mapM statementOfRow

/-- The contexts of the live statements, each once, in the order of their ids. -/
def listContexts : Action (List Node) := do
  let ids ← view fun t =>
    ((t.liveStatements.map StatementRow.context).eraseDups).mergeSort fun a b => a ≤ b
  ids.mapM requireNode

/-- How many live rows have the given ids in their slots. -/
def countPattern (ids : List (Option Int)) : Action Nat :=
  view fun t => (t.statements.filter fun r => r.live && r.hasIds ids).length

/-- How many statements are live, in one context or in all. -/
def countStatements (context : Option Node) : Action Nat := do
  match context with
  | none => countPattern [none, none, none, none]
  | some c =>
      match ← nodeId c with
      | none => pure 0
      | some id => countPattern [none, none, none, some id]

end QuadStore.Action
