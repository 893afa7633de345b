import QuadStore.Store
import QuadStore.Table.NodeRow
import QuadStore.Table.StatementRow

/-!
Connections. A connection reads the committed tables until it first writes; from then on it holds
the write lock of the database and works on a copy of the tables, which a commit makes the
committed ones. What it has written or read meanwhile reaches the caches only when it is
published after the commit.
-/

namespace QuadStore

/-- A connection to a database, on behalf of one transaction. -/
structure Connection where
  /-- The id of the transaction that the connection serves. -/
  transaction : Int
  /-- The tables as this connection has changed them, while it holds the write lock. -/
  pending : Option Tables := none
  /-- What awaits publication: nodes, statements and namespaces that were written or read,
  namespaces that were removed, and the ids of the statements that were changed. -/
  freshNodes : List Node := []
  freshStatements : List Statement := []
  freshNamespaces : List Namespace := []
  removedNamespaces : List Namespace := []
  touched : List Int := []

namespace Connection

/-- Whether the connection holds the write lock. -/
def writing (c : Connection) : Bool :=
  c.pending.isSome

/-- The caches after the connection's work has been published. -/
def publishTo (c : Connection) (caches : Caches) : Caches :=
  let caches := c.touched.foldl Caches.eraseStatement caches
  let caches := c.freshNodes.foldl Caches.addNode caches
  let caches := (c.freshStatements.filter fun t => !t.deleted).foldl Caches.addStatement caches
  let caches := c.removedNamespaces.foldl Caches.eraseNamespace caches
  c.freshNamespaces.foldl Caches.addNamespace caches

/-- The caches after the connection's work has been given up. -/
def discardFrom (c : Connection) (caches : Caches) : Caches :=
  let caches := c.touched.foldl Caches.eraseStatement caches
  (c.freshStatements.map Statement.id).foldl Caches.eraseStatement caches

/-- The connection with nothing left that awaits publication. -/
def withoutFresh (c : Connection) : Connection :=
  { c with
    freshNodes := [], freshStatements := [], freshNamespaces := [], removedNamespaces := [],
    touched := [] }

end Connection

/-- All that an operation of a connection reads and changes. -/
structure Workspace where
  database : Database
  registryFile : RegistryFile
  store : Store
  conn : Connection

/-- The tables that a connection sees: its own while it writes, otherwise the committed ones. -/
def Workspace.view (w : Workspace) : Tables :=
  w.conn.pending.getD w.database.committed

/-- An operation of a connection. A failing operation keeps what it has changed before. -/
abbrev Action := EStateM StoreError Workspace

namespace Action

/-- An operation that only computes, and may find a fault in the tables. -/
def ofData (x : Except DataFault α) : Action α :=
  match x with
  | .ok a => pure a
  | .error fault => throw (.data fault)

def ofStatement (x : Except StatementFault α) : Action α :=
  match x with
  | .ok a => pure a
  | .error fault => throw (.statement fault)

def ofExcept (x : Except StoreError α) : Action α :=
  match x with
  | .ok a => pure a
  | .error e => throw e

/-- Looks something up in the tables that the connection sees. -/
def view (f : Tables → α) : Action α := do
  pure (f (← get).view)

/-- Changes what all connections of the store share. -/
def modifyStore (f : Store → Store) : Action Unit :=
  modify fun w => { w with store := f w.store }

def modifyCaches (f : Caches → Caches) : Action Unit :=
  modifyStore fun s => { s with caches := f s.caches }

def modifyConn (f : Connection → Connection) : Action Unit :=
  modify fun w => { w with conn := f w.conn }

/-- Takes the next id of a sequence. It is not given back when the connection rolls back. -/
def nextId (s : Sequence) : Action Int := do
  modifyStore fun store => { store with counters := store.counters.next s }
  pure ((← get).store.counters.current s)

/-- Takes the write lock, unless the connection holds it. -/
def beginWrite : Action Unit := do
  let w ← get
  if !w.conn.writing then
    if w.database.locked then throw (.data .locked)
    set { w with
      database := { w.database with locked := true }
      conn := { w.conn with pending := some w.database.committed } }

/-- Replaces the tables of a connection that holds the write lock. -/
def setTables (t : Tables) : Action Unit :=
  modifyConn fun c => { c with pending := some t }

/-- Ends writing: makes the connection's tables, with the counters, the committed ones. -/
def commit : Action Unit :=
  modify fun w =>
    match w.conn.pending with
    | some t =>
        { w with
          database := ⟨w.store.counters.persist t, false⟩
          conn := { w.conn with pending := none } }
    | none => w

/-- Ends writing: gives up what the connection has changed. Without the lock nothing happens. -/
def rollback : Action Unit :=
  modify fun w =>
    if w.conn.writing then
      { w with
        database := { w.database with locked := false }
        conn := { w.conn with pending := none } }
    else w

/-- Ends writing with a commit that the database may refuse; what a refused one has written is
forgotten. Answers how the commit ended. -/
def flush (refusal : Option DataFault) : Action (Except StoreError Unit) := do
  match refusal with
  | some fault =>
      if (← get).conn.writing then
        rollback
        pure (.error (.data fault))
      else pure (.ok ())
  | none =>
      commit
      pure (.ok ())

/-- Puts a stored node into the caches, or keeps it for publication while writing. -/
def cacheNode (n : Node) : Action Unit := do
  if n.isPersisted then
    if (← get).conn.writing then
      modifyConn fun c => { c with freshNodes := c.freshNodes ++ [n] }
    else modifyCaches (·.addNode n)

/-- Puts a statement into the cache, or keeps it for publication while writing. -/
def cacheStatement (t : Statement) : Action Unit := do
  if (← get).conn.writing then
    modifyConn fun c => { c with freshStatements := c.freshStatements ++ [t] }
  else modifyCaches (·.addStatement t)

/-- Moves what awaits publication into the caches. Called after a commit. -/
def publish : Action Unit := do
  let conn := (← get).conn
  modifyCaches conn.publishTo
  modifyConn Connection.withoutFresh

/-- Forgets what awaits publication. Called after a rollback. -/
def discard : Action Unit := do
  let conn := (← get).conn
  modifyCaches conn.discardFrom
  modifyConn Connection.withoutFresh

end Action
end QuadStore
