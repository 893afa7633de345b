import QuadStore.Table.Insert
import QuadStore.Transaction

/-!
A site: database files and registry files by their paths, stores that were opened on them, and the
transactions and connections in use. Several stores may share files. Stores and what is in use are
called by names.
-/

namespace QuadStore

/-- What does work in a store. -/
inductive Session
  | transaction (transaction : Transaction)
  | connection (conn : Connection)

namespace Session

/-- The connection that a session works through. -/
def conn : Session → Connection
  | .transaction t => t.conn
  | .connection c => c

end Session

/-- A session with the number of its store. -/
structure Handle where
  store : Nat
  session : Session

/-- Files and all that has been opened on them. -/
structure Site where
  databases : Dict (List String) Database := []
  registryFiles : Dict (List String) RegistryFile := []
  /-- All stores that were ever opened; the number of a store is its place here. -/
  stores : List Store := []
  /-- The numbers of the stores that are open. -/
  names : Dict String Nat := []
  handles : Dict String Handle := []

/-- What is asked of a session: something of transactions, something of
connections, or of both. -/
structure Request (α : Type) where
  inTransaction : Option (Transaction.Operation α) := none
  onConnection : Option (Action α) := none

/-- Work of a connection, which a transaction does while it is open. -/
def Request.work (a : Action α) : Request α :=
  ⟨some (Transaction.perform a), some a⟩

/-- Ends a session without a commit. -/
def Request.drop : Request Unit :=
  ⟨some Transaction.drop, some Action.rollback⟩

/-- What a session answered and left behind. -/
structure Reply (α : Type) where
  answer : Except StoreError α
  work : Workspace
  session : Session

namespace Session

def runTransaction (t : Transaction) (w : Workspace) (op : Transaction.Operation α) : Reply α :=
  match op ⟨w, t.changes, t.closed⟩ with
  | .ok v s => ⟨.ok v, s.work, .transaction ⟨s.work.conn, s.changes, s.closed⟩⟩
  | .error e s => ⟨.error e, s.work, .transaction ⟨s.work.conn, s.changes, s.closed⟩⟩

def runConnection (w : Workspace) (a : Action α) : Reply α :=
  match a w with
  | .ok v w => ⟨.ok v, w, .connection w.conn⟩
  | .error e w => ⟨.error e, w, .connection w.conn⟩

/-- Sessions answer only what is meant for their kind. -/
def ask (session : Session) (w : Workspace) (r : Request α) : Option (Reply α) :=
  match session with
  | .transaction t => r.inTransaction.map (runTransaction t w)
  | .connection _ => r.onConnection.map (runConnection w)

end Session

/-- Why something cannot be done at a site. -/
inductive SiteError
  | noStore (name : String)
  | noHandle (name : String)
  | failed (cause : StoreError)

namespace Site

/-- The database of a path. A file that is not there is empty. -/
def database (s : Site) (path : String) : Database :=
  (s.databases.get? (Text.pathParts path)).getD {}

def registryFile (s : Site) (path : String) : RegistryFile :=
  (s.registryFiles.get? (Text.pathParts path)).getD []

def putDatabase (s : Site) (path : String) (d : Database) : Site :=
  { s with databases := s.databases.insert (Text.pathParts path) d }

def putRegistryFile (s : Site) (path : String) (file : RegistryFile) : Site :=
  { s with registryFiles := s.registryFiles.insert (Text.pathParts path) file }

/-- The workspace of a connection to the store with the given number. -/
def workspace? (s : Site) (number : Nat) (conn : Connection) : Option Workspace :=
  (s.stores[number]?).map fun store =>
    ⟨s.database store.config.databasePath, s.registryFile store.config.registryPath, store, conn⟩

/-- The site after work in the store with the given number. -/
def putBack (s : Site) (number : Nat) (w : Workspace) : Site :=
  let s := s.putDatabase w.store.config.databasePath w.database
  let s := s.putRegistryFile w.store.config.registryPath w.registryFile
  { s with stores := s.stores.set number w.store }

/-- Does what is asked of a handle in its store. -/
def ask (s : Site) (h : Handle) (r : Request α) :
    Option (Except StoreError α × Handle × Site) := do
  let w ← s.workspace? h.store h.session.conn
  let reply ← h.session.ask w r
  pure (reply.answer, { h with session := reply.session }, s.putBack h.store reply.work)

/-- Ends the session of a handle without a commit, as when it is dropped. -/
def giveUp (s : Site) (h : Handle) : Site :=
  match s.ask h .drop with
  | some (_, _, s) => s
  | none => s

/-- The store that is open under a name. -/
def store? (s : Site) (name : String) : Option Store :=
  (s.names.get? name).bind fun number => s.stores[number]?

end Site

/-- Something that is done at a site. What fails keeps what it has changed before. -/
abbrev SiteAction := EStateM SiteError Site

namespace SiteAction

def ofExcept (x : Except StoreError α) : SiteAction α :=
  match x with
  | .ok a => pure a
  | .error e => throw (.failed e)

def number (name : String) : SiteAction Nat := do
  match (← get).names.get? name with
  | some n => pure n
  | none => throw (.noStore name)

/-- The store with a name, which has to be open. -/
def store (name : String) : SiteAction Store := do
  match (← get).store? name with
  | some store => pure store
  | none => throw (.noStore name)

/-- Does what is asked of the session with a name. -/
def ask (name : String) (r : Request α) : SiteAction α := do
  let s ← get
  match (s.handles.get? name).bind fun h => s.ask h r with
  | some (answer, h, s) =>
      set { s with handles := s.handles.insert name h }
      ofExcept answer
  | none => throw (.noHandle name)

/-- Does work in a store on behalf of a transaction, through a connection that is not kept. -/
def onStore (name : String) (transaction : Int) (a : Action α) : SiteAction α := do
  let number ← number name
  let s ← get
  match s.ask ⟨number, .connection { transaction }⟩ (.work a) with
  | some (answer, _, s) =>
      set s
      ofExcept answer
  | none => throw (.noStore name)

/-- Opens a store under a name. The start of the labels that it makes up is given from outside. -/
def openStore (name : String) (config : Config) (labelStart : String) : SiteAction Unit := do
  match config.validate with
  | .ok _ => pure ()
  | .error fault => throw (.failed (.config fault))
  let s ← get
  let database := s.database config.databasePath
  if database.locked then throw (.failed (.data .locked))
  let tables := database.committed.prepare
  let s := s.putDatabase config.databasePath { database with committed := tables }
  set { s with
    stores := s.stores ++ [Store.make config tables labelStart]
    names := s.names.insert name s.stores.length }

/-- Gives up the sessions of a store and forgets its name. -/
def closeStore (name : String) : SiteAction Unit := do
  let number ← number name
  let s ← get
  let (closing, staying) := s.handles.partition fun entry => entry.2.store == number
  let s := closing.foldl (fun s entry => s.giveUp entry.2) s
  set { s with handles := staying, names := s.names.erase name }

/-- Writes the counters of a store to its database and empties its caches. -/
def shutdown (name : String) : SiteAction Unit := do
  onStore name 0 do
    Action.beginWrite
    Action.commit
    Action.modifyStore Store.shutdownCaches

/-- Starts a session in a store under a name, in place of the one that had it. Answers the
id of its transaction. -/
def start (storeName name : String) (session : Connection → Session) : SiteAction Int := do
  let number ← number storeName
  let transaction ← onStore storeName 0 (Action.nextId .transactions)
  let s ← get
  let replaced := s.handles.get? name
  let s := { s with
    handles := s.handles.insert name ⟨number, session { transaction }⟩ }
  set (replaced.elim s s.giveUp)
  pure transaction

/-- Begins a transaction under a name, and answers its id. -/
def begin (storeName name : String) : SiteAction Int :=
  start storeName name fun conn => .transaction { conn }

/-- Starts a connection that serves no transaction but its own. -/
def connect (storeName name : String) : SiteAction Int :=
  start storeName name .connection

/-- Drops the session with a name, and answers whether there was one. -/
def drop (name : String) : SiteAction Bool := do
  let s ← get
  match s.handles.get? name with
  | some h => do
      set (({ s with handles := s.handles.erase name }).giveUp h)
      pure true
  | none => pure false

/-- What the commits of a store have changed since this was last asked. -/
def events (name : String) : SiteAction (List ChangeEvent) :=
  onStore name 0 do
    let events := (← get).store.events
    Action.modifyStore fun s => { s with events := [] }
    pure events

/-- Adds a row to a table of a database file, from outside of all stores. -/
def insertRow (path table : String) (cells : List Cell) : SiteAction Unit := do
  let s ← get
  let database := s.database path
  if database.locked then throw (.failed (.data .locked))
  match database.committed.insertCells table cells with
  | .ok tables => set (s.putDatabase path { database with committed := tables })
  | .error fault => throw (.failed (.data fault))

end SiteAction
end QuadStore
