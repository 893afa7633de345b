import QuadStore.Caches
import QuadStore.Registry
import QuadStore.Sequence

namespace QuadStore

/-- The statements that a commit has added and removed. -/
structure ChangeEvent where
  added : List Statement
  removed : List Statement
deriving DecidableEq

/-- Whether a commit has changed nothing that listeners would be told. -/
def ChangeEvent.isEmpty (e : ChangeEvent) : Bool :=
  e.added.isEmpty && e.removed.isEmpty

/-- The caches of a store that may lose entries at one time. -/
inductive CacheGroup
  /-- Those of nodes, statements and namespaces. -/
  | rows
  /-- The one of the entries of a registry. -/
  | entries
  /-- The one of the keys that each transaction has registered. -/
  | registered
deriving DecidableEq

/-- What all transactions of an open store share. -/
structure Store where
  config : Config
  counters : Counters
  caches : Caches
  registry : Registry
  /-- How the labels begin that this store makes up for blank nodes. -/
  labelStart : String
  /-- How many labels the store has made up. -/
  labelCount : Nat := 0
  /-- What the commits have changed, in their order. -/
  events : List ChangeEvent := []

namespace Store

/-- A store that has just been opened. Its counters go on from the tables. -/
def make (config : Config) (tables : Tables) (labelStart : String) : Store where
  config := config
  counters := .load tables
  caches := .make config.cache
  registry := .make config
  labelStart := labelStart

/-- Empties the caches of rows, and those of the registry if it is in caches. -/
def clearCaches (s : Store) : Store :=
  { s with caches := s.caches.clear, registry := s.registry.clearCaches }

/-- Empties all caches and forgets the names of those known by name. -/
def shutdownCaches (s : Store) : Store :=
  { s with caches := s.caches.clear, registry := s.registry.forgetCaches }

/-- What a store may become when some of its caches lose entries. -/
inductive Evicts (s : Store) : CacheGroup → Store → Prop
  | rows {caches : Caches} (h : s.caches.Evicts caches) : s.Evicts .rows { s with caches }
  | entries {r : CachedRegistry} {known : Bool} {entries : Cache StatementKey RegistryEntry}
      (hr : s.registry = .cached r known) (h : r.entries.Evicts entries) :
      s.Evicts .entries { s with registry := .cached { r with entries } known }
  | registered {r : CachedRegistry} {known : Bool} {registered : Cache Int (List StatementKey)}
      (hr : s.registry = .cached r known) (h : r.registered.Evicts registered) :
      s.Evicts .registered { s with registry := .cached { r with registered } known }

/-- The label that is made up next. -/
def freshLabel (s : Store) : String :=
  "b" ++ s.labelStart ++ "x" ++ Text.natText s.labelCount

end Store

/-- Brings the tables of a database up to date when a store opens it. -/
def Tables.prepare (t : Tables) : Tables :=
  if (t.metadata.get? "schema_version").isSome then t
  else { t with metadata := t.metadata.insert "schema_version" "1" }

end QuadStore
