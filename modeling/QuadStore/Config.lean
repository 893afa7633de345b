import QuadStore.Error
import QuadStore.Text.Path
import QuadStore.Vocabulary

namespace QuadStore

/-- Where the ids of statements that are not committed yet are registered. -/
inductive RegistryStrategy
  /-- Inside the open store. -/
  | internal
  /-- In two named caches of the store. -/
  | cache
  /-- In a database file of its own, which several stores may share. -/
  | database
deriving DecidableEq

/-- Whether a store keeps caches. -/
inductive CacheBackend
  | internal
  | disabled
deriving DecidableEq

def RegistryStrategy.name : RegistryStrategy → String
  | .internal => "local"
  | .cache => "cache"
  | .database => "database"

def CacheBackend.name : CacheBackend → String
  | .internal => "local"
  | .disabled => "disabled"

/-- How many entries a cache may hold, and for how long unused; zero seconds stand for no end. -/
structure CachePolicy where
  maxEntries : Nat
  idleSeconds : Nat
deriving DecidableEq

/-- The policies of the caches of a store. -/
structure CacheConfig where
  backend : CacheBackend := .internal
  node : CachePolicy := ⟨500000, 1800⟩
  statement : CachePolicy := ⟨100000, 1800⟩
  uri : CachePolicy := ⟨500000, 1800⟩
  blank : CachePolicy := ⟨10000, 1800⟩
  literal : CachePolicy := ⟨100000, 1800⟩
  namespaceUri : CachePolicy := ⟨1000, 3600⟩
  namespaceLabel : CachePolicy := ⟨1000, 3600⟩
  /-- For named caches that are asked for without a policy. -/
  named : CachePolicy := ⟨100000, 1800⟩
  /-- For the caches that hold a registry. -/
  registry : CachePolicy := ⟨1000000, 0⟩
deriving DecidableEq

/-- What a store is opened with. -/
structure Config where
  databasePath : String := "kiwi.db"
  registryDatabasePath : Option String := none
  /-- The greatest number of connections at one time. -/
  poolSize : Nat := 8
  /-- How long a writer waits for the write lock, in milliseconds. -/
  busyTimeout : Nat := 30000
  defaultContext : String := Vocabulary.defaultContext
  inferredContext : String := Vocabulary.inferredContext
  registry : RegistryStrategy := .internal
  cache : CacheConfig := {}
  /-- Whether the patterns of a query are put in the order of their selectivity. -/
  reorderPatterns : Bool := false
deriving DecidableEq

namespace Config

/-- The file of a registry with a database of its own: by default it lies beside the store's. -/
def registryPath (c : Config) : String :=
  c.registryDatabasePath.getD (c.databasePath ++ ".registry")

/-- Checks the fields in a fixed order and reports the first that cannot be used. -/
def validate (c : Config) : Except ConfigFault Unit := do
  if c.databasePath.isEmpty then throw .noDatabasePath
  if c.poolSize = 0 then throw .noConnections
  if c.defaultContext.isEmpty || c.inferredContext.isEmpty then throw .emptyContext
  if c.registry = .cache ∧ c.cache.backend = .disabled then throw .registryWithoutCaches
  if c.registry = .database && Text.samePath c.registryPath c.databasePath then
    throw .registryInStore

end Config
end QuadStore
