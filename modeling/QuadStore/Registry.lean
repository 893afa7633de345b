import QuadStore.Cache
import QuadStore.Registry.Key

/-!
The registry of statements that are not committed yet. It maps the key of a statement to the id
that was handed out for it, so that every transaction that asks for the statement gets the same
id. An entry belongs to the transactions that registered it and goes away with the last of them;
deleting a key drops its entry at once.

There are three ways to keep a registry: maps of its own, two caches, or rows in a file.
-/

namespace QuadStore

/-- The id registered for a key and the transactions that it belongs to. -/
structure RegistryEntry where
  statement : Int
  owners : List Int
deriving DecidableEq

/-- Adds an element at the end of a list, unless it is there. -/
def addOnce [DecidableEq α] (xs : List α) (x : α) : List α :=
  if x ∈ xs then xs else xs ++ [x]

namespace RegistryEntry

/-- The entry after a transaction has registered an id for its key. -/
def register (e : RegistryEntry) (transaction id : Int) : RegistryEntry :=
  ⟨id, addOnce e.owners transaction⟩

/-- The entry after a transaction has given it up. -/
def release (e : RegistryEntry) (transaction : Int) : RegistryEntry :=
  { e with owners := e.owners.filter (· ≠ transaction) }

end RegistryEntry

/-- A registry in maps of its own: entries by key, and the keys that each
transaction registered. -/
structure InternalRegistry where
  entries : Dict StatementKey RegistryEntry := []
  registered : Dict Int (List StatementKey) := []

namespace InternalRegistry

/-- The id that is registered for a key. -/
def lookup? (r : InternalRegistry) (key : StatementKey) : Option Int :=
  (r.entries.get? key).map RegistryEntry.statement

/-- Registers an id, and notes the key for when the transaction ends. -/
def register (r : InternalRegistry) (key : StatementKey) (transaction id : Int) :
    InternalRegistry where
  entries :=
    r.entries.insert key
      (match r.entries.get? key with
        | some e => e.register transaction id
        | none => ⟨id, [transaction]⟩)
  registered :=
    r.registered.insert transaction (addOnce ((r.registered.get? transaction).getD []) key)

/-- Only the entry goes; the key stays in the lists of its transactions. -/
def delete (r : InternalRegistry) (key : StatementKey) : InternalRegistry :=
  { r with entries := r.entries.erase key }

/-- Takes a transaction from the owners of a key. The last one takes the entry with it. -/
def releaseKey (transaction : Int) (entries : Dict StatementKey RegistryEntry)
    (key : StatementKey) : Dict StatementKey RegistryEntry :=
  match entries.get? key with
  | some e =>
      if (e.release transaction).owners.isEmpty then entries.erase key
      else entries.insert key (e.release transaction)
  | none => entries

/-- Gives up all keys that the transaction has registered. -/
def release (r : InternalRegistry) (transaction : Int) : InternalRegistry where
  entries := ((r.registered.get? transaction).getD []).foldl (releaseKey transaction) r.entries
  registered := r.registered.erase transaction

def size (r : InternalRegistry) : Nat :=
  r.entries.length

end InternalRegistry

/-- A registry in two caches. -/
structure CachedRegistry where
  entries : Cache StatementKey RegistryEntry
  registered : Cache Int (List StatementKey)

namespace CachedRegistry

def names : List String :=
  ["registry.keys", "registry.transactions"]

/-- Two empty caches with the policy for registries. -/
def make (c : CacheConfig) : CachedRegistry :=
  ⟨.make c.backend c.registry, .make c.backend c.registry⟩

def lookup? (r : CachedRegistry) (key : StatementKey) : Option Int :=
  (r.entries.get? key).map RegistryEntry.statement

def register (r : CachedRegistry) (key : StatementKey) (transaction id : Int) :
    CachedRegistry where
  entries :=
    r.entries.put key
      (match r.entries.get? key with
        | some e => e.register transaction id
        | none => ⟨id, [transaction]⟩)
  registered :=
    let keys := (r.registered.get? transaction).getD []
    if key ∈ keys then r.registered else r.registered.put transaction (keys ++ [key])

def delete (r : CachedRegistry) (key : StatementKey) : CachedRegistry :=
  { r with entries := r.entries.erase key }

def releaseKey (transaction : Int) (entries : Cache StatementKey RegistryEntry)
    (key : StatementKey) : Cache StatementKey RegistryEntry :=
  match entries.get? key with
  | some e =>
      if (e.release transaction).owners.isEmpty then entries.erase key
      else entries.put key (e.release transaction)
  | none => entries

/-- Gives up the keys that the cache still lists for the transaction. When it has lost the list,
nothing is given up. -/
def release (r : CachedRegistry) (transaction : Int) : CachedRegistry :=
  match r.registered.get? transaction with
  | some keys =>
      ⟨keys.foldl (releaseKey transaction) r.entries, r.registered.erase transaction⟩
  | none => r

def clear (r : CachedRegistry) : CachedRegistry :=
  ⟨r.entries.clear, r.registered.clear⟩

end CachedRegistry

/-- A row of a registry in a file: one for each key and transaction. -/
structure RegistryRow where
  key : StatementKey
  transaction : Int
  statement : Int
deriving DecidableEq

/-- A registry file, which several stores may share. -/
abbrev RegistryFile := List RegistryRow

namespace RegistryFile

/-- The id of the first transaction's row of a key. -/
def lookup? (file : RegistryFile) (key : StatementKey) : Option Int :=
  match file.filter fun row => row.key = key with
  | [] => none
  | row :: rest =>
      some (rest.foldl
        (fun first row => if row.transaction <
          first.transaction then row else first) row).statement

/-- A row of the same key and transaction is replaced. -/
def register (file : RegistryFile) (key : StatementKey) (transaction id : Int) : RegistryFile :=
  (file.filter fun row => ¬(row.key = key ∧ row.transaction = transaction)) ++
    [⟨key, transaction, id⟩]

/-- Deletes the rows of a key, whoever has registered them. -/
def delete (file : RegistryFile) (key : StatementKey) : RegistryFile :=
  file.filter fun row => row.key ≠ key

/-- Deletes the rows of a transaction, told by its id alone. -/
def release (file : RegistryFile) (transaction : Int) : RegistryFile :=
  file.filter fun row => row.transaction ≠ transaction

end RegistryFile

/-- The registry that a store uses. -/
inductive Registry
  | internal (registry : InternalRegistry)
  /-- In caches, which stay in use when their names have been forgotten. -/
  | cached (registry : CachedRegistry) (known : Bool)
  /-- In the registry file that the store was opened with. -/
  | file

namespace Registry

/-- The registry of a store that is being opened. -/
def make (c : Config) : Registry :=
  match c.registry with
  | .internal => .internal {}
  | .cache => .cached (.make c.cache) true
  | .database => .file

def strategy : Registry → RegistryStrategy
  | .internal _ => .internal
  | .cached _ _ => .cache
  | .file => .database

def lookup? (r : Registry) (rows : RegistryFile) (key : StatementKey) : Option Int :=
  match r with
  | .internal registry => registry.lookup? key
  | .cached registry _ => registry.lookup? key
  | .file => rows.lookup? key

/-- Registers an id for a key on behalf of a transaction. -/
def register (r : Registry) (rows : RegistryFile) (key : StatementKey) (transaction id : Int) :
    Registry × RegistryFile :=
  match r with
  | .internal registry => (.internal (registry.register key transaction id), rows)
  | .cached registry known => (.cached (registry.register key transaction id) known, rows)
  | .file => (.file, rows.register key transaction id)

/-- Drops the entry of a key, whoever it belongs to. -/
def delete (r : Registry) (rows : RegistryFile) (key : StatementKey) : Registry × RegistryFile :=
  match r with
  | .internal registry => (.internal (registry.delete key), rows)
  | .cached registry known => (.cached (registry.delete key) known, rows)
  | .file => (.file, rows.delete key)

/-- Gives up all that a transaction has registered. -/
def release (r : Registry) (rows : RegistryFile) (transaction : Int) : Registry × RegistryFile :=
  match r with
  | .internal registry => (.internal (registry.release transaction), rows)
  | .cached registry known => (.cached (registry.release transaction) known, rows)
  | .file => (.file, rows.release transaction)

/-- The names of the caches that hold the registry, until they are forgotten. -/
def cacheNames : Registry → List String
  | .cached _ true => CachedRegistry.names
  | _ => []

/-- The registry after all caches that are known by name have been emptied. -/
def clearCaches : Registry → Registry
  | .cached registry true => .cached registry.clear true
  | r => r

/-- The registry after the names of its caches have been forgotten, and the caches emptied. -/
def forgetCaches : Registry → Registry
  | .cached registry true => .cached registry.clear false
  | r => r

end Registry
end QuadStore
