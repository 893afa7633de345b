import QuadStore.Cache
import QuadStore.Error

namespace QuadStore

/-- Types that keys and values of a named cache may have. -/
inductive AtomType
  | int
  | text
deriving DecidableEq

/-- A key or a value of a named cache. -/
inductive Atom
  | int (value : Int)
  | text (value : String)
deriving DecidableEq

variable {τ α : Type} [DecidableEq τ] [DecidableEq α]

/-- A cache with a name, for keys and values of two of the types `τ`, which are all in `α`. -/
structure NamedCache (τ α : Type) where
  name : String
  keyType : τ
  valueType : τ
  policy : CachePolicy
  cache : Cache α α

/-- The caches that are asked for by name. -/
structure NamedCaches (τ α : Type) where
  backend : CacheBackend
  /-- The policy of caches that are asked for without one. -/
  policy : CachePolicy
  /-- All caches that were ever made; a handle is a place in this list. -/
  made : List (NamedCache τ α) := []
  /-- The handles of the names that are not forgotten. -/
  known : Dict String Nat := []

namespace NamedCaches

/-- No cache is made before someone asks for it. -/
def make (c : CacheConfig) : NamedCaches τ α where
  backend := c.backend
  policy := c.named

/-- The handle of a name, with the caches after asking. The first to ask decides on types and
policy; who asks for other types is refused. -/
def request (m : NamedCaches τ α) (name : String) (keyType valueType : τ)
    (policy : Option CachePolicy) : Except StoreError (Nat × NamedCaches τ α) :=
  match (m.known.get? name).bind fun handle => (m.made[handle]?).map fun c => (handle, c) with
  | some (handle, c) =>
      if c.keyType = keyType ∧ c.valueType = valueType then .ok (handle, m)
      else .error (.cacheTypes name)
  | none =>
      let policy := policy.getD m.policy
      let c : NamedCache τ α := ⟨name, keyType, valueType, policy, .make m.backend policy⟩
      .ok (m.made.length, { m with
        made := m.made ++ [c], known := m.known.insert name m.made.length })

/-- Changes the cache of a handle; a handle that was never given out has none. -/
def modify (m : NamedCaches τ α) (handle : Nat) (f : Cache α α → Cache α α) : NamedCaches τ α :=
  { m with made := m.made.modify handle fun c => { c with cache := f c.cache } }

def get? (m : NamedCaches τ α) (handle : Nat) (key : α) : Option α :=
  (m.made[handle]?).bind fun c => c.cache.get? key

/-- Types are not looked at here; whoever has a handle has asked for them. -/
def put (m : NamedCaches τ α) (handle : Nat) (key value : α) : NamedCaches τ α :=
  m.modify handle (·.put key value)

def erase (m : NamedCaches τ α) (handle : Nat) (key : α) : NamedCaches τ α :=
  m.modify handle (·.erase key)

/-- Empties the cache of a handle, whether or not its name is still known. -/
def clearOne (m : NamedCaches τ α) (handle : Nat) : NamedCaches τ α :=
  m.modify handle Cache.clear

def size (m : NamedCaches τ α) (handle : Nat) : Nat :=
  (m.made[handle]?).elim 0 fun c => c.cache.size

def name? (m : NamedCaches τ α) (handle : Nat) : Option String :=
  (m.made[handle]?).map NamedCache.name

/-- The names that are known, in their order. -/
def names (m : NamedCaches τ α) : List String :=
  m.known.keys.mergeSort fun a b => !(b < a)

/-- Empties the caches whose names are known. Others keep what they have. -/
def clear (m : NamedCaches τ α) : NamedCaches τ α :=
  m.known.foldl (fun m entry => m.clearOne entry.2) m

/-- Empties the caches whose names are known and forgets the names. -/
def shutdown (m : NamedCaches τ α) : NamedCaches τ α :=
  { m.clear with known := [] }

end NamedCaches
end QuadStore
