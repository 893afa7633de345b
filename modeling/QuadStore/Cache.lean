import QuadStore.Config
import QuadStore.Dict

/-!
Caches: maps that lose entries of their own accord, when they hold more than they have room for or
when entries have not been used for long, and that hold nothing at all when they are disabled or
have no room. What is not in a cache may still exist.
-/

namespace QuadStore

variable {κ ν : Type} [DecidableEq κ]

/-- A map that may forget what it has been given. -/
structure Cache (κ ν : Type) where
  /-- Whether the cache keeps what is put into it. -/
  keeps : Bool
  policy : CachePolicy
  entries : Dict κ ν := []

namespace Cache

/-- A cache that has no room, or that is disabled, keeps nothing from the start. -/
def make (backend : CacheBackend) (policy : CachePolicy) : Cache κ ν where
  keeps := backend == .internal && policy.maxEntries != 0
  policy := policy

/-- Reading a cache leaves it as it is; it counts as use, which only matters for what expires. -/
def get? (c : Cache κ ν) (key : κ) : Option ν :=
  c.entries.get? key

/-- Entries that have to go for a new one are lost afterwards. -/
def put (c : Cache κ ν) (key : κ) (value : ν) : Cache κ ν :=
  if c.keeps then { c with entries := c.entries.insert key value } else c

def erase (c : Cache κ ν) (key : κ) : Cache κ ν :=
  { c with entries := c.entries.erase key }

def clear (c : Cache κ ν) : Cache κ ν :=
  { c with entries := [] }

def size (c : Cache κ ν) : Nat :=
  c.entries.length

/-- The cache without the entries of some keys. -/
def evict (c : Cache κ ν) (gone : κ → Bool) : Cache κ ν :=
  { c with entries := c.entries.filter fun entry => !gone entry.1 }

/-- What a cache may become of its own accord. Which entries have to go is for the cache to
choose, but one that has room for all of them, and in which none expire, loses none. -/
inductive Evicts (c : Cache κ ν) : Cache κ ν → Prop
  | nothing : c.Evicts c
  | crowded (gone : κ → Bool) (hroom : c.policy.maxEntries ≤ (c.evict gone).size) :
      c.Evicts (c.evict gone)
  | expired (gone : κ → Bool) (hidle : c.policy.idleSeconds ≠ 0) : c.Evicts (c.evict gone)

theorem get?_put (c : Cache κ ν) (key other : κ) (value : ν) :
    (c.put key value).get? other =
      if key = other ∧ c.keeps then some value else c.get? other := by
  unfold put get?
  by_cases hk : c.keeps <;> simp [hk, Dict.get?_insert]

theorem get?_erase (c : Cache κ ν) (key other : κ) :
    (c.erase key).get? other = if key = other then none else c.get? other :=
  Dict.get?_erase c.entries key other

@[simp] theorem get?_clear (c : Cache κ ν) (key : κ) : c.clear.get? key = none := rfl

theorem get?_evict (c : Cache κ ν) (gone : κ → Bool) (key : κ) :
    (c.evict gone).get? key = if gone key then none else c.get? key := by
  rw [get?, evict, Dict.get?_filter c.entries fun k => !gone k]
  by_cases hgone : gone key <;> simp [hgone, get?]

omit [DecidableEq κ] in
theorem Evicts.keeps_eq {c c' : Cache κ ν} (h : c.Evicts c') : c'.keeps = c.keeps := by
  cases h <;> rfl

/-- What is still found was there before. -/
theorem Evicts.get?_of_some {c c' : Cache κ ν} (h : c.Evicts c') {key : κ} {value : ν}
    (hvalue : c'.get? key = some value) : c.get? key = some value := by
  cases h with
  | nothing => exact hvalue
  | crowded gone hroom | expired gone hidle =>
      rw [get?_evict] at hvalue
      split at hvalue
      · cases hvalue
      · exact hvalue

end Cache
end QuadStore
