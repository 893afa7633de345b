import Mathlib.Data.Finset.Insert
import Mathlib.Data.Set.Finite.Basic
import QuadStore.Proofs.RegistryIndex

/-!
What a registry is meant to be: a finite map from keys to an id and the transactions that it
belongs to, of which there is one at least. Main statement: each of the three registries answers
as this map does, whatever it is asked one after another.
-/

namespace QuadStore

/-- A registered id and the transactions that it belongs to. -/
structure Registration where
  statement : Int
  owners : Finset Int
  owned : owners.Nonempty

namespace Registration

/-- What is registered for a key after a transaction has registered an id for it. -/
def register (x : Option Registration) (transaction id : Int) : Registration where
  statement := id
  owners := insert transaction (x.elim ∅ owners)
  owned := Finset.insert_nonempty _ _

def release? (transaction : Int) (x : Registration) : Option Registration :=
  if h : (x.owners.erase transaction).Nonempty then some ⟨x.statement, _, h⟩ else none

theorem release?_eq_some_iff {x y : Registration} {transaction : Int} :
    x.release? transaction = some y ↔
      y.statement = x.statement ∧ y.owners = x.owners.erase transaction := by
  unfold release?
  split
  · rename_i h
    obtain ⟨id, owners, howned⟩ := y
    simp [eq_comm]
  · rename_i h
    simp only [reduceCtorEq, false_iff, not_and]
    exact fun _ howners => h (howners ▸ y.owned)

end Registration

/-- What is registered for each key. -/
structure Registrations where
  registered? : StatementKey → Option Registration
  finite : {key | (registered? key).isSome}.Finite

namespace Registrations

def empty : Registrations where
  registered? _ := none
  finite := by simp

def lookup? (m : Registrations) (key : StatementKey) : Option Int :=
  (m.registered? key).map Registration.statement

/-- Sets the id of a key and adds the transaction to those it belongs to. -/
def register (m : Registrations) (key : StatementKey) (transaction id : Int) : Registrations where
  registered? k :=
    if k = key then some (.register (m.registered? key) transaction id) else m.registered? k
  finite := by
    refine (m.finite.insert key).subset fun k hk => ?_
    by_cases hkey : k = key
    · exact .inl hkey
    · exact .inr (by simpa [hkey] using hk)

def delete (m : Registrations) (key : StatementKey) : Registrations where
  registered? k := if k = key then none else m.registered? k
  finite := by
    refine m.finite.subset fun k hk => ?_
    by_cases hkey : k = key
    · simp [hkey] at hk
    · simpa [hkey] using hk

/-- Takes a transaction off everywhere; a key that belongs to no other goes. -/
def release (m : Registrations) (transaction : Int) : Registrations where
  registered? k := (m.registered? k).bind (Registration.release? transaction)
  finite := by
    refine m.finite.subset fun k hk => ?_
    cases he : m.registered? k with
    | none => simp [he] at hk
    | some x => simp [he]

/-- Whether an id is registered for a key on behalf of a transaction. -/
def Owns (m : Registrations) (key : StatementKey) (transaction id : Int) : Prop :=
  ∃ x, m.registered? key = some x ∧ x.statement = id ∧ transaction ∈ x.owners

variable {m : Registrations} {key k : StatementKey} {transaction owner id i : Int}

theorem lookup?_eq_some_iff : m.lookup? key = some id ↔ ∃ owner, m.Owns key owner id := by
  unfold lookup? Owns
  rw [Option.map_eq_some_iff]
  constructor
  · rintro ⟨x, hx, hid⟩
    obtain ⟨owner, howner⟩ := x.owned
    exact ⟨owner, x, hx, hid, howner⟩
  · rintro ⟨owner, x, hx, hid, -⟩
    exact ⟨x, hx, hid⟩

theorem owns_register_iff : (m.register key transaction id).Owns k owner i ↔
    if k = key then i = id ∧ (owner = transaction ∨ ∃ j, m.Owns k owner j)
    else m.Owns k owner i := by
  unfold Owns
  by_cases hk : k = key
  · subst hk
    have hentry : (m.register k transaction id).registered? k =
        some (.register (m.registered? k) transaction id) := if_pos rfl
    rw [hentry, if_pos rfl]
    cases he : m.registered? k <;> simp [Registration.register, eq_comm]
  · have hentry : (m.register key transaction id).registered? k = m.registered? k := if_neg hk
    rw [hentry, if_neg hk]

theorem owns_delete_iff : (m.delete key).Owns k owner i ↔ m.Owns k owner i ∧ k ≠ key := by
  unfold Owns delete
  by_cases hk : k = key <;> simp [hk]

theorem owns_release_iff :
    (m.release transaction).Owns k owner i ↔ m.Owns k owner i ∧ owner ≠ transaction := by
  unfold Owns release
  constructor
  · rintro ⟨y, hy, rfl, howner⟩
    obtain ⟨x, hx, hy⟩ := Option.bind_eq_some_iff.mp hy
    obtain ⟨hid, howners⟩ := Registration.release?_eq_some_iff.mp hy
    rw [howners, Finset.mem_erase] at howner
    exact ⟨⟨x, hx, hid.symm, howner.2⟩, howner.1⟩
  · rintro ⟨⟨x, hx, rfl, howner⟩, hne⟩
    have hleft : owner ∈ x.owners.erase transaction := Finset.mem_erase.mpr ⟨hne, howner⟩
    refine ⟨⟨x.statement, _, ⟨owner, hleft⟩⟩, ?_, rfl, hleft⟩
    simp only [hx, Option.bind_some]
    exact Registration.release?_eq_some_iff.mpr ⟨rfl, rfl⟩

end Registrations

/-- Something that a registry is asked. -/
inductive RegistryCall
  | lookup (key : StatementKey)
  | register (key : StatementKey) (transaction id : Int)
  | delete (key : StatementKey)
  | release (transaction : Int)
deriving DecidableEq

/-- The answers to what is looked up, while a registry of some kind is asked
one thing after another. -/
def RegistryCall.answers {σ : Type} (lookup? : σ → StatementKey → Option Int)
    (perform : σ → RegistryCall → σ) (s : σ) : List RegistryCall → List (Option Int)
  | [] => []
  | .lookup key :: rest => lookup? s key :: answers lookup? perform (perform s (.lookup key)) rest
  | call :: rest => answers lookup? perform (perform s call) rest

namespace Registrations

def perform (m : Registrations) : RegistryCall → Registrations
  | .lookup _ => m
  | .register key transaction id => m.register key transaction id
  | .delete key => m.delete key
  | .release transaction => m.release transaction

def answers (m : Registrations) (calls : List RegistryCall) : List (Option Int) :=
  RegistryCall.answers lookup? perform m calls

end Registrations

/-! The registries -/

theorem hasOwner_registered_iff {entries entries' : StatementKey → Option RegistryEntry}
    {key k : StatementKey} {transaction owner id i : Int}
    (hkey : entries' key = some (RegistryEntry.registered transaction id (entries key)))
    (hothers : ∀ k, k ≠ key → entries' k = entries k) :
    HasOwner entries' k owner i ↔
      if k = key then i = id ∧ (owner = transaction ∨ ∃ j, HasOwner entries k owner j)
      else HasOwner entries k owner i := by
  split
  · rename_i hk
    subst hk
    simp only [HasOwner, hkey, Option.some.injEq, exists_eq_left',
      RegistryEntry.statement_registered, RegistryEntry.mem_owners_registered_iff]
    constructor
    · rintro ⟨rfl, rfl | ⟨e, he, howner⟩⟩
      · exact ⟨rfl, .inl rfl⟩
      · exact ⟨rfl, .inr ⟨e.statement, e, he, rfl, howner⟩⟩
    · rintro ⟨rfl, rfl | ⟨j, e, he, -, howner⟩⟩
      · exact ⟨rfl, .inl rfl⟩
      · exact ⟨rfl, .inr ⟨e, he, howner⟩⟩
  · rename_i hk
    unfold HasOwner
    rw [hothers k hk]

/-- Whether every entry of a map belongs to a transaction. -/
def Owned (entries : StatementKey → Option RegistryEntry) : Prop :=
  ∀ key e, entries key = some e → ∃ owner, owner ∈ e.owners

theorem Frees.owned {transaction : Int} {entries entries' : StatementKey → Option RegistryEntry}
    (h : Frees transaction entries entries') (howned : Owned entries) : Owned entries' := by
  intro key e he
  rcases h key with hkey | ⟨hkey, -⟩ <;> rw [hkey] at he
  · obtain ⟨e₁, -, he⟩ := Option.bind_eq_some_iff.mp he
    obtain ⟨rfl, owner, howner⟩ := RegistryEntry.released?_eq_some_iff.mp he
    exact ⟨owner, RegistryEntry.mem_owners_release_iff.mpr howner⟩
  · exact howned key e he

theorem Owned.registered {entries entries' : StatementKey → Option RegistryEntry}
    {key : StatementKey} {transaction id : Int} (h : Owned entries)
    (hkey : entries' key = some (RegistryEntry.registered transaction id (entries key)))
    (hothers : ∀ k, k ≠ key → entries' k = entries k) : Owned entries' := by
  intro k e he
  by_cases hk : k = key
  · subst hk
    obtain rfl := Option.some.inj (hkey.symm.trans he)
    exact ⟨transaction, RegistryEntry.mem_owners_registered_iff.mpr (.inl rfl)⟩
  · rw [hothers k hk] at he
    exact h k e he

namespace Registry

variable {r : Registry} {rows : RegistryFile} {key k : StatementKey}
  {transaction owner id i : Int}

/-- Whether nothing is found in a registry that belongs to no transaction. -/
def Owned (r : Registry) : Prop :=
  match r with
  | .internal registry => QuadStore.Owned registry.entries.get?
  | .cached registry _ => QuadStore.Owned registry.entries.get?
  | .file => True

/-- Whether one id is registered for each key, for one transaction at least, and all that a
transaction has registered is found. -/
structure Sound (r : Registry) (rows : RegistryFile) : Prop where
  reliable : r.Reliable rows
  indexed : r.Indexed
  owned : r.Owned

theorem Sound.lookup?_eq_some_iff (h : r.Sound rows) :
    r.lookup? rows key = some id ↔ ∃ owner, r.Owns rows key owner id := by
  refine ⟨fun hid => ?_, fun ⟨owner, howns⟩ => lookup?_of_owns h.reliable howns⟩
  cases r with
  | internal registry =>
      obtain ⟨e, he, hid⟩ := Option.map_eq_some_iff.mp hid
      obtain ⟨owner, howner⟩ := h.owned key e he
      exact ⟨owner, e, he, hid, howner⟩
  | cached registry known =>
      obtain ⟨e, he, hid⟩ := Option.map_eq_some_iff.mp hid
      obtain ⟨owner, howner⟩ := h.owned key e he
      exact ⟨owner, e, he, hid, howner⟩
  | file => exact (RegistryFile.lookup?_eq_some_iff h.reliable).mp hid

theorem Sound.register (h : r.Sound rows)
    (hid : r = .file → ∀ i ∈ r.lookup? rows key, i = id) (transaction : Int) :
    (r.register rows key transaction id).1.Sound (r.register rows key transaction id).2 ∧
      ∀ k owner i, (r.register rows key transaction id).1.Owns
          (r.register rows key transaction id).2 k owner i ↔
        if k = key then i = id ∧ (owner = transaction ∨ ∃ j, r.Owns rows k owner j)
        else r.Owns rows k owner i := by
  have hindexed := h.indexed.register rows key transaction id
  cases r with
  | internal registry =>
      obtain ⟨hkey, hothers⟩ := registry.get?_register key transaction id
      exact ⟨⟨trivial, hindexed, h.owned.registered hkey hothers⟩,
        fun _ _ _ => hasOwner_registered_iff hkey hothers⟩
  | cached registry known =>
      obtain ⟨hkeeps, hkey, hothers⟩ :=
        CachedRegistry.get?_register h.reliable key transaction id
      exact ⟨⟨hkeeps, hindexed, h.owned.registered hkey hothers⟩,
        fun _ _ _ => hasOwner_registered_iff hkey hothers⟩
  | file =>
      have hagrees : rows.Agrees := h.reliable
      have hid : ∀ i, rows.lookup? key = some i → i = id := hid rfl
      refine ⟨⟨hagrees.register hid transaction, hindexed, trivial⟩, fun k owner i => ?_⟩
      refine RegistryFile.mem_register_iff.trans ?_
      by_cases hk : k = key
      · subst hk
        rw [if_pos rfl, RegistryRow.mk.injEq]
        constructor
        · rintro (⟨hrow, -⟩ | ⟨-, rfl, rfl⟩)
          · exact ⟨hagrees.statement_eq hid hrow rfl, .inr ⟨i, hrow⟩⟩
          · exact ⟨rfl, .inl rfl⟩
        · rintro ⟨rfl, howner⟩
          by_cases hsame : owner = transaction
          · exact .inr ⟨rfl, hsame, rfl⟩
          · obtain ⟨j, hrow⟩ := howner.resolve_left hsame
            obtain rfl : j = i := hagrees.statement_eq hid hrow rfl
            exact .inl ⟨hrow, fun hrow' => hsame hrow'.2⟩
      · simp [hk, Owns]

theorem Sound.delete (h : r.Sound rows) (key : StatementKey) :
    (r.delete rows key).1.Sound (r.delete rows key).2 ∧
      ∀ k owner i, (r.delete rows key).1.Owns (r.delete rows key).2 k owner i ↔
        r.Owns rows k owner i ∧ k ≠ key := by
  have hindexed := h.indexed.delete rows key
  have erased : ∀ {entries entries' : StatementKey → Option RegistryEntry},
      (∀ k, entries' k = if key = k then none else entries k) → QuadStore.Owned entries →
        QuadStore.Owned entries' ∧ ∀ k owner i,
          HasOwner entries' k owner i ↔ HasOwner entries k owner i ∧ k ≠ key := by
    intro entries entries' hentries howned
    constructor
    · intro k e he
      rw [hentries] at he
      split at he
      · cases he
      · exact howned k e he
    · intro k owner i
      unfold HasOwner
      rw [hentries]
      by_cases hk : key = k
      · simp [hk]
      · simp [hk, Ne.symm hk]
  cases r with
  | internal registry =>
      obtain ⟨howned, howns⟩ := erased (Dict.get?_erase registry.entries key) h.owned
      exact ⟨⟨trivial, hindexed, howned⟩, howns⟩
  | cached registry known =>
      obtain ⟨howned, howns⟩ := erased (Cache.get?_erase registry.entries key) h.owned
      exact ⟨⟨h.reliable, hindexed, howned⟩, howns⟩
  | file =>
      have hmem : ∀ row, row ∈ rows.delete key ↔ row ∈ rows ∧ row.key ≠ key := by
        simp [RegistryFile.delete]
      exact ⟨⟨fun row hrow row' hrow' => h.reliable row ((hmem row).mp hrow).1 row'
        ((hmem row').mp hrow').1, hindexed, trivial⟩, fun k owner i => hmem ⟨k, owner, i⟩⟩

theorem Sound.release (h : r.Sound rows) (transaction : Int) :
    (r.release rows transaction).1.Sound (r.release rows transaction).2 := by
  refine ⟨(released h.reliable transaction).reliable, h.indexed.release rows transaction, ?_⟩
  cases r with
  | internal registry =>
      exact (InternalRegistry.frees_release h.indexed transaction).owned h.owned
  | cached registry known =>
      exact (CachedRegistry.Indexed.frees_release h.indexed transaction).owned h.owned
  | file => trivial

def perform (s : Registry × RegistryFile) : RegistryCall → Registry × RegistryFile
  | .lookup _ => s
  | .register key transaction id => s.1.register s.2 key transaction id
  | .delete key => s.1.delete s.2 key
  | .release transaction => s.1.release s.2 transaction

def answers (s : Registry × RegistryFile) (calls : List RegistryCall) : List (Option Int) :=
  RegistryCall.answers (fun s key => s.1.lookup? s.2 key) perform s calls

/-- Whether a call that registers an id for a key that has one registers that id. -/
def Repeats (s : Registry × RegistryFile) : RegistryCall → Prop
  | .register key _ id => ∀ i ∈ s.1.lookup? s.2 key, i = id
  | _ => True

/-- Whether all calls do so, made one after another. -/
def AllRepeat (s : Registry × RegistryFile) : List RegistryCall → Prop
  | [] => True
  | call :: rest => Repeats s call ∧ AllRepeat (perform s call) rest

/-- Whether a registry has registered what the map holds. -/
structure Represents (s : Registry × RegistryFile) (m : Registrations) : Prop where
  sound : s.1.Sound s.2
  owns : ∀ k owner i, s.1.Owns s.2 k owner i ↔ m.Owns k owner i

namespace Represents

variable {s : Registry × RegistryFile} {m : Registrations}

theorem lookup?_eq (h : Represents s m) (key : StatementKey) :
    s.1.lookup? s.2 key = m.lookup? key := by
  apply Option.ext
  intro id
  rw [h.sound.lookup?_eq_some_iff, Registrations.lookup?_eq_some_iff]
  simp only [h.owns]

theorem perform (h : Represents s m) {call : RegistryCall}
    (hcall : s.1 = .file → Repeats s call) :
    Represents (Registry.perform s call) (m.perform call) := by
  cases call with
  | lookup key => exact h
  | register key transaction id =>
      obtain ⟨hsound, howns⟩ := h.sound.register hcall transaction
      refine ⟨hsound, fun k owner i => (howns k owner i).trans ?_⟩
      simp only [h.owns]
      exact Registrations.owns_register_iff.symm
  | delete key =>
      obtain ⟨hsound, howns⟩ := h.sound.delete key
      refine ⟨hsound, fun k owner i => (howns k owner i).trans ?_⟩
      rw [h.owns]
      exact Registrations.owns_delete_iff.symm
  | release transaction =>
      refine ⟨h.sound.release transaction, fun k owner i => ?_⟩
      refine h.sound.indexed.owns_release_iff.trans ?_
      rw [h.owns]
      exact Registrations.owns_release_iff.symm

end Represents

theorem perform_eq_file {s : Registry × RegistryFile} {call : RegistryCall}
    (h : (perform s call).1 = .file) : s.1 = .file := by
  obtain ⟨r, rows⟩ := s
  cases r <;> cases call <;> first | rfl | cases h

theorem answers_eq_of_represents {s : Registry × RegistryFile} {m : Registrations}
    (h : Represents s m) {calls : List RegistryCall} (hcalls : s.1 = .file → AllRepeat s calls) :
    answers s calls = m.answers calls := by
  induction calls generalizing s m with
  | nil => rfl
  | cons call rest ih =>
      have hrest : answers (perform s call) rest = (m.perform call).answers rest :=
        ih (h.perform fun hfile => (hcalls hfile).1) fun hfile =>
          (hcalls (perform_eq_file hfile)).2
      cases call with
      | lookup key => exact congrArg₂ List.cons (h.lookup?_eq key) hrest
      | register key transaction id => exact hrest
      | delete key => exact hrest
      | release transaction => exact hrest

theorem represents_make {c : Config}
    (hc : c.registry = .cache → c.cache.backend = .internal ∧ c.cache.registry.maxEntries ≠ 0) :
    Represents (make c, []) .empty := by
  have hnone : ∀ k owner i, ¬(make c).Owns [] k owner i := by
    unfold make
    split <;> rintro k owner i h
    · obtain ⟨e, he, -⟩ := h
      cases he
    · obtain ⟨e, he, -⟩ := h
      cases he
    · cases h
  refine ⟨⟨reliable_make hc, indexed_make c, ?_⟩, fun k owner i => ?_⟩
  · unfold make
    split
    · intro key e he
      cases he
    · intro key e he
      cases he
    · trivial
  · simp [hnone, Registrations.Owns, Registrations.empty]

/-- A registry of each kind that is made anew, a cached one with room for its entries,
answers whatever it is asked as the map does; a registry file does so as long as no second id
is registered for a key. -/
theorem answers_eq (c : Config)
    (hc : c.registry = .cache → c.cache.backend = .internal ∧ c.cache.registry.maxEntries ≠ 0)
    (calls : List RegistryCall)
    (hcalls : c.registry = .database → AllRepeat (make c, []) calls) :
    answers (make c, []) calls = Registrations.empty.answers calls := by
  refine answers_eq_of_represents (represents_make hc) fun hfile => hcalls ?_
  unfold make at hfile
  split at hfile
  · cases hfile
  · cases hfile
  · assumption

/-- A key that was deleted and registered anew by another transaction outlives the first one. -/
theorem answers_eq_deleted_key :
    let k : StatementKey := ⟨1, 2, 3, 4⟩
    let calls : List RegistryCall :=
      [.register k 7 10, .register k 8 10, .delete k, .lookup k, .register k 8 11, .release 7,
        .lookup k, .release 8, .lookup k]
    answers (make { registry := .database }, []) calls = Registrations.empty.answers calls ∧
      answers (make { registry := .database }, []) calls = [none, some 11, none] := by
  intro k calls
  refine ⟨answers_eq { registry := .database } (by decide) calls fun _ => ?_, by decide⟩
  simp only [calls, AllRepeat, Repeats]
  decide

end Registry
end QuadStore
