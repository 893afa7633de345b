import Mathlib.Data.List.Basic
import QuadStore.Proofs.CacheLosses
import QuadStore.Proofs.RegistryOwners

/-!
How a registry finds what a transaction has registered. Beside its entries it lists the keys that
each transaction has registered; a key may still be listed when its entry has gone or belongs to
others by now. Main statement: when a transaction is released, it is taken off the owners of every
entry and off nothing else.
-/

namespace QuadStore

theorem mem_addOnce_iff {α : Type} [DecidableEq α] {xs : List α} {x y : α} :
    y ∈ addOnce xs x ↔ y ∈ xs ∨ y = x := by
  unfold addOnce
  split
  · rename_i hmem
    refine ⟨.inl, ?_⟩
    rintro (h | rfl)
    · exact h
    · exact hmem
  · simp

theorem Dict.eq_nil_of_get? {κ ν : Type} [DecidableEq κ] {d : Dict κ ν}
    (h : ∀ key, d.get? key = none) : d = [] := by
  cases d with
  | nil => rfl
  | cons entry rest => simpa [Dict.get?] using h entry.1

namespace RegistryEntry

variable {e : RegistryEntry} {transaction other id : Int}

theorem mem_owners_register_iff :
    other ∈ (e.register transaction id).owners ↔ other ∈ e.owners ∨ other = transaction :=
  mem_addOnce_iff

/-- The entry after a transaction has registered an id, whether there was one before or not. -/
def registered (transaction id : Int) : Option RegistryEntry → RegistryEntry
  | some e => e.register transaction id
  | none => ⟨id, [transaction]⟩

theorem statement_registered (x : Option RegistryEntry) :
    (registered transaction id x).statement = id := by
  cases x <;> rfl

theorem mem_owners_registered_iff {x : Option RegistryEntry} :
    other ∈ (registered transaction id x).owners ↔
      other = transaction ∨ ∃ e, x = some e ∧ other ∈ e.owners := by
  cases x with
  | none => simp [registered]
  | some e => simp [registered, mem_owners_register_iff, or_comm]

theorem mem_owners_release_iff :
    other ∈ (e.release transaction).owners ↔ other ∈ e.owners ∧ other ≠ transaction := by
  simp [release]

/-- What is left of an entry when a transaction has been taken off its owners. -/
def released? (transaction : Int) (e : RegistryEntry) : Option RegistryEntry :=
  if (e.release transaction).owners.isEmpty then none else some (e.release transaction)

theorem released?_eq_some_iff {e' : RegistryEntry} :
    e.released? transaction = some e' ↔
      e' = e.release transaction ∧ ∃ other ∈ e.owners, other ≠ transaction := by
  have hleft : (e.release transaction).owners.isEmpty = false ↔
      ∃ other ∈ e.owners, other ≠ transaction := by
    simp [release]
  unfold released?
  cases hempty : (e.release transaction).owners.isEmpty with
  | true =>
      rw [hempty] at hleft
      simp [← hleft]
  | false =>
      rw [← hleft, hempty]
      simp [eq_comm]

theorem released?_bind_released? (x : Option RegistryEntry) :
    (x.bind (released? transaction)).bind (released? transaction) =
      x.bind (released? transaction) := by
  cases h : x.bind (released? transaction) with
  | none => rfl
  | some e' =>
      obtain ⟨e, -, he⟩ := Option.bind_eq_some_iff.mp h
      obtain ⟨rfl, other, hother, hne⟩ := released?_eq_some_iff.mp he
      rw [Option.bind_some, released?_eq_some_iff]
      refine ⟨?_, other, mem_owners_release_iff.mpr ⟨hother, hne⟩, hne⟩
      simp [release]

end RegistryEntry

open RegistryEntry

theorem get?_foldl_released {σ : Type} {P : σ → Prop}
    {get? : σ → StatementKey → Option RegistryEntry} {step : σ → StatementKey → σ}
    {transaction : Int} (hP : ∀ s, P s → ∀ key, P (step s key))
    (hstep : ∀ s, P s → ∀ key k, get? (step s key) k =
      if k = key then (get? s k).bind (released? transaction) else get? s k)
    (keys : List StatementKey) {s : σ} (hs : P s) (k : StatementKey) :
    P (keys.foldl step s) ∧ get? (keys.foldl step s) k =
      if k ∈ keys then (get? s k).bind (released? transaction) else get? s k := by
  induction keys generalizing s with
  | nil => simpa using hs
  | cons key rest ih =>
      obtain ⟨hrest, hget⟩ := ih (hP s hs key)
      refine ⟨hrest, ?_⟩
      rw [List.foldl_cons, hget, hstep s hs]
      by_cases hk : k = key <;> by_cases hmem : k ∈ rest <;>
        simp only [hk, hmem, List.mem_cons, if_true, if_false, true_or, or_true, or_false,
          released?_bind_released?, ite_self]

theorem InternalRegistry.get?_foldl_releaseKey (transaction : Int) (keys : List StatementKey)
    (entries : Dict StatementKey RegistryEntry) (k : StatementKey) :
    (keys.foldl (releaseKey transaction) entries).get? k =
      if k ∈ keys then (entries.get? k).bind (released? transaction) else entries.get? k := by
  refine (get?_foldl_released (P := fun _ => True) (fun _ h _ => h) ?_ keys trivial k).2
  intro entries _ key k
  cases he : entries.get? key with
  | none =>
      simp only [releaseKey, he]
      split
      · rename_i hk
        rw [hk, he]
        rfl
      · rfl
  | some e =>
      simp only [releaseKey, he]
      by_cases hk : k = key
      · rw [if_pos hk, hk, he, Option.bind_some, released?]
        split <;> simp [Dict.get?_erase, Dict.get?_insert]
      · rw [if_neg hk]
        split <;> simp [Dict.get?_erase, Dict.get?_insert, Ne.symm hk]

theorem CachedRegistry.keeps_releaseKey {entries : Cache StatementKey RegistryEntry}
    (h : entries.keeps = true) (transaction : Int) (key : StatementKey) :
    (releaseKey transaction entries key).keeps = true := by
  unfold releaseKey
  split
  · split
    · exact h
    · simp only [Cache.put, h, if_true]
  · exact h

theorem CachedRegistry.get?_foldl_releaseKey (transaction : Int) (keys : List StatementKey)
    {entries : Cache StatementKey RegistryEntry}
    (hkeeps : entries.keeps = true) (k : StatementKey) :
    (keys.foldl (releaseKey transaction) entries).keeps = true ∧
      (keys.foldl (releaseKey transaction) entries).get? k =
        if k ∈ keys then (entries.get? k).bind (released? transaction) else entries.get? k := by
  refine get?_foldl_released (P := fun c : Cache StatementKey RegistryEntry => c.keeps = true)
    (fun _ h key => keeps_releaseKey h transaction key) ?_ keys hkeeps k
  intro entries hkeeps key k
  cases he : entries.get? key with
  | none =>
      simp only [releaseKey, he]
      split
      · rename_i hk
        rw [hk, he]
        rfl
      · rfl
  | some e =>
      simp only [releaseKey, he]
      by_cases hk : k = key
      · rw [if_pos hk, hk, he, Option.bind_some, released?]
        split <;> simp [Cache.get?_erase, Cache.get?_put, hkeeps]
      · rw [if_neg hk]
        split <;> simp [Cache.get?_erase, Cache.get?_put, Ne.symm hk]

/-- Whether the keys of all entries of a transaction are listed for it. -/
def Indexed (entries : StatementKey → Option RegistryEntry)
    (registered : Int → Option (List StatementKey)) : Prop :=
  ∀ key e, entries key = some e → ∀ owner ∈ e.owners, key ∈ (registered owner).getD []

/-- The entries of one map are those of another one with a transaction taken off the owners of
each; where it is no owner nothing has happened. -/
def Frees (transaction : Int) (entries entries' : StatementKey → Option RegistryEntry) : Prop :=
  ∀ key, entries' key = (entries key).bind (released? transaction) ∨
    entries' key = entries key ∧ ∀ e, entries key = some e → transaction ∉ e.owners

/-- The entries of one map are those of another one, of some of which a transaction has
been taken off the owners. -/
def Eases (transaction : Int) (entries entries' : StatementKey → Option RegistryEntry) : Prop :=
  ∀ key, entries' key = (entries key).bind (released? transaction) ∨ entries' key = entries key

instance {transaction : Int} :
    IsPreorder (StatementKey → Option RegistryEntry) (Eases transaction) where
  refl _ _ := .inr rfl
  trans entries entries' entries'' h h' key := by
    rcases h' key with hkey' | hkey' <;> rcases h key with hkey | hkey <;> rw [hkey', hkey]
    · exact .inl (released?_bind_released? _)
    · exact .inl rfl
    · exact .inl rfl
    · exact .inr rfl

section

variable {entries entries' : StatementKey → Option RegistryEntry}
  {registered registered' : Int → Option (List StatementKey)} {key : StatementKey}
  {transaction other id : Int}

/-- Whether an entry of a map has the given id and owner. -/
def HasOwner (entries : StatementKey → Option RegistryEntry)
    (key : StatementKey) (owner id : Int) :
    Prop :=
  ∃ e, entries key = some e ∧ e.statement = id ∧ owner ∈ e.owners

theorem Indexed.frees (h : Indexed entries registered)
    (hentries : ∀ k, entries' k = if k ∈ (registered transaction).getD []
      then (entries k).bind (released? transaction) else entries k) :
    Frees transaction entries entries' := by
  intro k
  rw [hentries]
  split
  · exact .inl rfl
  · rename_i hk
    exact .inr ⟨rfl, fun e he howner => hk (h k e he _ howner)⟩

namespace Eases

theorem exists_entry (h : Eases transaction entries entries') {e' : RegistryEntry}
    (he' : entries' key = some e') :
    ∃ e, entries key = some e ∧ (e.released? transaction = some e' ∨ e = e') := by
  rcases h key with hkey | hkey <;> rw [hkey] at he'
  · obtain ⟨e, he, hleft⟩ := Option.bind_eq_some_iff.mp he'
    exact ⟨e, he, .inl hleft⟩
  · exact ⟨e', he', .inr rfl⟩

theorem hasOwner_iff (h : Eases transaction entries entries') (hne : other ≠ transaction) :
    HasOwner entries' key other id ↔ HasOwner entries key other id := by
  constructor
  · rintro ⟨e', he', rfl, hother⟩
    obtain ⟨e, he, hleft | rfl⟩ := h.exists_entry he'
    · obtain ⟨rfl, -⟩ := released?_eq_some_iff.mp hleft
      exact ⟨e, he, rfl, (mem_owners_release_iff.mp hother).1⟩
    · exact ⟨e, he, rfl, hother⟩
  · rintro ⟨e, he, rfl, hother⟩
    rcases h key with hkey | hkey
    · refine ⟨e.release transaction, ?_, rfl, mem_owners_release_iff.mpr ⟨hother, hne⟩⟩
      rw [hkey, he, Option.bind_some]
      exact released?_eq_some_iff.mpr ⟨rfl, other, hother, hne⟩
    · exact ⟨e, hkey.trans he, rfl, hother⟩

end Eases

namespace Frees

theorem hasOwner_iff (h : Frees transaction entries entries') :
    HasOwner entries' key other id ↔ HasOwner entries key other id ∧ other ≠ transaction := by
  unfold HasOwner
  rcases h key with hkey | ⟨hkey, hnone⟩ <;> rw [hkey]
  · constructor
    · rintro ⟨e', he', rfl, hother⟩
      obtain ⟨e, he, he'⟩ := Option.bind_eq_some_iff.mp he'
      obtain ⟨rfl, -⟩ := released?_eq_some_iff.mp he'
      obtain ⟨hother, hne⟩ := mem_owners_release_iff.mp hother
      exact ⟨⟨e, he, rfl, hother⟩, hne⟩
    · rintro ⟨⟨e, he, rfl, hother⟩, hne⟩
      refine ⟨e.release transaction, ?_, rfl, mem_owners_release_iff.mpr ⟨hother, hne⟩⟩
      rw [he, Option.bind_some]
      exact released?_eq_some_iff.mpr ⟨rfl, other, hother, hne⟩
  · constructor
    · rintro ⟨e, he, hid, hother⟩
      refine ⟨⟨e, he, hid, hother⟩, ?_⟩
      rintro rfl
      exact hnone e he hother
    · exact fun h => h.1

theorem indexed (h : Frees transaction entries entries') (hindexed : Indexed entries registered)
    (hregistered : ∀ owner, owner ≠ transaction → registered' owner = registered owner) :
    Indexed entries' registered' := by
  intro key e' he' owner howner
  obtain ⟨⟨e, he, -, howner⟩, hne⟩ := h.hasOwner_iff.mp ⟨e', he', rfl, howner⟩
  rw [hregistered owner hne]
  exact hindexed key e he owner howner

end Frees

theorem Indexed.register (h : Indexed entries registered)
    (hkey : entries' key = some (RegistryEntry.registered transaction id (entries key)))
    (hothers : ∀ k, k ≠ key → entries' k = entries k)
    (hlisted : key ∈ (registered' transaction).getD [])
    (hregistered : ∀ owner k, k ∈ (registered owner).getD [] → k ∈ (registered' owner).getD []) :
    Indexed entries' registered' := by
  intro k e' he' owner howner
  by_cases hk : k = key
  · subst hk
    obtain rfl := Option.some.inj (hkey.symm.trans he')
    rcases mem_owners_registered_iff.mp howner with rfl | ⟨e, he, howner⟩
    · exact hlisted
    · exact hregistered _ _ (h k e he owner howner)
  · rw [hothers k hk] at he'
    exact hregistered _ _ (h k e' he' owner howner)

theorem Indexed.of_some (h : Indexed entries registered)
    (hsome : ∀ k e, entries' k = some e → entries k = some e) : Indexed entries' registered :=
  fun k e he => h k e (hsome k e he)

end

namespace InternalRegistry

variable {r : InternalRegistry}

theorem get?_register (r : InternalRegistry) (key : StatementKey) (transaction id : Int) :
    (r.register key transaction id).entries.get? key =
        some (RegistryEntry.registered transaction id (r.entries.get? key)) ∧
      ∀ k, k ≠ key → (r.register key transaction id).entries.get? k = r.entries.get? k := by
  constructor
  · simp only [register, Dict.get?_insert, if_true]
    rfl
  · intro k hk
    simp only [register, Dict.get?_insert, if_neg (Ne.symm hk)]

theorem indexed_register (h : QuadStore.Indexed r.entries.get? r.registered.get?)
    (key : StatementKey) (transaction id : Int) :
    QuadStore.Indexed (r.register key transaction id).entries.get?
      (r.register key transaction id).registered.get? := by
  obtain ⟨hkey, hothers⟩ := r.get?_register key transaction id
  apply h.register hkey hothers
  · simp [register, Dict.get?_insert, mem_addOnce_iff]
  · intro owner k hk
    simp only [register, Dict.get?_insert]
    split
    · rename_i howner
      subst howner
      exact mem_addOnce_iff.mpr (.inl hk)
    · exact hk

theorem eases_release (r : InternalRegistry) (transaction : Int) :
    Eases transaction r.entries.get? (r.release transaction).entries.get? := by
  intro k
  -- Nothing is known of the list of keys: a key that it misses keeps its entry.
  have hkey := get?_foldl_releaseKey transaction
    ((r.registered.get? transaction).getD []) r.entries k
  split at hkey
  · exact .inl hkey
  · exact .inr hkey

theorem frees_release (h : QuadStore.Indexed r.entries.get? r.registered.get?)
    (transaction : Int) :
    Frees transaction r.entries.get? (r.release transaction).entries.get? :=
  h.frees fun k => get?_foldl_releaseKey transaction _ r.entries k

end InternalRegistry

/-- Whether a registry in caches finds what a transaction has registered. Either entries are not
kept and there are none, or both caches keep what is put into them. -/
inductive CachedRegistry.Indexed (r : CachedRegistry) : Prop
  | unkept (hkeeps : r.entries.keeps = false) (hempty : r.entries.entries = [])
  | kept (hentries : r.entries.keeps = true) (hregistered : r.registered.keeps = true)
      (hindexed : QuadStore.Indexed r.entries.get? r.registered.get?)

namespace CachedRegistry

variable {r : CachedRegistry}

theorem eases_releaseKey (transaction : Int) (entries : Cache StatementKey RegistryEntry)
    (key : StatementKey) :
    Eases transaction entries.get? (releaseKey transaction entries key).get? := by
  intro k
  cases he : entries.get? key with
  | none => exact .inr (by simp only [releaseKey, he])
  | some e =>
      by_cases hk : k = key
      · subst hk
        rw [he, Option.bind_some, released?]
        simp only [releaseKey, he]
        split
        · exact .inl (by rw [Cache.get?_erase, if_pos rfl])
        · rw [Cache.get?_put]
          split
          · exact .inl rfl
          · exact .inr he
      · right
        simp only [releaseKey, he]
        split
        · rw [Cache.get?_erase, if_neg (Ne.symm hk)]
        · rw [Cache.get?_put, if_neg fun heq => hk heq.1.symm]

theorem eases_release (r : CachedRegistry) (transaction : Int) :
    Eases transaction r.entries.get? (r.release transaction).entries.get? := by
  have eases_foldl : ∀ (keys : List StatementKey) (entries : Cache StatementKey RegistryEntry),
      Eases transaction entries.get? (keys.foldl (releaseKey transaction) entries).get? := by
    intro keys
    induction keys with
    | nil => exact fun _ => refl _
    | cons key rest ih =>
        exact fun entries => IsTrans.trans _ _ _ (eases_releaseKey transaction entries key) (ih _)
  unfold release
  split
  · exact eases_foldl _ _
  · exact refl _

theorem get?_register (h : r.entries.keeps = true) (key : StatementKey) (transaction id : Int) :
    (r.register key transaction id).entries.keeps = true ∧
      (r.register key transaction id).entries.get? key =
          some (RegistryEntry.registered transaction id (r.entries.get? key)) ∧
        ∀ k, k ≠ key → (r.register key transaction id).entries.get? k = r.entries.get? k := by
  refine ⟨?_, ?_, fun k hk => ?_⟩
  · simp only [register, Cache.put, h, if_true]
  · simp only [register, Cache.get?_put, h, and_true, if_true]
    rfl
  · simp only [register, Cache.get?_put, h, and_true, if_neg (Ne.symm hk)]

theorem register_of_unkept (h : r.entries.keeps = false) (key : StatementKey)
    (transaction id : Int) : (r.register key transaction id).entries = r.entries := by
  simp only [register, Cache.put, h, Bool.false_eq_true, if_false]

theorem release_of_unkept (h : r.entries.entries = []) (transaction : Int) :
    (r.release transaction).entries = r.entries := by
  have foldl_eq : ∀ keys : List StatementKey,
      keys.foldl (releaseKey transaction) r.entries = r.entries := by
    intro keys
    induction keys with
    | nil => rfl
    | cons key rest ih =>
        have hkey : releaseKey transaction r.entries key = r.entries := by
          simp [releaseKey, Cache.get?, h]
        rwa [List.foldl_cons, hkey]
  unfold release
  split
  · exact foldl_eq _
  · rfl

theorem Indexed.register (h : r.Indexed) (key : StatementKey) (transaction id : Int) :
    (r.register key transaction id).Indexed := by
  cases h with
  | unkept hkeeps hempty =>
      have hentries := register_of_unkept hkeeps key transaction id
      exact .unkept (by rw [hentries, hkeeps]) (by rw [hentries, hempty])
  | kept hentries hregistered hindexed =>
      obtain ⟨hkeeps, hkey, hothers⟩ := get?_register hentries key transaction id
      refine .kept hkeeps ?_ (hindexed.register hkey hothers ?_ ?_)
      · simp only [CachedRegistry.register, Cache.put, hregistered, if_true]
        split <;> simp only [hregistered]
      · simp only [CachedRegistry.register]
        split
        · assumption
        · simp [Cache.get?_put, hregistered]
      · intro owner k hk
        simp only [CachedRegistry.register]
        split
        · exact hk
        · simp only [Cache.get?_put, hregistered, and_true]
          split
          · rename_i howner
            subst howner
            exact List.mem_append_left _ hk
          · exact hk

theorem Indexed.frees_release (h : r.Indexed) (transaction : Int) :
    Frees transaction r.entries.get? (r.release transaction).entries.get? := by
  cases h with
  | unkept hkeeps hempty =>
      have get?_eq_none : ∀ k, r.entries.get? k = none := by simp [Cache.get?, hempty]
      intro k
      rw [release_of_unkept hempty, get?_eq_none]
      exact .inl rfl
  | kept hentries hregistered hindexed =>
      refine hindexed.frees fun k => ?_
      unfold release
      cases hkeys : r.registered.get? transaction with
      | none => simp
      | some keys => exact (get?_foldl_releaseKey transaction keys hentries k).2

theorem Indexed.release (h : r.Indexed) (transaction : Int) :
    (r.release transaction).Indexed := by
  have hfrees := h.frees_release transaction
  cases h with
  | unkept hkeeps hempty =>
      have hentries := release_of_unkept hempty transaction
      exact .unkept (by rw [hentries, hkeeps]) (by rw [hentries, hempty])
  | kept hentries hregistered hindexed =>
      refine .kept ?_ ?_ (hfrees.indexed hindexed fun owner hne => ?_) <;>
        unfold CachedRegistry.release <;> split
      · exact (get?_foldl_releaseKey transaction _ hentries ⟨0, 0, 0, 0⟩).1
      · exact hentries
      · exact hregistered
      · exact hregistered
      · rw [Cache.get?_erase, if_neg (Ne.symm hne)]
      · rfl

theorem Indexed.delete (h : r.Indexed) (key : StatementKey) : (r.delete key).Indexed := by
  cases h with
  | unkept hkeeps hempty =>
      exact .unkept hkeeps (by simp [CachedRegistry.delete, Cache.erase, Dict.erase, hempty])
  | kept hentries hregistered hindexed =>
      refine .kept hentries hregistered (hindexed.of_some fun k e he => ?_)
      simp only [CachedRegistry.delete, Cache.get?_erase] at he
      split at he
      · cases he
      · exact he

theorem Indexed.clear (h : r.Indexed) : r.clear.Indexed := by
  cases h with
  | unkept hkeeps hempty => exact .unkept hkeeps rfl
  | kept hentries hregistered hindexed =>
      exact .kept hentries hregistered fun k e he => by cases he

theorem entries_eq_nil {entries : Cache StatementKey RegistryEntry} (h : entries.PartOf r.entries)
    (hempty : r.entries.entries = []) : entries.entries = [] :=
  Dict.eq_nil_of_get? fun key => h.get?_eq_none (by rw [Cache.get?, hempty]; rfl)

theorem Indexed.of_entries {entries : Cache StatementKey RegistryEntry} (h : r.Indexed)
    (hpart : entries.PartOf r.entries) : { r with entries : CachedRegistry }.Indexed := by
  cases h with
  | unkept hkeeps hempty => exact .unkept (hpart.keeps.trans hkeeps) (entries_eq_nil hpart hempty)
  | kept hentries hregistered hindexed =>
      exact .kept (hpart.keeps.trans hentries) hregistered (hindexed.of_some hpart.found)

end CachedRegistry

namespace Registry

variable {r : Registry} {rows : RegistryFile} {key k : StatementKey} {transaction other id : Int}

/-- Whether a registry finds all that a transaction has registered. -/
def Indexed (r : Registry) : Prop :=
  match r with
  | .internal registry => QuadStore.Indexed registry.entries.get? registry.registered.get?
  | .cached registry _ => registry.Indexed
  | .file => True

theorem indexed_make (c : Config) : (make c).Indexed := by
  unfold make
  split
  · intro key e he
    cases he
  · cases hkeeps : (Cache.make c.cache.backend c.cache.registry :
        Cache StatementKey RegistryEntry).keeps with
    | false => exact .unkept hkeeps rfl
    | true => exact .kept hkeeps hkeeps fun key e he => by cases he
  · trivial

theorem Indexed.register (h : r.Indexed) (rows : RegistryFile) (key : StatementKey)
    (transaction id : Int) : (r.register rows key transaction id).1.Indexed := by
  cases r with
  | internal registry => exact InternalRegistry.indexed_register h key transaction id
  | cached registry known => exact CachedRegistry.Indexed.register h key transaction id
  | file => trivial

theorem Indexed.delete (h : r.Indexed) (rows : RegistryFile) (key : StatementKey) :
    (r.delete rows key).1.Indexed := by
  cases r with
  | internal registry =>
      refine QuadStore.Indexed.of_some h fun k e he => ?_
      simp only [InternalRegistry.delete, Dict.get?_erase] at he
      split at he
      · cases he
      · exact he
  | cached registry known => exact CachedRegistry.Indexed.delete h key
  | file => trivial

theorem Indexed.release (h : r.Indexed) (rows : RegistryFile) (transaction : Int) :
    (r.release rows transaction).1.Indexed := by
  cases r with
  | internal registry =>
      refine (InternalRegistry.frees_release h transaction).indexed h fun owner hne => ?_
      show (registry.registered.erase transaction).get? owner = _
      rw [Dict.get?_erase, if_neg (Ne.symm hne)]
  | cached registry known => exact CachedRegistry.Indexed.release h transaction
  | file => trivial

theorem Indexed.clearCaches (h : r.Indexed) : r.clearCaches.Indexed := by
  cases r with
  | internal registry => exact h
  | cached registry known =>
      cases known with
      | true => exact CachedRegistry.Indexed.clear h
      | false => exact h
  | file => trivial

theorem owns_release_iff_of_ne (hne : other ≠ transaction) :
    (r.release rows transaction).1.Owns (r.release rows transaction).2 key other id ↔
      r.Owns rows key other id := by
  cases r with
  | internal registry => exact (registry.eases_release transaction).hasOwner_iff hne
  | cached registry known => exact (registry.eases_release transaction).hasOwner_iff hne
  | file => exact RegistryFile.mem_release_iff.trans (and_iff_left hne)

/-- A transaction that has been released owns nothing, and the others own what they have owned. -/
theorem Indexed.owns_release_iff (h : r.Indexed) :
    (r.release rows transaction).1.Owns (r.release rows transaction).2 key other id ↔
      r.Owns rows key other id ∧ other ≠ transaction := by
  cases r with
  | internal registry => exact (InternalRegistry.frees_release h transaction).hasOwner_iff
  | cached registry known =>
      exact (CachedRegistry.Indexed.frees_release h transaction).hasOwner_iff
  | file => exact RegistryFile.mem_release_iff

/-! What stays so whatever is done to a registry -/

/-- What a registry becomes by ids being registered and keys being dropped. -/
inductive Edits (r : Registry) : Registry → Prop
  | refl : Edits r r
  | register {r' : Registry} (h : Edits r r') (rows : RegistryFile) (key : StatementKey)
      (transaction id : Int) : Edits r (r'.register rows key transaction id).1
  | delete {r' : Registry} (h : Edits r r') (rows : RegistryFile) (key : StatementKey) :
      Edits r (r'.delete rows key).1

instance : IsPreorder Registry Edits where
  refl _ := .refl
  trans r r' r'' h h' := by
    induction h' with
    | refl => exact h
    | register _ rows key transaction id ih => exact ih.register rows key transaction id
    | delete _ rows key ih => exact ih.delete rows key

/-- Whether a property of registries survives all that is done to them,
and the loss of entries. -/
structure Stable (P : Registry → Prop) : Prop where
  register : ∀ {r}, P r → ∀ rows key transaction id, P (r.register rows key transaction id).1
  delete : ∀ {r}, P r → ∀ rows key, P (r.delete rows key).1
  release : ∀ {r}, P r → ∀ rows transaction, P (r.release rows transaction).1
  clearCaches : ∀ {r}, P r → P r.clearCaches
  entries : ∀ {r : CachedRegistry} {known : Bool} {entries : Cache StatementKey RegistryEntry},
    P (.cached r known) → entries.PartOf r.entries → P (.cached { r with entries } known)

/-- Whether a property of registries survives the loss of lists of keys. -/
def Unlisted (P : Registry → Prop) : Prop :=
  ∀ {r : CachedRegistry} {known : Bool} {registered : Cache Int (List StatementKey)},
    P (.cached r known) → registered.PartOf r.registered → P (.cached { r with registered } known)

variable {P : Registry → Prop} {r' : Registry}

theorem Edits.stable (h : r.Edits r') (hP : Stable P) (hr : P r) : P r' := by
  induction h with
  | refl => exact hr
  | register _ rows key transaction id ih => exact hP.register ih rows key transaction id
  | delete _ rows key ih => exact hP.delete ih rows key

theorem stable_indexed : Stable Indexed :=
  ⟨Indexed.register, Indexed.delete, Indexed.release, Indexed.clearCaches,
    CachedRegistry.Indexed.of_entries⟩

/-- Whether a registry keeps nothing that is registered, since its caches keep nothing. -/
def Forgets (r : Registry) : Prop :=
  match r with
  | .cached registry _ => registry.entries.keeps = false ∧ registry.entries.entries = []
  | _ => False

theorem Forgets.lookup?_eq (h : r.Forgets) : r.lookup? rows key = none := by
  cases r with
  | cached registry known =>
      show (registry.entries.get? key).map RegistryEntry.statement = none
      rw [Cache.get?, h.2]
      rfl
  | _ => exact h.elim

theorem stable_forgets : Stable Forgets where
  register {r} h rows key transaction id := by
    cases r with
    | cached registry known =>
        have hsame := CachedRegistry.register_of_unkept h.1 key transaction id
        exact ⟨hsame ▸ h.1, hsame ▸ h.2⟩
    | _ => exact h.elim
  delete {r} h rows key := by
    cases r with
    | cached registry known =>
        refine ⟨h.1, ?_⟩
        show registry.entries.entries.erase key = []
        rw [h.2]
        rfl
    | _ => exact h.elim
  release {r} h rows transaction := by
    cases r with
    | cached registry known =>
        have hsame := CachedRegistry.release_of_unkept h.2 transaction
        exact ⟨hsame ▸ h.1, hsame ▸ h.2⟩
    | _ => exact h.elim
  clearCaches {r} h := by
    cases r with
    | cached registry known =>
        cases known with
        | true => exact ⟨h.1, rfl⟩
        | false => exact h
    | _ => exact h.elim
  entries h hpart := ⟨hpart.keeps.trans h.1, CachedRegistry.entries_eq_nil hpart h.2⟩

theorem reliable_or_forgets (c : Config) : (make c).Reliable [] ∨ (make c).Forgets := by
  unfold make
  split
  · exact .inl trivial
  · cases hkeeps : (Cache.make c.cache.backend c.cache.registry :
        Cache StatementKey RegistryEntry).keeps with
    | true => exact .inl hkeeps
    | false => exact .inr ⟨hkeeps, rfl⟩
  · exact .inl nofun

end Registry
end QuadStore
