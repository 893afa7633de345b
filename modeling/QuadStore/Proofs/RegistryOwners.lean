import Mathlib.Order.Defs.Unbundled
import QuadStore.Registry

namespace QuadStore

namespace RegistryEntry

variable {e : RegistryEntry} {transaction other id : Int}

theorem mem_owners_register : transaction ∈ (e.register transaction id).owners := by
  unfold register addOnce
  dsimp only
  split
  · assumption
  · simp

theorem mem_owners_register_of_mem (h : other ∈ e.owners) :
    other ∈ (e.register transaction id).owners := by
  unfold register addOnce
  dsimp only
  split
  · exact h
  · exact List.mem_append_left _ h

theorem mem_owners_release (h : other ∈ e.owners) (hne : other ≠ transaction) :
    other ∈ (e.release transaction).owners := by
  simp [release, h, hne]

end RegistryEntry

/-- The entries of one map are those of another one after a transaction has
given some of them up. -/
def Releases (transaction : Int)
    (entries entries' : StatementKey → Option RegistryEntry) : Prop :=
  ∀ key,
    (∀ e', entries' key = some e' → ∃ e, entries key = some e ∧ e.statement = e'.statement) ∧
      ∀ e, entries key = some e → ∀ other ∈ e.owners, other ≠ transaction →
        ∃ e', entries' key = some e' ∧ e'.statement = e.statement ∧ other ∈ e'.owners

namespace Releases

variable {transaction : Int} {entries entries' : StatementKey → Option RegistryEntry}

instance : IsPreorder (StatementKey → Option RegistryEntry) (Releases transaction) where
  refl entries key := ⟨fun e he => ⟨e, he, rfl⟩, fun e he other hother _ => ⟨e, he, rfl, hother⟩⟩
  trans entries entries' entries'' h h' key := by
    constructor
    · intro e'' he''
      obtain ⟨e', he', hid'⟩ := (h' key).1 e'' he''
      obtain ⟨e, he, hid⟩ := (h key).1 e' he'
      exact ⟨e, he, hid.trans hid'⟩
    · intro e he other hother hne
      obtain ⟨e', he', hid', hother'⟩ := (h key).2 e he other hother hne
      obtain ⟨e'', he'', hid'', hother''⟩ := (h' key).2 e' he' other hother' hne
      exact ⟨e'', he'', hid''.trans hid', hother''⟩

theorem of_key {key : StatementKey} {e : RegistryEntry} (he : entries key = some e)
    (hkey : entries' key =
      if (e.release transaction).owners.isEmpty then none else some (e.release transaction))
    (hothers : ∀ k, k ≠ key → entries' k = entries k) :
    Releases transaction entries entries' := by
  intro k
  by_cases hk : k = key
  · subst hk
    constructor
    · intro e' he'
      rw [hkey] at he'
      split at he'
      · cases he'
      · obtain rfl := Option.some.inj he'
        exact ⟨e, he, rfl⟩
    · intro f hf other hother hne
      obtain rfl : e = f := Option.some.inj (he.symm.trans hf)
      have hkept := RegistryEntry.mem_owners_release hother hne
      rw [hkey, if_neg]
      · exact ⟨_, rfl, rfl, hkept⟩
      · intro hempty
        rw [List.isEmpty_iff.mp hempty] at hkept
        cases hkept
  · rw [hothers k hk]
    exact (refl entries : Releases transaction entries entries) k

end Releases

/-- The entries of one map are those of another one after an id has been registered for a key. -/
structure Enters (key : StatementKey) (transaction id : Int)
    (entries entries' : StatementKey → Option RegistryEntry) : Prop where
  entry : ∃ e, entries' key = some e ∧ e.statement = id ∧ transaction ∈ e.owners ∧
    ∀ f, entries key = some f → ∀ other ∈ f.owners, other ∈ e.owners
  others : ∀ k, k ≠ key → entries' k = entries k

namespace Enters

variable {key : StatementKey} {transaction id : Int}
  {entries entries' : StatementKey → Option RegistryEntry}

theorem of_register {e : RegistryEntry} (he : entries key = some e)
    (hkey : entries' key = some (e.register transaction id))
    (hothers : ∀ k, k ≠ key → entries' k = entries k) :
    Enters key transaction id entries entries' := by
  refine ⟨⟨_, hkey, rfl, RegistryEntry.mem_owners_register, fun f hf other hother => ?_⟩, hothers⟩
  obtain rfl : e = f := Option.some.inj (he.symm.trans hf)
  exact RegistryEntry.mem_owners_register_of_mem hother

theorem of_new (he : entries key = none) (hkey : entries' key = some ⟨id, [transaction]⟩)
    (hothers : ∀ k, k ≠ key → entries' k = entries k) :
    Enters key transaction id entries entries' := by
  refine ⟨⟨_, hkey, rfl, by simp, fun f hf => ?_⟩, hothers⟩
  cases he.symm.trans hf

theorem lookup (h : Enters key transaction id entries entries') (k : StatementKey) :
    (entries' k).map RegistryEntry.statement =
      if k = key then some id else (entries k).map RegistryEntry.statement := by
  split
  · rename_i hk
    obtain ⟨e, he, hid, -⟩ := h.entry
    rw [hk, he, Option.map_some, hid]
  · rw [h.others k ‹_›]

theorem owned (h : Enters key transaction id entries entries') :
    ∃ e, entries' key = some e ∧ e.statement = id ∧ transaction ∈ e.owners := by
  obtain ⟨e, he, hid, howner, -⟩ := h.entry
  exact ⟨e, he, hid, howner⟩

theorem owns (h : Enters key transaction id entries entries')
    (hid : ∀ e, entries key = some e → e.statement = id) {k : StatementKey} {t i : Int}
    (howns : ∃ e, entries k = some e ∧ e.statement = i ∧ t ∈ e.owners) :
    ∃ e, entries' k = some e ∧ e.statement = i ∧ t ∈ e.owners := by
  by_cases hk : k = key
  · obtain ⟨f, hf, rfl, ht⟩ := howns
    obtain ⟨e, he, hid', -, howners⟩ := h.entry
    subst hk
    exact ⟨e, he, hid'.trans (hid f hf).symm, howners f hf t ht⟩
  · rwa [h.others k hk]

end Enters

theorem InternalRegistry.enters_register (r : InternalRegistry) (key : StatementKey)
    (transaction id : Int) :
    Enters key transaction id r.entries.get? (r.register key transaction id).entries.get? := by
  have hothers : ∀ k, k ≠ key →
      (r.register key transaction id).entries.get? k = r.entries.get? k :=
    fun k hk => by simp only [register, Dict.get?_insert, if_neg (Ne.symm hk)]
  cases he : r.entries.get? key with
  | none => exact .of_new he (by simp only [register, he, Dict.get?_insert, if_true]) hothers
  | some e =>
      exact .of_register he (by simp only [register, he, Dict.get?_insert, if_true]) hothers

theorem CachedRegistry.enters_register {r : CachedRegistry} (hkeeps : r.entries.keeps = true)
    (key : StatementKey) (transaction id : Int) :
    Enters key transaction id r.entries.get? (r.register key transaction id).entries.get? := by
  have hothers : ∀ k, k ≠ key →
      (r.register key transaction id).entries.get? k = r.entries.get? k :=
    fun k hk => by
      simp only [register, Cache.get?_put, hkeeps, and_true, if_neg (Ne.symm hk)]
  cases he : r.entries.get? key with
  | none =>
      refine .of_new he ?_ hothers
      simp only [register, he, Cache.get?_put, hkeeps, and_true, if_true]
  | some e =>
      refine .of_register he ?_ hothers
      simp only [register, he, Cache.get?_put, hkeeps, and_true, if_true]

theorem InternalRegistry.releases_foldl (transaction : Int) (keys : List StatementKey)
    (entries : Dict StatementKey RegistryEntry) :
    Releases transaction entries.get? (keys.foldl (releaseKey transaction) entries).get? := by
  induction keys generalizing entries with
  | nil => exact refl _
  | cons key rest ih =>
      refine IsTrans.trans _ _ _ ?_ (ih (releaseKey transaction entries key))
      cases he : entries.get? key with
      | none =>
          simp only [releaseKey, he]
          exact refl _
      | some e =>
          apply Releases.of_key he
          · simp only [releaseKey, he]
            split <;> simp [Dict.get?_erase, Dict.get?_insert]
          · intro k hk
            simp only [releaseKey, he]
            split <;> simp [Dict.get?_erase, Dict.get?_insert, Ne.symm hk]

theorem CachedRegistry.releases_foldl (transaction : Int) (keys : List StatementKey)
    {entries : Cache StatementKey RegistryEntry} (hkeeps : entries.keeps = true) :
    (keys.foldl (releaseKey transaction) entries).keeps = true ∧
      Releases transaction entries.get? (keys.foldl (releaseKey transaction) entries).get? := by
  induction keys generalizing entries with
  | nil => exact ⟨hkeeps, refl _⟩
  | cons key rest ih =>
      have hkeeps' : (releaseKey transaction entries key).keeps = true := by
        unfold releaseKey
        split
        · split
          · exact hkeeps
          · simp only [Cache.put, hkeeps, if_true]
        · exact hkeeps
      obtain ⟨hrest, hreleases⟩ := ih hkeeps'
      refine ⟨hrest, IsTrans.trans _ _ _ ?_ hreleases⟩
      cases he : entries.get? key with
      | none =>
          simp only [releaseKey, he]
          exact refl _
      | some e =>
          apply Releases.of_key he
          · simp only [releaseKey, he]
            split <;> simp [Cache.get?_erase, Cache.get?_put, hkeeps]
          · intro k hk
            simp only [releaseKey, he]
            split <;> simp [Cache.get?_erase, Cache.get?_put, Ne.symm hk]

namespace RegistryFile

/-- Whether all rows of a key have the same id. -/
def Agrees (file : RegistryFile) : Prop :=
  ∀ row ∈ file, ∀ row' ∈ file, row.key = row'.key → row.statement = row'.statement

theorem foldl_first_mem (row : RegistryRow) (rest : List RegistryRow) :
    rest.foldl (fun first row => if row.transaction < first.transaction then row else first) row ∈
      row :: rest := by
  induction rest generalizing row with
  | nil => exact List.mem_cons_self
  | cons next rest ih =>
      rw [List.foldl_cons]
      split
      · exact List.mem_cons_of_mem _ (ih next)
      · rcases List.mem_cons.mp (ih row) with hsame | hmem
        · rw [hsame]
          exact List.mem_cons_self
        · exact List.mem_cons_of_mem _ (List.mem_cons_of_mem _ hmem)

theorem lookup?_eq_some_iff {file : RegistryFile} (h : file.Agrees)
    {key : StatementKey} {id : Int} :
    file.lookup? key = some id ↔ ∃ transaction, ⟨key, transaction, id⟩ ∈ file := by
  unfold lookup?
  have mem_rows : ∀ {row}, row ∈ file.filter (fun row => row.key = key) ↔
      row ∈ file ∧ row.key = key := by simp
  cases hrows : file.filter fun row => row.key = key with
  | nil =>
      simp only [reduceCtorEq, false_iff, not_exists]
      intro transaction hmem
      have hrow := mem_rows.mpr ⟨hmem, rfl⟩
      rw [hrows] at hrow
      cases hrow
  | cons row rest =>
      rw [hrows] at mem_rows
      have hfound := foldl_first_mem row rest
      obtain ⟨hfile, hkey⟩ := mem_rows.mp hfound
      simp only [Option.some.injEq]
      constructor
      · rintro rfl
        rw [← hkey]
        exact ⟨_, hfile⟩
      · rintro ⟨transaction, hmem⟩
        exact h _ hfile _ hmem hkey

theorem mem_register_iff {file : RegistryFile} {key : StatementKey} {transaction id : Int}
    {row : RegistryRow} : row ∈ file.register key transaction id ↔
      row ∈ file ∧ ¬(row.key = key ∧ row.transaction = transaction) ∨
        row = ⟨key, transaction, id⟩ := by
  rw [register, List.mem_append, List.mem_filter, List.mem_singleton, decide_eq_true_iff]

theorem mem_release_iff {file : RegistryFile} {transaction : Int} {row : RegistryRow} :
    row ∈ file.release transaction ↔ row ∈ file ∧ row.transaction ≠ transaction := by
  simp [release]

theorem Agrees.statement_eq {file : RegistryFile} (h : file.Agrees)
    {key : StatementKey} {id : Int}
    (hid : ∀ i, file.lookup? key = some i → i = id) {row : RegistryRow} (hrow : row ∈ file)
    (hkey : row.key = key) : row.statement = id := by
  obtain ⟨k, t, i⟩ := row
  subst hkey
  exact hid i ((lookup?_eq_some_iff h).mpr ⟨t, hrow⟩)

theorem Agrees.register {file : RegistryFile} (h : file.Agrees) {key : StatementKey}
    {id : Int} (hid : ∀ i, file.lookup? key = some i → i = id) (transaction : Int) :
    (file.register key transaction id).Agrees := by
  intro row hrow row' hrow' hkey
  rcases mem_register_iff.mp hrow with ⟨hold, -⟩ | rfl <;>
    rcases mem_register_iff.mp hrow' with ⟨hold', -⟩ | rfl
  · exact h row hold row' hold' hkey
  · exact h.statement_eq hid hold hkey
  · exact (h.statement_eq hid hold' hkey.symm).symm
  · rfl

theorem lookup?_register {file : RegistryFile} (h : file.Agrees) {key : StatementKey} {id : Int}
    (hid : ∀ i, file.lookup? key = some i → i = id) (transaction : Int) (k : StatementKey) :
    (file.register key transaction id).lookup? k = if k =
      key then some id else file.lookup? k := by
  have hagrees := h.register hid transaction
  by_cases hk : k = key
  · rw [if_pos hk, hk, lookup?_eq_some_iff hagrees]
    exact ⟨transaction, mem_register_iff.mpr (.inr rfl)⟩
  · rw [if_neg hk]
    apply Option.ext
    intro i
    rw [lookup?_eq_some_iff hagrees, lookup?_eq_some_iff h]
    simp [mem_register_iff, hk]

end RegistryFile

namespace Registry

variable {r : Registry} {rows : RegistryFile} {key other : StatementKey}
  {transaction another id id' : Int}

/-- Whether an id is registered for a key on behalf of a transaction. -/
def Owns (r : Registry) (rows : RegistryFile) (key : StatementKey)
    (transaction id : Int) : Prop :=
  match r with
  | .internal registry =>
      ∃ e, registry.entries.get? key = some e ∧ e.statement = id ∧ transaction ∈ e.owners
  | .cached registry _ =>
      ∃ e, registry.entries.get? key = some e ∧ e.statement = id ∧ transaction ∈ e.owners
  | .file => ⟨key, transaction, id⟩ ∈ rows

/-- Whether a registry keeps what is put into it and has one id for each key. -/
def Reliable (r : Registry) (rows : RegistryFile) : Prop :=
  match r with
  | .internal _ => True
  | .cached registry _ => registry.entries.keeps = true
  | .file => rows.Agrees

theorem lookup?_of_owns (hr : r.Reliable rows) (h : r.Owns rows key transaction id) :
    r.lookup? rows key = some id := by
  cases r with
  | internal registry =>
      obtain ⟨e, he, rfl, -⟩ := h
      show (registry.entries.get? key).map RegistryEntry.statement = _
      rw [he]
      rfl
  | cached registry known =>
      obtain ⟨e, he, rfl, -⟩ := h
      show (registry.entries.get? key).map RegistryEntry.statement = _
      rw [he]
      rfl
  | file => exact (RegistryFile.lookup?_eq_some_iff hr).mpr ⟨transaction, h⟩

/-- A registry that has just been made is empty. -/
theorem lookup?_make (c : Config) : (make c).lookup? [] key = none := by
  unfold make
  split <;> rfl

theorem reliable_make {c : Config}
    (hc : c.registry = .cache → c.cache.backend = .internal ∧ c.cache.registry.maxEntries ≠ 0) :
    (make c).Reliable [] := by
  unfold make
  split
  · trivial
  · obtain ⟨hbackend, hentries⟩ := hc ‹_›
    show (Cache.make c.cache.backend c.cache.registry : Cache StatementKey RegistryEntry).keeps =
      true
    simp [Cache.make, hbackend, hentries]
  · intro row hrow
    cases hrow

/-- What registering an id does, unless another one is registered for the key. -/
structure Registers (r : Registry) (rows : RegistryFile)
    (key : StatementKey) (transaction id : Int)
    (r' : Registry) (rows' : RegistryFile) : Prop where
  reliable : r'.Reliable rows'
  lookup : ∀ k, r'.lookup? rows' k = if k = key then some id else r.lookup? rows k
  owned : r'.Owns rows' key transaction id
  owns : ∀ k t i, r.Owns rows k t i → r'.Owns rows' k t i

theorem registers (hr : r.Reliable rows) (hid : ∀ i, r.lookup? rows key = some i → i = id) :
    Registers r rows key transaction id (r.register rows key transaction id).1
      (r.register rows key transaction id).2 := by
  cases r with
  | internal registry =>
      have henters := registry.enters_register key transaction id
      have hentry : ∀ e, registry.entries.get? key = some e → e.statement = id := fun e he =>
        hid _ (by rw [Registry.lookup?, InternalRegistry.lookup?, he]; rfl)
      exact ⟨trivial, henters.lookup, henters.owned, fun _ _ _ => henters.owns hentry⟩
  | cached registry known =>
      have hkeeps : registry.entries.keeps = true := hr
      have henters := CachedRegistry.enters_register hkeeps key transaction id
      have hentry : ∀ e, registry.entries.get? key = some e → e.statement = id := fun e he =>
        hid _ (by rw [Registry.lookup?, CachedRegistry.lookup?, he]; rfl)
      refine ⟨?_, henters.lookup, henters.owned, fun _ _ _ => henters.owns hentry⟩
      simp only [Registry.register, Reliable, CachedRegistry.register, Cache.put, hkeeps, if_true]
  | file =>
      refine ⟨RegistryFile.Agrees.register hr hid transaction,
        RegistryFile.lookup?_register hr hid transaction,
        RegistryFile.mem_register_iff.mpr (.inr rfl), fun k t i h => ?_⟩
      have hold : (⟨k, t, i⟩ : RegistryRow) ∈ rows := h
      apply RegistryFile.mem_register_iff.mpr
      by_cases hsame : k = key ∧ t = transaction
      · obtain ⟨rfl, rfl⟩ := hsame
        obtain rfl : i = id := RegistryFile.Agrees.statement_eq hr hid hold rfl
        exact .inr rfl
      · exact .inl ⟨hold, hsame⟩

/-- What releasing a transaction does: nothing new is registered, and what other
transactions own is kept. -/
structure Released (r : Registry) (rows : RegistryFile) (transaction : Int) (r' : Registry)
    (rows' : RegistryFile) : Prop where
  reliable : r'.Reliable rows'
  lookup : ∀ k i, r'.lookup? rows' k = some i → r.lookup? rows k = some i
  owns : ∀ k t i, t ≠ transaction → r.Owns rows k t i → r'.Owns rows' k t i

theorem Released.of_releases {entries entries' : StatementKey → Option RegistryEntry}
    (h : Releases transaction entries entries') :
    (∀ k i, (entries' k).map RegistryEntry.statement = some i →
        (entries k).map RegistryEntry.statement = some i) ∧
      ∀ k t i, t ≠ transaction → (∃ e, entries k = some e ∧ e.statement = i ∧ t ∈ e.owners) →
        ∃ e, entries' k = some e ∧ e.statement = i ∧ t ∈ e.owners := by
  constructor
  · intro k i hi
    obtain ⟨e', he', rfl⟩ := Option.map_eq_some_iff.mp hi
    obtain ⟨e, he, hid⟩ := (h k).1 e' he'
    rw [he, Option.map_some, hid]
  · rintro k t i ht ⟨e, he, rfl, howner⟩
    exact (h k).2 e he t howner ht

theorem released (hr : r.Reliable rows) (transaction : Int) :
    Released r rows transaction (r.release rows transaction).1
      (r.release rows transaction).2 := by
  cases r with
  | internal registry =>
      obtain ⟨hlookup, howns⟩ := Released.of_releases
        (InternalRegistry.releases_foldl transaction
          ((registry.registered.get? transaction).getD []) registry.entries)
      exact ⟨trivial, hlookup, howns⟩
  | cached registry known =>
      have hkeeps : registry.entries.keeps = true := hr
      cases hkeys : registry.registered.get? transaction with
      | none =>
          simp only [Registry.release, CachedRegistry.release, hkeys]
          exact ⟨hkeeps, fun _ _ h => h, fun _ _ _ _ h => h⟩
      | some keys =>
          simp only [Registry.release, CachedRegistry.release, hkeys]
          obtain ⟨hkept, hreleases⟩ := CachedRegistry.releases_foldl transaction keys hkeeps
          obtain ⟨hlookup, howns⟩ := Released.of_releases hreleases
          exact ⟨hkept, hlookup, howns⟩
  | file =>
      have hagrees : (rows.release transaction).Agrees := fun row hrow row' hrow' =>
        hr row (RegistryFile.mem_release_iff.mp hrow).1 row'
          (RegistryFile.mem_release_iff.mp hrow').1
      refine ⟨hagrees, fun k i h => ?_,
        fun k t i ht h => RegistryFile.mem_release_iff.mpr ⟨h, ht⟩⟩
      obtain ⟨t, ht⟩ := (RegistryFile.lookup?_eq_some_iff hagrees).mp h
      exact (RegistryFile.lookup?_eq_some_iff hr).mpr ⟨t, (RegistryFile.mem_release_iff.mp ht).1⟩

/-- What deleting a key does: it is not registered any more, and the other ones are kept. -/
structure Deleted (r : Registry) (rows : RegistryFile) (key : StatementKey) (r' : Registry)
    (rows' : RegistryFile) : Prop where
  reliable : r'.Reliable rows'
  lookup : ∀ k, r'.lookup? rows' k = if key = k then none else r.lookup? rows k
  owns : ∀ k t i, key ≠ k → r.Owns rows k t i → r'.Owns rows' k t i

theorem deleted (hr : r.Reliable rows) (key : StatementKey) :
    Deleted r rows key (r.delete rows key).1 (r.delete rows key).2 := by
  cases r with
  | internal registry =>
      refine ⟨trivial, fun k => ?_, fun k t i hk howns => ?_⟩
      · show ((registry.entries.erase key).get? k).map RegistryEntry.statement = _
        rw [Dict.get?_erase]
        split <;> rfl
      · show ∃ e, (registry.entries.erase key).get? k = some e ∧ _
        rwa [Dict.get?_erase, if_neg hk]
  | cached registry known =>
      refine ⟨hr, fun k => ?_, fun k t i hk howns => ?_⟩
      · show ((registry.entries.erase key).get? k).map RegistryEntry.statement = _
        rw [Cache.get?_erase]
        split <;> rfl
      · show ∃ e, (registry.entries.erase key).get? k = some e ∧ _
        rwa [Cache.get?_erase, if_neg hk]
  | file =>
      have hmem : ∀ {row}, row ∈ rows.delete key ↔ row ∈ rows ∧ row.key ≠ key := by
        simp [RegistryFile.delete]
      have hagrees : (rows.delete key).Agrees := fun row hrow row' hrow' =>
        hr row (hmem.mp hrow).1 row' (hmem.mp hrow').1
      refine ⟨hagrees, fun k => ?_, fun k t i hk howns => hmem.mpr ⟨howns, Ne.symm hk⟩⟩
      apply Option.ext
      intro i
      show (rows.delete key).lookup? k = some i ↔
        (if key = k then none else rows.lookup? k) = some i
      rw [RegistryFile.lookup?_eq_some_iff hagrees]
      split
      · rename_i hk
        subst hk
        simp [hmem]
      · rename_i hk
        rw [RegistryFile.lookup?_eq_some_iff hr]
        simp [hmem, Ne.symm hk]

end Registry
end QuadStore
