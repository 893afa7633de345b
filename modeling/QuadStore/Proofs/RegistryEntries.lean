import QuadStore.Proofs.Registrations

namespace QuadStore

theorem nodup_addOnce {α : Type} [DecidableEq α] {xs : List α} {x : α} (h : xs.Nodup) :
    (addOnce xs x).Nodup := by
  unfold addOnce
  split
  · exact h
  · rename_i hnew
    exact List.nodup_append.mpr ⟨h, List.nodup_singleton x, fun y hy z hz =>
      List.mem_singleton.mp hz ▸ fun hyx => hnew (hyx ▸ hy)⟩

namespace RegistryFile

variable {file : RegistryFile} {key k : StatementKey} {transaction id : Int}

/-- The transactions that have rows for a key. -/
def owners (file : RegistryFile) (key : StatementKey) : List Int :=
  (file.filter fun row => row.key = key).map RegistryRow.transaction

theorem mem_owners_iff : transaction ∈ file.owners key ↔ ∃ id, ⟨key, transaction, id⟩ ∈ file := by
  simp only [owners, List.mem_map, List.mem_filter, decide_eq_true_iff]
  constructor
  · rintro ⟨⟨k, t, id⟩, ⟨hrow, rfl⟩, rfl⟩
    exact ⟨id, hrow⟩
  · rintro ⟨id, hrow⟩
    exact ⟨_, ⟨hrow, rfl⟩, rfl⟩

theorem nodup_owners_filter {p : RegistryRow → Bool} (h : (file.owners key).Nodup) :
    (owners (file.filter p) key).Nodup := by
  refine h.sublist ?_
  unfold owners
  exact (List.filter_sublist.filter _).map _

theorem nodup_owners_register (h : (file.owners k).Nodup) :
    (owners (file.register key transaction id) k).Nodup := by
  have happend : owners (file.register key transaction id) k =
      owners (file.filter fun row => ¬(row.key = key ∧ row.transaction = transaction)) k ++
        owners [⟨key, transaction, id⟩] k := by
    rw [register, owners, List.filter_append, List.map_append]
    rfl
  rw [happend, List.nodup_append]
  refine ⟨nodup_owners_filter h, ?_, ?_⟩
  · have hrow : [transaction].Nodup := List.nodup_singleton transaction
    exact hrow.sublist (List.filter_sublist.map RegistryRow.transaction)
  · rintro owner hold _ hnew rfl
    obtain ⟨i, hnew⟩ := mem_owners_iff.mp hnew
    obtain ⟨j, hold⟩ := mem_owners_iff.mp hold
    obtain ⟨rfl, rfl, -⟩ := RegistryRow.mk.inj (List.mem_singleton.mp hnew)
    simp at hold

end RegistryFile

namespace Registry

variable {r : Registry} {rows : RegistryFile} {key k : StatementKey} {e : RegistryEntry}
  {transaction id i : Int} {holds holds' : StatementKey → Int → Prop}

/-- Whether a registry has an entry for a key. In a file every row stands for one, which belongs
to the transactions of all rows of its key. -/
def HasEntry (r : Registry) (rows : RegistryFile) (key : StatementKey)
    (e : RegistryEntry) : Prop :=
  match r with
  | .internal registry => registry.entries.get? key = some e
  | .cached registry _ => registry.entries.get? key = some e
  | .file => ∃ row ∈ rows, row.key = key ∧ e = ⟨row.statement, rows.owners key⟩

instance : Decidable (r.HasEntry rows key e) :=
  match r with
  | .internal registry => inferInstanceAs (Decidable (registry.entries.get? key = some e))
  | .cached registry _ => inferInstanceAs (Decidable (registry.entries.get? key = some e))
  | .file =>
      inferInstanceAs (Decidable (∃ row ∈ rows, row.key = key ∧
        e = ⟨row.statement, rows.owners key⟩))

/-- Whether a registry has a list of the keys of a transaction, be they registered or not. -/
def ListsFor (r : Registry) (transaction : Int) : Prop :=
  match r with
  | .internal registry => registry.registered.get? transaction ≠ none
  | .cached registry _ => registry.registered.get? transaction ≠ none
  | .file => False

/-- Whether a registry keeps nothing: no entry, and no list of keys for any transaction. -/
def IsEmpty (r : Registry) (rows : RegistryFile) : Prop :=
  match r with
  | .internal registry => registry.entries = [] ∧ registry.registered = []
  | .cached registry _ => registry.entries.entries = [] ∧ registry.registered.entries = []
  | .file => rows = []

/-! The ids of the entries -/

/-- Whether an entry of a key carries an id. -/
def Carries (r : Registry) (rows : RegistryFile) (key : StatementKey) (id : Int) : Prop :=
  ∃ e, r.HasEntry rows key e ∧ e.statement = id

theorem carries_file_iff :
    file.Carries rows key id ↔ ∃ transaction, ⟨key, transaction, id⟩ ∈ rows := by
  constructor
  · rintro ⟨_, ⟨⟨k, t, i⟩, hrow, rfl, rfl⟩, rfl⟩
    exact ⟨t, hrow⟩
  · rintro ⟨t, hrow⟩
    exact ⟨_, ⟨_, hrow, rfl, rfl⟩, rfl⟩

theorem carries_of_lookup? (h : r.lookup? rows key = some id) : r.Carries rows key id := by
  cases r with
  | internal registry => exact Option.map_eq_some_iff.mp h
  | cached registry known => exact Option.map_eq_some_iff.mp h
  | file =>
      have hfound : rows.lookup? key = some id := h
      unfold RegistryFile.lookup? at hfound
      split at hfound
      · cases hfound
      · rename_i row rest hrows
        obtain rfl := Option.some.inj hfound
        have hmem := RegistryFile.foldl_first_mem row rest
        rw [← hrows, List.mem_filter, decide_eq_true_iff] at hmem
        exact ⟨_, ⟨_, hmem.1, hmem.2, rfl⟩, rfl⟩

theorem statement_of_registered {entries entries' : StatementKey → Option RegistryEntry}
    (hkey : entries' key = some (RegistryEntry.registered transaction id (entries key)))
    (hothers : ∀ k, k ≠ key → entries' k = entries k) (h : entries' k = some e) :
    entries k = some e ∨ k = key ∧ e.statement = id := by
  by_cases hk : k = key
  · subst hk
    obtain rfl := Option.some.inj (hkey.symm.trans h)
    exact .inr ⟨rfl, RegistryEntry.statement_registered _⟩
  · exact .inl ((hothers k hk).symm.trans h)

theorem Carries.of_register (h : (r.register rows key transaction id).1.Carries
    (r.register rows key transaction id).2 k i) : r.Carries rows k i ∨ k = key ∧ i = id := by
  cases r with
  | internal registry =>
      obtain ⟨e, he, rfl⟩ := h
      obtain ⟨hkey, hothers⟩ := registry.get?_register key transaction id
      exact (statement_of_registered hkey hothers he).imp_left fun hold => ⟨e, hold, rfl⟩
  | cached registry known =>
      obtain ⟨e, he, rfl⟩ := h
      cases hkeeps : registry.entries.keeps with
      | true =>
          obtain ⟨-, hkey, hothers⟩ := CachedRegistry.get?_register hkeeps key transaction id
          exact (statement_of_registered hkey hothers he).imp_left fun hold => ⟨e, hold, rfl⟩
      | false =>
          have hsame := CachedRegistry.register_of_unkept hkeeps key transaction id
          have hold : (CachedRegistry.register registry key transaction id).entries.get? k =
            some e := he
          rw [hsame] at hold
          exact .inl ⟨e, hold, rfl⟩
  | file =>
      obtain ⟨t, hrow⟩ := carries_file_iff.mp h
      rcases RegistryFile.mem_register_iff.mp hrow with ⟨hold, -⟩ | hnew
      · exact .inl (carries_file_iff.mpr ⟨t, hold⟩)
      · obtain ⟨rfl, -, rfl⟩ := RegistryRow.mk.inj hnew
        exact .inr ⟨rfl, rfl⟩

theorem Carries.of_delete (h : (r.delete rows key).1.Carries (r.delete rows key).2 k i) :
    r.Carries rows k i ∧ k ≠ key := by
  have erased : ∀ {entries entries' : StatementKey → Option RegistryEntry},
      (∀ k, entries' k = if key = k then none else entries k) →
        ∀ {e}, entries' k = some e → entries k = some e ∧ k ≠ key := by
    intro entries entries' hentries e he
    rw [hentries] at he
    split at he
    · cases he
    · exact ⟨he, Ne.symm ‹_›⟩
  cases r with
  | internal registry =>
      obtain ⟨e, he, rfl⟩ := h
      exact (erased (Dict.get?_erase registry.entries key) he).imp_left fun hold => ⟨e, hold, rfl⟩
  | cached registry known =>
      obtain ⟨e, he, rfl⟩ := h
      exact (erased (Cache.get?_erase registry.entries key) he).imp_left fun hold =>
        ⟨e, hold, rfl⟩
  | file =>
      obtain ⟨t, hrow⟩ := carries_file_iff.mp h
      obtain ⟨hold, hkey⟩ : ⟨k, t, i⟩ ∈ rows ∧ k ≠ key := by
        simpa [delete, RegistryFile.delete] using hrow
      exact ⟨carries_file_iff.mpr ⟨t, hold⟩, hkey⟩

theorem Carries.of_release (h : (r.release rows transaction).1.Carries
    (r.release rows transaction).2 k i) : r.Carries rows k i := by
  have carried : ∀ {entries entries' : StatementKey → Option RegistryEntry} {e},
      Eases transaction entries entries' → entries' k = some e →
        ∃ e₁, entries k = some e₁ ∧ e₁.statement = e.statement := by
    intro entries entries' e heases he
    obtain ⟨e₁, he₁, hleft | rfl⟩ := heases.exists_entry he
    · obtain ⟨rfl, -⟩ := RegistryEntry.released?_eq_some_iff.mp hleft
      exact ⟨e₁, he₁, rfl⟩
    · exact ⟨e₁, he₁, rfl⟩
  cases r with
  | internal registry =>
      obtain ⟨e, he, rfl⟩ := h
      exact carried (registry.eases_release transaction) he
  | cached registry known =>
      obtain ⟨e, he, rfl⟩ := h
      exact carried (registry.eases_release transaction) he
  | file =>
      obtain ⟨t, hrow⟩ := carries_file_iff.mp h
      exact carries_file_iff.mpr ⟨t, (RegistryFile.mem_release_iff.mp hrow).1⟩

theorem Carries.of_loses {r' : Registry} (hloses : r.Loses r') (h : r'.Carries rows k i) :
    r.Carries rows k i := by
  cases hloses with
  | nothing => exact h
  | cached hentries hregistered =>
      obtain ⟨e, he, rfl⟩ := h
      exact ⟨e, hentries.found k e he, rfl⟩

theorem not_carries_make (c : Config) : ¬(make c).Carries [] key id := by
  rintro ⟨e, he, -⟩
  unfold make at he
  split at he
  · cases he
  · cases he
  · obtain ⟨row, hrow, -⟩ := he
    cases hrow

/-! The owners of the entries -/

/-- Whether all entries of a map belong to transactions that hold their
keys, to each of them once. -/
def HeldBy (holds : StatementKey → Int → Prop)
    (entries : StatementKey → Option RegistryEntry) : Prop :=
  ∀ key e, entries key = some e →
    e.owners ≠ [] ∧ e.owners.Nodup ∧ ∀ owner ∈ e.owners, holds key owner

/-- Whether all entries of a registry belong to transactions that hold their keys. -/
def Held (holds : StatementKey → Int → Prop) (r : Registry) (rows : RegistryFile) : Prop :=
  match r with
  | .internal registry => HeldBy holds registry.entries.get?
  | .cached registry _ => HeldBy holds registry.entries.get?
  | .file => ∀ key, (rows.owners key).Nodup ∧ ∀ owner ∈ rows.owners key, holds key owner

section

variable {entries entries' : StatementKey → Option RegistryEntry}

theorem HeldBy.registered (h : HeldBy holds entries) (hholds : holds key transaction)
    (hkey : entries' key = some (RegistryEntry.registered transaction id (entries key)))
    (hothers : ∀ k, k ≠ key → entries' k = entries k) : HeldBy holds entries' := by
  intro k e he
  by_cases hk : k = key
  · subst hk
    obtain rfl := Option.some.inj (hkey.symm.trans he)
    have howner : ∀ other, other ∈ (RegistryEntry.registered transaction id (entries k)).owners ↔
        other = transaction ∨ ∃ e, entries k = some e ∧ other ∈ e.owners :=
      fun _ => RegistryEntry.mem_owners_registered_iff
    refine ⟨List.ne_nil_of_mem ((howner transaction).mpr (.inl rfl)), ?_, fun other hother => ?_⟩
    · cases hold : entries k with
      | none => exact List.nodup_singleton transaction
      | some e => exact nodup_addOnce (h k e hold).2.1
    · rcases (howner other).mp hother with rfl | ⟨e, hold, hother⟩
      · exact hholds
      · exact (h k e hold).2.2 other hother
  · exact h k e ((hothers k hk).symm.trans he)

theorem HeldBy.of_some (h : HeldBy holds entries)
    (hsome : ∀ k e, entries' k = some e → entries k = some e) : HeldBy holds entries' :=
  fun k e he => h k e (hsome k e he)

theorem HeldBy.eases (h : HeldBy holds entries) (heases : Eases transaction entries entries') :
    HeldBy holds entries' := by
  intro k e' he'
  obtain ⟨e, he, hleft | rfl⟩ := heases.exists_entry he'
  · obtain ⟨rfl, other, hother, hne⟩ := RegistryEntry.released?_eq_some_iff.mp hleft
    obtain ⟨-, hnodup, howners⟩ := h k e he
    exact ⟨List.ne_nil_of_mem (RegistryEntry.mem_owners_release_iff.mpr ⟨hother, hne⟩),
      hnodup.filter _, fun owner howner =>
        howners owner (RegistryEntry.mem_owners_release_iff.mp howner).1⟩
  · exact h k e he

theorem HeldBy.frees (h : HeldBy holds entries) (hfrees : Frees transaction entries entries') :
    HeldBy (fun key owner => holds key owner ∧ owner ≠ transaction) entries' := by
  intro k e he
  rcases hfrees k with hkey | ⟨hkey, hnone⟩ <;> rw [hkey] at he
  · obtain ⟨e₁, he₁, hleft⟩ := Option.bind_eq_some_iff.mp he
    obtain ⟨rfl, other, hother, hne⟩ := RegistryEntry.released?_eq_some_iff.mp hleft
    obtain ⟨-, hnodup, howners⟩ := h k e₁ he₁
    refine ⟨List.ne_nil_of_mem (RegistryEntry.mem_owners_release_iff.mpr ⟨hother, hne⟩),
      hnodup.filter _, fun owner howner => ?_⟩
    obtain ⟨howner, hne⟩ := RegistryEntry.mem_owners_release_iff.mp howner
    exact ⟨howners owner howner, hne⟩
  · obtain ⟨hsome, hnodup, howners⟩ := h k e he
    exact ⟨hsome, hnodup, fun owner howner => ⟨howners owner howner, fun heq =>
      hnone e he (heq ▸ howner)⟩⟩

end

namespace Held

theorem owners (h : Held holds r rows) (he : r.HasEntry rows key e) :
    e.owners ≠ [] ∧ e.owners.Nodup ∧ ∀ owner ∈ e.owners, holds key owner := by
  cases r with
  | internal registry => exact h key e he
  | cached registry known => exact h key e he
  | file =>
      obtain ⟨⟨k, t, i⟩, hrow, rfl, rfl⟩ := he
      exact ⟨List.ne_nil_of_mem (RegistryFile.mem_owners_iff.mpr ⟨i, hrow⟩), h k⟩

theorem mono (h : Held holds r rows) (hmono : ∀ key owner, holds key owner → holds' key owner) :
    Held holds' r rows := by
  have map_mono : ∀ {entries}, HeldBy holds entries → HeldBy holds' entries := fun h key e he =>
    ⟨(h key e he).1, (h key e he).2.1,
      fun owner howner => hmono key owner ((h key e he).2.2 owner howner)⟩
  cases r with
  | internal registry => exact map_mono h
  | cached registry known => exact map_mono h
  | file =>
      exact fun key => ⟨(h key).1, fun owner howner => hmono key owner ((h key).2 owner howner)⟩

theorem make (c : Config) : Held holds (Registry.make c) [] := by
  unfold Registry.make
  split
  · exact fun key e he => by cases he
  · exact fun key e he => by cases he
  · exact fun key => ⟨List.nodup_nil, fun owner howner => by cases howner⟩

theorem register (h : Held holds r rows) (hholds : holds key transaction) (id : Int) :
    Held holds (r.register rows key transaction id).1 (r.register rows key transaction id).2 := by
  cases r with
  | internal registry =>
      obtain ⟨hkey, hothers⟩ := registry.get?_register key transaction id
      exact HeldBy.registered h hholds hkey hothers
  | cached registry known =>
      cases hkeeps : registry.entries.keeps with
      | true =>
          obtain ⟨-, hkey, hothers⟩ := CachedRegistry.get?_register hkeeps key transaction id
          exact HeldBy.registered h hholds hkey hothers
      | false =>
          show HeldBy holds (registry.register key transaction id).entries.get?
          rw [CachedRegistry.register_of_unkept hkeeps]
          exact h
  | file =>
      refine fun k => ⟨RegistryFile.nodup_owners_register (h k).1, fun owner howner => ?_⟩
      obtain ⟨i, hrow⟩ := RegistryFile.mem_owners_iff.mp howner
      rcases RegistryFile.mem_register_iff.mp hrow with ⟨hold, -⟩ | hnew
      · exact (h k).2 owner (RegistryFile.mem_owners_iff.mpr ⟨i, hold⟩)
      · obtain ⟨rfl, rfl, -⟩ := RegistryRow.mk.inj hnew
        exact hholds

theorem delete (h : Held holds r rows) (key : StatementKey) :
    Held holds (r.delete rows key).1 (r.delete rows key).2 := by
  have erased : ∀ {entries entries' : StatementKey → Option RegistryEntry},
      (∀ k, entries' k = if key = k then none else entries k) → HeldBy holds entries →
        HeldBy holds entries' := by
    intro entries entries' hentries hheld
    refine hheld.of_some fun k e he => ?_
    rw [hentries] at he
    split at he
    · cases he
    · exact he
  cases r with
  | internal registry => exact erased (Dict.get?_erase registry.entries key) h
  | cached registry known => exact erased (Cache.get?_erase registry.entries key) h
  | file =>
      refine fun k => ⟨RegistryFile.nodup_owners_filter (h k).1, fun owner howner => ?_⟩
      obtain ⟨i, hrow⟩ := RegistryFile.mem_owners_iff.mp howner
      exact (h k).2 owner (RegistryFile.mem_owners_iff.mpr ⟨i, (List.mem_filter.mp hrow).1⟩)

theorem eased (h : Held holds r rows) (transaction : Int) :
    Held holds (r.release rows transaction).1 (r.release rows transaction).2 := by
  cases r with
  | internal registry => exact HeldBy.eases h (registry.eases_release transaction)
  | cached registry known => exact HeldBy.eases h (registry.eases_release transaction)
  | file =>
      refine fun k => ⟨RegistryFile.nodup_owners_filter (h k).1, fun owner howner => ?_⟩
      obtain ⟨i, hrow⟩ := RegistryFile.mem_owners_iff.mp howner
      exact (h k).2 owner (RegistryFile.mem_owners_iff.mpr ⟨i,
        (RegistryFile.mem_release_iff.mp hrow).1⟩)

theorem release (h : Held holds r rows) (hindexed : r.Indexed) (transaction : Int) :
    Held (fun key owner => holds key owner ∧ owner ≠ transaction) (r.release rows transaction).1
      (r.release rows transaction).2 := by
  cases r with
  | internal registry =>
      exact HeldBy.frees h (InternalRegistry.frees_release hindexed transaction)
  | cached registry known =>
      exact HeldBy.frees h (CachedRegistry.Indexed.frees_release hindexed transaction)
  | file =>
      refine fun k => ⟨RegistryFile.nodup_owners_filter (h k).1, fun owner howner => ?_⟩
      obtain ⟨i, hrow⟩ := RegistryFile.mem_owners_iff.mp howner
      obtain ⟨hold, hne⟩ := RegistryFile.mem_release_iff.mp hrow
      exact ⟨(h k).2 owner (RegistryFile.mem_owners_iff.mpr ⟨i, hold⟩), hne⟩

theorem of_loses {r' : Registry} (h : Held holds r rows) (hloses : r.Loses r') :
    Held holds r' rows := by
  cases hloses with
  | nothing => exact h
  | cached hentries hregistered => exact HeldBy.of_some h hentries.found

end Held

/-! The lists of keys -/

theorem ListsFor.of_register {owner : Int}
    (h : (r.register rows key transaction id).1.ListsFor owner) :
    r.ListsFor owner ∨ owner = transaction := by
  by_cases howner : owner = transaction
  · exact .inr howner
  · left
    cases r with
    | internal registry =>
        simpa [ListsFor, register, InternalRegistry.register,
          Dict.get?_insert, Ne.symm howner] using h
    | cached registry known =>
        simp only [ListsFor, register, CachedRegistry.register] at h ⊢
        split at h
        · exact h
        · rwa [Cache.get?_put, if_neg fun heq => howner heq.1.symm] at h
    | file => exact h

theorem ListsFor.of_release {owner : Int} (h : (r.release rows transaction).1.ListsFor owner) :
    r.ListsFor owner ∧ owner ≠ transaction := by
  cases r with
  | internal registry =>
      simp only [ListsFor, release, InternalRegistry.release, Dict.get?_erase] at h ⊢
      split at h
      · exact absurd rfl h
      · exact ⟨h, Ne.symm ‹_›⟩
  | cached registry known =>
      simp only [ListsFor, release, CachedRegistry.release] at h ⊢
      split at h
      · rw [Cache.get?_erase] at h
        split at h
        · exact absurd rfl h
        · exact ⟨h, Ne.symm ‹_›⟩
      · rename_i hnone
        refine ⟨h, ?_⟩
        rintro rfl
        exact h hnone
  | file => exact h.elim

theorem ListsFor.of_loses {r' : Registry} {owner : Int} (hloses : r.Loses r')
    (h : r'.ListsFor owner) : r.ListsFor owner := by
  cases hloses with
  | nothing => exact h
  | cached hentries hregistered => exact fun hnone => h (hregistered.get?_eq_none hnone)

theorem not_listsFor_make (c : Config) : ¬(make c).ListsFor transaction := by
  unfold make
  split
  · exact fun h => h rfl
  · exact fun h => h rfl
  · exact id

/-! Whoever uses a registry -/

/-- Whether the entries of a registry belong to transactions that hold their keys, and there are
lists of keys for no other transactions. -/
structure KeptFor (holds : StatementKey → Int → Prop) (r : Registry)
    (rows : RegistryFile) : Prop where
  held : Held holds r rows
  lists : ∀ transaction, r.ListsFor transaction → ∃ key, holds key transaction

/-- What a registry becomes when a transaction registers ids for some keys and drops keys. -/
inductive Uses (asked : StatementKey → Prop) (transaction : Int) (s : Registry × RegistryFile) :
    Registry × RegistryFile → Prop
  | refl : Uses asked transaction s s
  | register {s' : Registry × RegistryFile} (h : Uses asked transaction s s') {key : StatementKey}
      (hkey : asked key) (id : Int) :
    Uses asked transaction s (s'.1.register s'.2 key transaction id)
  | delete {s' : Registry × RegistryFile} (h : Uses asked transaction s s') (key : StatementKey) :
      Uses asked transaction s (s'.1.delete s'.2 key)

theorem Uses.trans {asked : StatementKey → Prop} {s s' s'' : Registry × RegistryFile}
    (h : Uses asked transaction s s') (h' : Uses asked transaction s' s'') :
    Uses asked transaction s s'' := by
  induction h' with
  | refl => exact h
  | register _ hkey id ih => exact ih.register hkey id
  | delete _ key ih => exact ih.delete key

theorem Uses.mono {asked asked' : StatementKey → Prop} {s s' : Registry × RegistryFile}
    (h : Uses asked transaction s s') (hmono : ∀ key, asked key → asked' key) :
    Uses asked' transaction s s' := by
  induction h with
  | refl => exact .refl
  | register _ hkey id ih => exact ih.register (hmono _ hkey) id
  | delete _ key ih => exact ih.delete key

namespace KeptFor

theorem make (c : Config) : KeptFor holds (Registry.make c) [] :=
  ⟨.make c, fun _ h => absurd h (not_listsFor_make c)⟩

theorem mono (h : KeptFor holds r rows)
    (hmono : ∀ key owner, holds key owner → holds' key owner) :
    KeptFor holds' r rows :=
  ⟨h.held.mono hmono, fun t ht => (h.lists t ht).imp fun key hkey => hmono key t hkey⟩

theorem uses {asked : StatementKey → Prop} {s s' : Registry × RegistryFile}
    (h : KeptFor holds s.1 s.2) (huses : Uses asked transaction s s')
    (hasked : ∀ key, asked key → holds key transaction) : KeptFor holds s'.1 s'.2 := by
  induction huses with
  | refl => exact h
  | register _ hkey id ih =>
      refine ⟨ih.held.register (hasked _ hkey) id, fun t ht => ?_⟩
      rcases ht.of_register with hold | rfl
      · exact ih.lists t hold
      · exact ⟨_, hasked _ hkey⟩
  | @delete s' _ key ih =>
      obtain ⟨r, rows⟩ := s'
      refine ⟨ih.held.delete key, fun t ht => ih.lists t ?_⟩
      cases r <;> exact ht

theorem eased (h : KeptFor holds r rows) (transaction : Int) :
    KeptFor holds (r.release rows transaction).1 (r.release rows transaction).2 :=
  ⟨h.held.eased transaction, fun t ht => h.lists t ht.of_release.1⟩

theorem release (h : KeptFor holds r rows) (hindexed : r.Indexed) (transaction : Int) :
    KeptFor (fun key owner => holds key owner ∧ owner ≠ transaction)
      (r.release rows transaction).1 (r.release rows transaction).2 := by
  refine ⟨h.held.release hindexed transaction, fun t ht => ?_⟩
  obtain ⟨hold, hne⟩ := ht.of_release
  exact (h.lists t hold).imp fun key hkey => ⟨hkey, hne⟩

theorem of_loses {r' : Registry} (h : KeptFor holds r rows) (hloses : r.Loses r') :
    KeptFor holds r' rows :=
  ⟨h.held.of_loses hloses, fun t ht => h.lists t (ht.of_loses hloses)⟩

/-- Nothing is kept for no one. -/
theorem isEmpty (h : KeptFor holds r rows) (hnone : ∀ key owner, ¬holds key owner) :
    r.IsEmpty rows := by
  have no_entries : ∀ {entries : StatementKey → Option RegistryEntry}, HeldBy holds entries →
      ∀ key, entries key = none := by
    intro entries hheld key
    cases he : entries key with
    | none => rfl
    | some e =>
        obtain ⟨hsome, -, howners⟩ := hheld key e he
        obtain ⟨owner, howner⟩ := List.exists_mem_of_ne_nil _ hsome
        exact absurd (howners owner howner) (hnone key owner)
  have no_lists : ∀ t, ¬r.ListsFor t := fun t ht =>
    let ⟨key, hkey⟩ := h.lists t ht
    hnone key t hkey
  obtain ⟨hheld, -⟩ := h
  cases r with
  | internal registry =>
      exact ⟨Dict.eq_nil_of_get? (no_entries hheld),
        Dict.eq_nil_of_get? fun t => not_not.mp (no_lists t)⟩
  | cached registry known =>
      exact ⟨Dict.eq_nil_of_get? (no_entries hheld),
        Dict.eq_nil_of_get? fun t => not_not.mp (no_lists t)⟩
  | file =>
      refine List.eq_nil_iff_forall_not_mem.mpr fun ⟨key, owner, i⟩ hrow => ?_
      exact hnone key owner ((hheld key).2 owner (RegistryFile.mem_owners_iff.mpr ⟨i, hrow⟩))

end KeptFor

end Registry
end QuadStore
