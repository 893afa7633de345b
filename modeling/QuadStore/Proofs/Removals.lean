import QuadStore.Proofs.KnownNodes
import QuadStore.Proofs.OpenStores
import QuadStore.Proofs.RegistryEntries

namespace QuadStore

open Transaction
open QuadStore.Action (registered?)

instance {t : Tables} {subject predicate object context : Option Node} {k : StatementKey} :
    Decidable (k.MatchesNodes t subject predicate object context) :=
  decidable_of_iff
    ((∀ n ∈ subject, t.storedId? n = some k.subject) ∧
      (∀ n ∈ predicate, t.storedId? n = some k.predicate) ∧
        (∀ n ∈ object, t.storedId? n = some k.object) ∧
          ∀ n ∈ context, t.storedId? n = some k.context)
    ⟨fun ⟨hs, hp, ho, hc⟩ => ⟨hs, hp, ho, hc⟩,
      fun h => ⟨h.subject, h.predicate, h.object, h.context⟩⟩

theorem Tables.storedId?_congr {t t' : Tables} (h : t'.nodes = t.nodes) (n : Node) :
    t'.storedId? n = t.storedId? n := by
  have hrow : t'.rowOf? n = t.rowOf? n := by
    unfold rowOf? resource? literal?
    rw [h]
  unfold storedId?
  rw [hrow]

theorem StatementKey.matchesNodes_congr {t t' : Tables} (h : t'.nodes = t.nodes)
    {subject predicate object context : Option Node} {k : StatementKey} :
    k.MatchesNodes t' subject predicate object context ↔
      k.MatchesNodes t subject predicate object context := by
  constructor <;> rintro ⟨hs, hp, ho, hc⟩ <;> constructor <;>
    simp_all only [Tables.storedId?_congr h, implies_true]

theorem eq_ok_of_answerOf {ε σ α : Type} {r : EStateM.Result ε σ α} {v : α}
    (h : (answerOf r).toOption = some v) : r = .ok v (finalState r) := by
  cases r with
  | ok u s =>
      obtain rfl := Option.some.inj h
      rfl
  | error e s => cases h

/-! Dropping keys from a registry -/

namespace RegistryFile

theorem filter_delete (file : RegistryFile) (key k : StatementKey) :
    ((file.delete key).filter fun row => row.key = k) =
      if k = key then [] else file.filter fun row => row.key = k := by
  unfold delete
  rw [List.filter_filter]
  split
  · rename_i hk
    subst hk
    simp
  · rename_i hk
    refine List.filter_congr fun row _ => ?_
    by_cases hrow : row.key = k <;> simp [hrow, hk]

end RegistryFile

namespace Registry

variable {r : Registry} {rows : RegistryFile} {key k : StatementKey} {e : RegistryEntry}

theorem hasEntry_delete_iff : (r.delete rows key).1.HasEntry (r.delete rows key).2 k e ↔
    r.HasEntry rows k e ∧ k ≠ key := by
  have erased : ∀ {entries entries' : StatementKey → Option RegistryEntry},
      (∀ k, entries' k = if key = k then none else entries k) →
        (entries' k = some e ↔ entries k = some e ∧ k ≠ key) := by
    intro entries entries' hentries
    rw [hentries]
    by_cases hk : key = k
    · simp [hk]
    · simp [hk, Ne.symm hk]
  cases r with
  | internal registry => exact erased (Dict.get?_erase registry.entries key)
  | cached registry known => exact erased (Cache.get?_erase registry.entries key)
  | file =>
      have howners : k ≠ key → (rows.delete key).owners k = rows.owners k := fun hk => by
        rw [RegistryFile.owners, RegistryFile.filter_delete, if_neg hk, RegistryFile.owners]
      have hmem : ∀ row, row ∈ rows.delete key ↔ row ∈ rows ∧ row.key ≠ key := by
        simp [RegistryFile.delete]
      show (∃ row ∈ rows.delete key, row.key = k ∧
        e = ⟨row.statement, (rows.delete key).owners k⟩) ↔ _
      constructor
      · rintro ⟨row, hrow, rfl, rfl⟩
        obtain ⟨hrow, hne⟩ := (hmem row).mp hrow
        exact ⟨⟨row, hrow, rfl, by rw [howners hne]⟩, hne⟩
      · rintro ⟨⟨row, hrow, rfl, rfl⟩, hne⟩
        exact ⟨row, (hmem row).mpr ⟨hrow, hne⟩, rfl, by rw [howners hne]⟩

theorem lookup?_delete : (r.delete rows key).1.lookup? (r.delete rows key).2 k =
    if k = key then none else r.lookup? rows k := by
  cases r with
  | internal registry =>
      show ((registry.entries.erase key).get? k).map RegistryEntry.statement = _
      rw [Dict.get?_erase]
      by_cases hk : k = key
      · simp [hk]
      · simp [hk, Ne.symm hk, lookup?, InternalRegistry.lookup?]
  | cached registry known =>
      show ((registry.entries.erase key).get? k).map RegistryEntry.statement = _
      rw [Cache.get?_erase]
      by_cases hk : k = key
      · simp [hk]
      · simp [hk, Ne.symm hk, lookup?, CachedRegistry.lookup?]
  | file =>
      show (rows.delete key).lookup? k = if k = key then none else rows.lookup? k
      unfold RegistryFile.lookup?
      rw [RegistryFile.filter_delete]
      by_cases hk : k = key <;> simp [hk]

end Registry

/-- Whether something is registered for a key. -/
def Workspace.HasEntry (w : Workspace) (key : StatementKey) (e : RegistryEntry) : Prop :=
  w.store.registry.HasEntry w.registryFile key e

instance {w : Workspace} {key : StatementKey} {e : RegistryEntry} :
    Decidable (w.HasEntry key e) :=
  inferInstanceAs (Decidable (w.store.registry.HasEntry w.registryFile key e))

namespace Action

variable {w w' : Workspace} {t : Statement}

theorem beginWrite_eq_error {e : StoreError} (h : beginWrite w = .error e w') :
    w' = w ∧ w.conn.writing = false := by
  unfold beginWrite at h
  rw [bind_of_ok (a := (get : Action Workspace)) (s := w) rfl] at h
  dsimp only at h
  split at h
  · rename_i hidle
    split at h
    · cases h
      exact ⟨rfl, by simpa using hidle⟩
    · cases h
  · cases h

theorem committed_of_beginWrite {u : Unit} (h : beginWrite w = .ok u w') :
    w'.database.committed = w.database.committed ∧ w'.registryFile = w.registryFile := by
  have hsilent := beginWrite_silent.ok h
  exact ⟨hsilent.committed, hsilent.registryFile⟩

/-- What removing some statements one after another leaves: their rows are marked and their keys
are dropped from the registry. -/
structure DropsAll (found : List Statement) (w w' : Workspace) : Prop where
  view : w'.view = w.view.withDeleted (found.map Statement.id)
  committed : w'.database.committed = w.database.committed
  entries : ∀ key e, w'.HasEntry key e ↔ w.HasEntry key e ∧ key ∉ found.map Statement.key
  lookup : ∀ key, registered? w' key =
    if key ∈ found.map Statement.key then none else registered? w key

theorem DropsAll.nil (w : Workspace) : DropsAll [] w w :=
  ⟨by simp, rfl, by simp, by simp⟩

theorem DropsAll.cons {rest : List Statement} {w₁ : Workspace} (h : DropsAll [t] w w₁)
    (hrest : DropsAll rest w₁ w') : DropsAll (t :: rest) w w' := by
  constructor
  · rw [hrest.view, h.view, Tables.withDeleted_append]
    rfl
  · exact hrest.committed.trans h.committed
  · intro key e
    rw [hrest.entries, h.entries]
    simp [and_assoc]
  · intro key
    rw [hrest.lookup, h.lookup]
    by_cases hkey : key = t.key <;> by_cases hmem : key ∈ rest.map Statement.key <;> simp_all

theorem dropsAll_of_removeStatement (hid : 0 ≤ t.id) {t' : Statement} {removed : Bool}
    (h : removeStatement t w = .ok (t', removed) w') : DropsAll [t] w w' := by
  cases hbegin : beginWrite w with
  | error e w₁ => cases (removeStatement_error hid hbegin).symm.trans h
  | ok u w₁ =>
      obtain ⟨t₁, removed₁, hdelete, -, hkey, -⟩ := deleteStatement_eq hid hbegin
      unfold removeStatement at h
      rw [bind_of_ok hdelete] at h
      cases h
      obtain ⟨-, hview⟩ := beginWrite_eq_ok hbegin
      obtain ⟨hcommitted, hfile⟩ := committed_of_beginWrite hbegin
      have hstore := store_of_beginWrite hbegin
      refine ⟨?_, hcommitted, fun key e => ?_, fun key => ?_⟩
      · rw [← hview]
        rfl
      · refine Registry.hasEntry_delete_iff.trans ?_
        rw [Workspace.HasEntry, ← hfile, ← hstore, hkey, List.map_singleton, List.mem_singleton]
        rfl
      · refine Registry.lookup?_delete.trans ?_
        rw [List.map_singleton, hkey, registered?, ← hfile, ← hstore]
        simp only [List.mem_singleton]
        rfl

theorem slotIds_of_known {slots : List (Option Node)}
    (h : ∀ slot ∈ slots, ∀ n ∈ slot, n.isPersisted = true ∨ w.view.rowOf? n = none) :
    ∃ answer, slotIds slots w = .ok answer w := by
  induction slots with
  | nil => exact ⟨_, rfl⟩
  | cons slot rest ih =>
      obtain ⟨more, hmore⟩ := ih fun slot hslot => h slot (List.mem_cons_of_mem _ hslot)
      cases slot with
      | none =>
          exact ⟨_, (bind_of_ok hmore).trans rfl⟩
      | some n =>
          have hn : ∃ id, nodeId n w = .ok id w := by
            unfold nodeId
            rcases h (some n) List.mem_cons_self n rfl with hid | hrow
            · rw [if_pos hid]
              exact ⟨_, rfl⟩
            · split
              · exact ⟨_, rfl⟩
              · rw [bind_of_ok (loadNode_eq_none hrow)]
                exact ⟨_, rfl⟩
          obtain ⟨id, hid⟩ := hn
          rw [slotIds, bind_of_ok hid]
          cases id with
          | none => exact ⟨_, rfl⟩
          | some id => exact ⟨_, (bind_of_ok hmore).trans rfl⟩

end Action

/-- Whether a row is live and has the stored ids of the given nodes in its slots. -/
def Tables.Matched (t : Tables)
    (subject predicate object context : Option Node) (r : StatementRow) :
    Prop :=
  r.live = true ∧ r.key.MatchesNodes t subject predicate object context

instance {t : Tables} {subject predicate object context : Option Node} :
    DecidablePred (t.Matched subject predicate object context) := fun r =>
  inferInstanceAs (Decidable (r.live = true ∧
    r.key.MatchesNodes t subject predicate object context))

namespace Tables

variable {t : Tables} {subject predicate object context : Option Node} {rows : List StatementRow}
variable (hperm : rows.Perm (t.statements.filter (t.Matched subject predicate object context ·)))

include hperm

theorem mem_matched {r : StatementRow} :
    r ∈ rows ↔ r ∈ t.statements ∧ t.Matched subject predicate object context r := by
  rw [hperm.mem_iff, List.mem_filter, decide_eq_true_iff]

theorem Sound.nodup_matched (h : t.Sound) : (rows.map StatementRow.id).Nodup :=
  (hperm.map _).nodup_iff.mpr (h.statementIds.sublist (List.filter_sublist.map _))

theorem Sound.withDeleted_matched (h : t.Sound) :
    t.withDeleted (rows.map StatementRow.id) = { t with
      statements := t.statements.map fun r =>
        if t.Matched subject predicate object context r then
          { r with deleted := 1, deletedAt := some .clock }
        else r } := by
  have hmark : ∀ r ∈ t.statements, (r.id ∈ rows.map StatementRow.id ∧ r.live = true) ↔
      t.Matched subject predicate object context r := by
    intro r hr
    constructor
    · rintro ⟨hid, -⟩
      obtain ⟨r', hr', hid⟩ := List.mem_map.mp hid
      obtain ⟨hr', hmatches⟩ := (mem_matched hperm).mp hr'
      rwa [h.row_eq hr' hr hid] at hmatches
    · intro hmatches
      exact ⟨List.mem_map_of_mem ((mem_matched hperm).mpr ⟨hr, hmatches⟩), hmatches.1⟩
  have hstatements : (t.statements.map fun r =>
      if r.id ∈ rows.map StatementRow.id ∧ r.live = true then r.mark else r) =
        t.statements.map fun r =>
          if t.Matched subject predicate object context r then r.mark else r :=
    List.map_congr_left fun r hr => by simp only [hmark r hr]
  exact congrArg (fun rows => { t with statements := rows }) hstatements

end Tables

theorem Action.listStatements_matched {w w' : Workspace}
    {subject predicate object context : Option Node}
    {found : List Statement} (hw : w.Good)
    (h : listStatements subject predicate object context true w = .ok found w') :
    ∃ rows : List StatementRow, found.map Statement.id = rows.map StatementRow.id ∧
      found.map Statement.key = rows.map StatementRow.key ∧
        rows.Perm (w.view.statements.filter
          (w.view.Matched subject predicate object context ·)) := by
  obtain ⟨rows, hrows, hmem, hnodup⟩ := listStatements_eq_ok hw.coherent.caches.keyed h
  have hids := hw.sound.statementIds
  refine ⟨rows, map_eq_of_forall₂ (hrows.flip.imp fun _ _ h => h.1),
    map_eq_of_forall₂ (hrows.flip.imp fun _ _ h => h.2), ?_⟩
  refine (List.perm_ext_iff_of_nodup (hnodup hids).of_map (hids.of_map.filter _)).mpr fun r => ?_
  rw [hmem, List.mem_filter, decide_eq_true_iff, Tables.Matched]
  simp

namespace Transaction

variable {x y : Scope} {subject predicate object context : Option Node}

/-! Removing one statement after another -/

theorem removals_eq_ok {found : List Statement} (hids : ∀ t ∈ found, 0 ≤ t.id)
    (hnodup : (found.map Statement.id).Nodup) (hlive : ∀ t ∈ found, t.id ∈ x.work.view.liveIds)
    {removals : List Bool} (h : found.mapM removeOne x = .ok removals y) :
    Action.DropsAll found x.work y.work ∧ y.closed = x.closed ∧
      (removals.filter id).length = found.length := by
  induction found generalizing x removals with
  | nil =>
      obtain ⟨rfl, rfl⟩ := pure_eq_ok_iff.mp h
      exact ⟨.nil _, rfl, rfl⟩
  | cons t rest ih =>
      rw [List.mapM_cons] at h
      rcases removeOne_cases (hids t (by simp)) x with
        ⟨t', removed, x₁, hop, -, -, hview, hremoved, hremove, hclosed, -⟩ | ⟨e, x₁, hop, -⟩
      · rw [bind_of_ok hop] at h
        obtain ⟨more, y', hrest, h⟩ := bind_eq_ok_iff.mp h
        obtain ⟨rfl, rfl⟩ := pure_eq_ok_iff.mp h
        obtain ⟨hother, hnodup⟩ := List.nodup_cons.mp hnodup
        obtain rfl : removed = true := hremoved.mpr (hlive t (by simp))
        have hlive' : ∀ u ∈ rest, u.id ∈ x₁.work.view.liveIds := by
          intro u hu
          rw [hview, Tables.liveIds_withDeleted]
          refine ⟨hlive u (by simp [hu]), fun hmem => hother ?_⟩
          rw [← List.mem_singleton.mp hmem]
          exact List.mem_map_of_mem hu
        obtain ⟨hdrops, hclosed', hcount⟩ :=
          ih (fun u hu => hids u (by simp [hu])) hnodup hlive' hrest
        refine ⟨(Action.dropsAll_of_removeStatement (hids t (by simp)) hremove).cons hdrops,
          hclosed'.trans hclosed, ?_⟩
        simp [hcount]
      · rw [bind_of_error hop] at h
        cases h

theorem removals_eq_error {found : List Statement} (hids : ∀ t ∈ found, 0 ≤ t.id) {e : StoreError}
    (h : found.mapM removeOne x = .error e y) : y = x := by
  cases found with
  | nil => cases h
  | cons t rest =>
      rw [List.mapM_cons] at h
      have hid := hids t (by simp)
      cases hbegin : Action.beginWrite x.work with
      | error e' w =>
          obtain ⟨rfl, -⟩ := Action.beginWrite_eq_error hbegin
          unfold removeOne at h
          rw [bind_of_error (bind_of_error
            (work_of_error (Action.removeStatement_error hid hbegin)))] at h
          cases h
          rfl
      | ok u w =>
          rcases removeOne_cases hid x with ⟨t', removed, x₁, hop, hwriting, -⟩ | ⟨e', x₁, hop, -⟩
          · rw [bind_of_ok hop] at h
            have hrest : ∀ u ∈ rest, 0 ≤ u.id := fun u hu => hids u (by simp [hu])
            rcases removals_cases hrest x₁ with
              ⟨more, y', hrest, -⟩ | ⟨e', y', -, hidle, -⟩
            · rw [bind_of_ok hrest] at h
              cases h
            · cases hwriting.symm.trans hidle
          · obtain ⟨t', removed, w', hremove, -⟩ := Action.removeStatement_eq hid hbegin
            unfold removeOne at hop
            rw [bind_of_ok (work_of_ok hremove)] at hop
            cases removed <;> cases hop

/-- What a removal does that answers a number: it takes that many statements away, those whose
rows are live and match. -/
structure Removed (subject predicate object context : Option Node) (x y : Scope) (count : Nat) :
    Prop where
  count : count =
    (x.work.view.statements.filter
      (x.work.view.Matched subject predicate object context ·)).length
  view : y.work.view = { x.work.view with
    statements := x.work.view.statements.map fun r =>
      if x.work.view.Matched subject predicate object context r then
        { r with deleted := 1, deletedAt := some .clock }
      else r }
  committed : y.work.database.committed = x.work.database.committed
  entries : ∀ key e, y.work.HasEntry key e ↔ x.work.HasEntry key e ∧
    ¬∃ r ∈ x.work.view.statements, x.work.view.Matched subject predicate object context r ∧
      r.key = key
  lookup : ∀ key, registered? y.work key =
    if ∃ r ∈ x.work.view.statements, x.work.view.Matched subject predicate object context r ∧
      r.key = key
    then none else registered? x.work key

/-- What a removal leaves that fails: all but the caches is as it was. -/
structure LeftAlone (x y : Scope) : Prop where
  database : y.work.database = x.work.database
  view : y.work.view = x.work.view
  registry : y.work.store.registry = x.work.store.registry
  registryFile : y.work.registryFile = x.work.registryFile
  changes : y.changes = x.changes

theorem removed_of_ok {count : Nat} (hx : x.Good)
    (h : remove subject predicate object context x = .ok count y) :
    Removed subject predicate object context x y count ∧ y.closed = x.closed := by
  obtain ⟨-, h⟩ := whileOpen_eq_ok_iff.mp h
  obtain ⟨found, x₁, hwork, h⟩ := bind_eq_ok_iff.mp h
  obtain ⟨w, hlist, rfl⟩ := work_eq_ok_iff.mp hwork
  obtain ⟨removals, y₁, hremovals, h⟩ := bind_eq_ok_iff.mp h
  obtain ⟨rfl, rfl⟩ := pure_eq_ok_iff.mp h
  have hreads := (Action.listStatements_reads subject predicate object context true).ok hlist
  obtain ⟨rows, hids, hkeys, hperm⟩ := Action.listStatements_matched hx.work hlist
  obtain ⟨hnonneg, -⟩ := listed_eq hx.work hlist
  have hlive : ∀ t ∈ found, t.id ∈ w.view.liveIds := by
    intro t ht
    obtain ⟨r, hr, hid⟩ := List.mem_map.mp (hids ▸ List.mem_map_of_mem ht)
    obtain ⟨hr, hlive, -⟩ := (Tables.mem_matched hperm).mp hr
    rw [hreads.view_eq]
    exact ⟨r, hr, hlive, hid⟩
  obtain ⟨hdrops, hclosed, hcount⟩ := removals_eq_ok (x := { x with work := w }) hnonneg
    (hids ▸ hx.work.sound.nodup_matched hperm) hlive hremovals
  obtain ⟨_, _, _, rfl⟩ := hreads.caching
  have hkey : ∀ key, key ∈ found.map Statement.key ↔ ∃ r ∈ x.work.view.statements,
      x.work.view.Matched subject predicate object context r ∧ r.key = key := by
    intro key
    rw [hkeys, List.mem_map]
    simp only [Tables.mem_matched hperm, and_assoc]
  refine ⟨⟨?_, ?_, hdrops.committed, fun key e => ?_, fun key => ?_⟩, hclosed⟩
  · rw [hcount, ← hperm.length_eq, ← List.length_map (f := Statement.id), hids, List.length_map]
  · rw [hdrops.view, hids]
    exact hx.work.sound.withDeleted_matched hperm
  · rw [hdrops.entries, hkey]
    rfl
  · rw [hdrops.lookup]
    simp only [hkey]
    rfl

namespace Removed

variable {count : Nat}

theorem nodes_eq (h : Removed subject predicate object context x y count) :
    y.work.view.nodes = x.work.view.nodes := by
  rw [h.view]

theorem none_left (h : Removed subject predicate object context x y count) :
    ∀ r ∈ y.work.view.statements, ¬y.work.view.Matched subject predicate object context r := by
  rintro r' hr' ⟨hlive, hmatches⟩
  rw [StatementKey.matchesNodes_congr h.nodes_eq] at hmatches
  rw [h.view] at hr'
  obtain ⟨r, hr, rfl⟩ := List.mem_map.mp hr'
  by_cases hmatched : x.work.view.Matched subject predicate object context r
  · rw [if_pos hmatched] at hlive
    cases hlive
  · rw [if_neg hmatched] at hlive hmatches
    exact hmatched ⟨hlive, hmatches⟩

end Removed

theorem remove_of_none_left (hopen : x.closed = false)
    (hnone : ∀ r ∈ x.work.view.statements, ¬x.work.view.Matched
      subject predicate object context r)
    (hknown : ∀ slot ∈ [subject, predicate, object, context], ∀ n ∈ slot,
      n.isPersisted = true ∨ x.work.view.rowOf? n = none) :
    ∃ z, remove subject predicate object context x = .ok 0 z := by
  obtain ⟨answer, hids⟩ := Action.slotIds_of_known hknown
  have hlist : Action.listStatements subject predicate object context
      true x.work = .ok [] x.work := by
    unfold Action.listStatements
    rw [bind_of_ok hids]
    cases answer with
    | none => rfl
    | some ids =>
        have hslots := (Action.slotIds_eq_ok hids).1 ids rfl
        have hrows : (x.work.view.liveStatements.filter fun r =>
            r.hasIds ids && (true || !r.isInferred)) = [] := by
          rw [List.filter_eq_nil_iff]
          intro r hr hmatches
          rw [Tables.liveStatements, List.mem_mergeSort, List.mem_filter] at hr
          rw [Bool.true_or, Bool.and_true, StatementRow.hasIds_iff,
            Action.matchesNodes_iff hslots] at hmatches
          exact hnone r hr.1 ⟨hr.2, hmatches⟩
        dsimp only
        rw [bind_of_ok (Action.view_eq_ok_iff.mpr ⟨hrows, rfl⟩)]
        rfl
  refine ⟨x, ?_⟩
  rw [remove, whileOpen_of_open hopen, bind_of_ok (work_of_ok hlist)]
  rfl

theorem leftAlone_of_error {e : StoreError} (hx : x.Good)
    (h : remove subject predicate object context x = .error e y) : LeftAlone x y := by
  cases hclosed : x.closed with
  | true =>
      rw [remove, whileOpen_of_closed hclosed] at h
      cases h
      exact ⟨rfl, rfl, rfl, rfl, rfl⟩
  | false =>
  rw [remove, whileOpen_of_open hclosed] at h
  have hreads := Action.listStatements_reads subject predicate object context true
  cases hlist : Action.listStatements subject predicate object context true x.work with
  | error e' w =>
      rw [bind_of_error (work_of_error hlist)] at h
      cases h
      obtain ⟨_, _, _, rfl⟩ := (hreads.error hlist).caching
      exact ⟨rfl, rfl, rfl, rfl, rfl⟩
  | ok found w =>
      rw [bind_of_ok (work_of_ok hlist)] at h
      obtain ⟨hnonneg, -⟩ := listed_eq hx.work hlist
      obtain ⟨_, _, _, rfl⟩ := (hreads.ok hlist).caching
      cases hremovals : found.mapM removeOne { x with work := _ } with
      | ok removals y' =>
          rw [bind_of_ok hremovals] at h
          cases h
      | error e' y' =>
          rw [bind_of_error hremovals] at h
          cases h
          obtain rfl := removals_eq_error hnonneg hremovals
          exact ⟨rfl, rfl, rfl, rfl, rfl⟩

end Transaction

namespace OpenStore

variable {config : Config} {tables : Tables} {registryFile : RegistryFile} {labelStart : String}
  {log : List Event} {s : OpenStore} {i : Nat} {x : Scope}

/-- A removal that answers a number has marked the live rows that match, and that is how many
there were; nothing else has changed in the tables, and of the registry the entries of their
statements have gone. Whatever is removed by the same nodes next is nothing. A removal that fails,
for want of the lock or for what it cannot read, has changed neither tables nor registry nor what
the transaction takes account of. -/
theorem remove_exact (htables : tables.Sound)
    (h : (opened config tables registryFile labelStart).Run log s) (hx : s.scope? i = some x)
    (subject predicate object context : Option Node) :
    (∀ count y, remove subject predicate object context x = .ok count y →
      Removed subject predicate object context x y count ∧
        (∀ again z, remove subject predicate object context y = .ok again z → again = 0) ∧
          ((∀ slot ∈ [subject, predicate, object, context], ∀ n ∈ slot,
              n.isPersisted = true ∨ x.work.view.rowOf? n = none) →
            ∃ z, remove subject predicate object context y = .ok 0 z)) ∧
      ∀ e y, remove subject predicate object context x = .error e y → LeftAlone x y := by
  have hgood := ((good_opened config htables registryFile labelStart).run h).scopes i x hx
  refine ⟨fun count y hremove => ?_, fun e y hremove => leftAlone_of_error hgood hremove⟩
  obtain ⟨hremoved, hclosed⟩ := removed_of_ok hgood hremove
  have hnone := hremoved.none_left
  refine ⟨hremoved, fun again z hagain => ?_, fun hknown => ?_⟩
  · have hgood' : y.Good := by
      have hadvances := (remove_advances subject predicate object context).ok hremove
      exact hadvances.good hgood
    rw [(removed_of_ok hgood' hagain).1.count, List.length_eq_zero_iff, List.filter_eq_nil_iff]
    intro r hr hmatched
    exact hnone r hr (of_decide_eq_true hmatched)
  · have hopen := (whileOpen_eq_ok_iff.mp hremove).1
    refine remove_of_none_left (hclosed.trans hopen) hnone fun slot hslot n hn => ?_
    refine (hknown slot hslot n hn).imp_right fun hrow => ?_
    unfold Tables.rowOf? Tables.resource? Tables.literal? at hrow ⊢
    rwa [hremoved.nodes_eq]

/-- A statement is removed, inferred anew and removed again, while another one is registered. -/
theorem remove_exact_inferred :
    let a : Node := ⟨1, .uri "urn:a"⟩
    let b : Node := ⟨2, .uri "urn:b"⟩
    let s := (opened {} {} [] "w").begin.after 0 (.uri "urn:a") |>.after 0 (.uri "urn:b")
      |>.after 0 (.add a a a (some a)) |>.after 0 (.remove none none none none)
      |>.after 0 (.addInferred a a a (some a)) |>.after 0 (.statement b a a (some a))
    ∃ x y z, s.scope? 0 = some x ∧ remove (some a) none none none x = .ok 1 y ∧
      Removed (some a) none none none x y 1 ∧ remove (some a) none none none y = .ok 0 z ∧
        x.work.HasEntry ⟨1, 1, 1, 1⟩ ⟨2, [1]⟩ ∧ ¬y.work.HasEntry ⟨1, 1, 1, 1⟩ ⟨2, [1]⟩ ∧
          y.work.HasEntry ⟨2, 1, 1, 1⟩ ⟨3, [1]⟩ := by
  intro a b s
  have hrun := Run.nil (s := opened {} {} [] "w") |>.snoc .begin |>.call 0 (.uri "urn:a")
    |>.call 0 (.uri "urn:b") |>.call 0 (.add a a a (some a))
      |>.call 0 (.remove none none none none)
    |>.call 0 (.addInferred a a a (some a)) |>.call 0 (.statement b a a (some a))
  obtain ⟨hok, -⟩ := remove_exact Tables.sound_empty hrun (i := 0) rfl (some a) none none none
  have hremove := eq_ok_of_answerOf (v := 1)
    (r := remove (some a) none none none (s.scopeOf s.transactions[0])) (by decide +kernel)
  obtain ⟨hremoved, -, hagain⟩ := hok 1 _ hremove
  obtain ⟨z, hz⟩ := hagain (by decide)
  exact ⟨_, _, z, rfl, hremove, hremoved,
    hz, by decide +kernel, by decide +kernel, by decide +kernel⟩

end OpenStore
end QuadStore
