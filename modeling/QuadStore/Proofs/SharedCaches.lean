import QuadStore.Proofs.OpenStores

namespace QuadStore

open Transaction

namespace Workspace.Bound

variable {w w' : Workspace}

theorem of_idle (hcaches : w.store.caches.Bound w.database.committed)
    (honce : w.database.committed.BindsOnce)
    (hids : ∀ r ∈ w.database.committed.namespaces, r.id ≤ w.store.counters.namespaces)
    (hpending : w.conn.pending = none)
    (hidle : w.conn.freshNamespaces = [] ∧ w.conn.removedNamespaces = []) : w.Bound := by
  have hview : w.view = w.database.committed := by simp [Workspace.view, hpending]
  refine ⟨hcaches, honce, hview ▸ honce, hids, hview ▸ hids, ?_, ?_, fun _ => hidle⟩
  · simp [hidle.1]
  · rw [hview]
    exact fun r hr hgone => absurd hr hgone

variable {x : Scope}

theorem within (hx : x.work.Bound)
    (hcommitted : w.database.committed = x.work.database.committed)
    (hcounter : x.work.store.counters.namespaces ≤ w.store.counters.namespaces)
    (hcaches : w.store.caches.Bound w.database.committed) : (x.within w).work.Bound := by
  have hview := Scope.view_within_of_eq hcommitted
  refine ⟨hcaches, ?_, hview ▸ hx.view, ?_, ?_, hview ▸ hx.fresh, ?_, hx.idle⟩
  · exact hcommitted ▸ hx.committed
  · exact fun r hr => le_trans (hx.committedIds r (hcommitted ▸ hr)) hcounter
  · rw [hview]
    exact fun r hr => le_trans (hx.viewIds r hr) hcounter
  · rw [hview]
    exact hcommitted ▸ hx.removed

theorem within_of_idle (hx : x.work.Bound) (hidle : x.work.conn.writing = false) (hw : w.Bound) :
    (x.within w).work.Bound := by
  have hpending : x.work.conn.pending = none := by simpa [Connection.writing] using hidle
  exact .of_idle hw.caches hw.committed hw.committedIds hpending (hx.idle hidle)

end Workspace.Bound

namespace OpenStore

/-- Whether caches and tables agree about bindings, for the store and for each transaction. -/
structure Bound (s : OpenStore) : Prop where
  shared : s.shared.Bound
  scopes : ∀ i x, s.scope? i = some x → x.work.Bound

variable {s s' : OpenStore} {i : Nat} {x y : Scope}

theorem bound_opened (config : Config) {tables : Tables} (honce : tables.BindsOnce)
    (registryFile : RegistryFile) (labelStart : String) :
    (opened config tables registryFile labelStart).Bound := by
  refine ⟨.of_idle (.make _ _) (honce.of_eq tables.namespaces_prepare) ?_ rfl ⟨rfl, rfl⟩,
    by rintro i x ⟨⟩⟩
  intro r hr
  exact le_trans (Tables.le_greatestId (List.mem_map_of_mem hr)) (le_max_right _ _)

theorem shared_put (hy : y.work.Bound) : (s.put i y).shared.Bound :=
  .of_idle hy.caches hy.committed hy.committedIds rfl ⟨rfl, rfl⟩

theorem Bound.put_advances (hs : s.Bound) (hx : s.scope? i = some x) (h : Advances x y) :
    (s.put i y).Bound := by
  have hy := h.works.binds.bound (hs.scopes i x hx)
  refine ⟨shared_put hy, fun j z hz => ?_⟩
  rcases scope?_put_eq_some hx hz with ⟨rfl, rfl⟩ | ⟨-, z', hz', rfl⟩
  · exact hy
  · refine (hs.scopes j z' hz').within (committed_of_scope? hx hz' h.works.committed) ?_ hy.caches
    rw [store_of_scope? hz', ← store_of_scope? hx]
    exact h.works.binds.counter

theorem Bound.put_ended (hgood : s.Good) (hs : s.Bound) (hx : s.scope? i = some x) (h : Ended x y)
    (hchanged : x.work.conn.writing = true ∧
        y.work.database.committed.namespaces = x.work.view.namespaces ∨
      y.work.database.committed = x.work.database.committed) : (s.put i y).Bound := by
  have hwork := hs.scopes i x hx
  have hy : y.work.Bound := by
    refine .of_idle (h.bound hwork) ?_ ?_ h.pending (by simp [h.conn])
    · rcases hchanged with ⟨-, hview⟩ | hsame
      · exact hwork.view.of_eq hview
      · rw [hsame]
        exact hwork.committed
    · rw [h.counters]
      rcases hchanged with ⟨-, hview⟩ | hsame
      · rw [hview]
        exact hwork.viewIds
      · rw [hsame]
        exact hwork.committedIds
  refine ⟨shared_put hy, fun j z hz => ?_⟩
  rcases scope?_put_eq_some hx hz with ⟨rfl, rfl⟩ | ⟨hj, z', hz', rfl⟩
  · exact hy
  rcases hchanged with ⟨hwriting, -⟩ | hsame
  · exact (hs.scopes j z' hz').within_of_idle (hgood.others_idle hx hwriting hz' hj) hy
  · refine (hs.scopes j z' hz').within (committed_of_scope? hx hz' hsame) ?_ hy.caches
    rw [h.counters, store_of_scope? hx, store_of_scope? hz']

theorem Bound.of_shared (hs : s.Bound) (hdatabase : s'.database = s.database)
    (hcounter : s'.store.counters.namespaces = s.store.counters.namespaces)
    (hcaches : s'.store.caches.Bound s.database.committed)
    (hscopes : ∀ i x, s'.scope? i = some x →
      (∃ x' w, s.scope? i = some x' ∧ x = x'.within w) ∨
        x.work.conn.pending = none ∧ x.work.conn.freshNamespaces = [] ∧
          x.work.conn.removedNamespaces = []) : s'.Bound := by
  have hshared : s'.shared.Bound := by
    have hsame : s'.shared.database = s.database := hdatabase
    refine .of_idle ?_ ?_ ?_ rfl ⟨rfl, rfl⟩ <;> rw [hsame]
    · exact hcaches
    · exact hs.shared.committed
    · exact fun r hr => le_of_le_of_eq (hs.shared.committedIds r hr) hcounter.symm
  refine ⟨hshared, fun i x hx => ?_⟩
  have hdatabase' := database_of_scope? hx
  have hstore' := store_of_scope? hx
  rcases hscopes i x hx with ⟨x', w, hx', rfl⟩ | ⟨hpending, hidle⟩
  · have hw : w.database = s'.database := hdatabase'
    have hw' : w.store = s'.store := hstore'
    refine (hs.scopes i x' hx').within ?_ ?_ ?_
    · rw [hw, hdatabase, database_of_scope? hx']
    · rw [hw', hcounter, store_of_scope? hx']
    · rw [hw, hw']
      exact hshared.caches
  · have hcommitted : x.work.database.committed = s'.shared.database.committed := by
      rw [hdatabase']
      rfl
    have hstore : x.work.store = s'.shared.store := hstore'
    refine .of_idle ?_ (hcommitted ▸ hshared.committed) ?_ hpending hidle
    · rw [hcommitted, hstore]
      exact hshared.caches
    · rw [hcommitted, hstore]
      exact hshared.committedIds

theorem Bound.loses {store : Store} (hs : s.Bound) (h : s.store.Loses store) :
    (s.withStore store).Bound := by
  obtain ⟨hcaches, hregistry⟩ := h
  refine hs.of_shared rfl rfl (hs.shared.caches.of_partOf hcaches) fun i x hx => ?_
  obtain ⟨x', hx', rfl⟩ := of_scope?_withStore hx
  exact .inl ⟨x', _, hx', rfl⟩

theorem Bound.step {e : Event} (hgood : s.Good) (hs : s.Bound) (h : s.Step e s') : s'.Bound := by
  cases h with
  | begin =>
      refine hs.of_shared rfl rfl hs.shared.caches fun i x hx => ?_
      rcases scope?_begin hx with ⟨x', hx', rfl⟩ | ⟨-, rfl⟩
      · exact .inl ⟨x', _, hx', rfl⟩
      · exact .inr ⟨rfl, rfl, rfl⟩
  | clearCaches => exact hs.loses (.clearCaches _)
  | evict hevicts => exact hs.loses hevicts.loses
  | call c hx =>
      rename_i i x
      rcases c.run_cases x with
        ⟨hadvances, -⟩ | ⟨refusal, y, rfl, hop, -, hcommitted⟩ | ⟨-, -, habandoned⟩
      · exact hs.put_advances hx hadvances
      · rw [Call.run, hop]
        refine hs.put_ended hgood hx hcommitted.toEnded ?_
        cases hwriting : x.work.conn.writing with
        | true => exact .inl ⟨rfl, hcommitted.namespaces⟩
        | false => exact .inr (hcommitted.idle hwriting)
      · exact hs.put_ended hgood hx habandoned.toEnded (.inr habandoned.committed)

theorem Bound.run {log : List Event} (hgood : s.Good) (hs : s.Bound) (h : s.Run log s') :
    s'.Bound := by
  induction h with
  | nil => exact hs
  | snoc hrun hstep ih => exact ih.step (hgood.run hrun) hstep

end OpenStore

namespace Caches

/-- Whether a row of the given id is cached. -/
def HoldsId (c : Caches) (id : Int) : Sequence → Prop
  | .nodes => ∃ n, n.id = id ∧
      ((∃ key, c.node.get? key = some n) ∨ (∃ uri, c.uri.get? uri = some n) ∨
        (∃ label, c.blank.get? label = some n) ∨ ∃ key, c.literal.get? key = some n)
  | .statements => ∃ t, t.id = id ∧ ∃ key, c.statement.get? key = some t
  | .namespaces => ∃ ns, ns.id = id ∧
      ((∃ label, c.namespaceLabel.get? label = some ns) ∨
        ∃ uri, c.namespaceUri.get? uri = some ns)
  | .transactions => False

theorem mem_ids_of_holdsId {c : Caches} {t : Tables} (hc : c.Coherent t) (hbound : c.Bound t)
    {id : Int} {s : Sequence} (h : c.HoldsId id s) : id ∈ s.ids t := by
  cases s with
  | nodes =>
      obtain ⟨n, rfl, hn⟩ := h
      have hholds : t.HoldsNode n := by
        rcases hn with ⟨k, hn⟩ | ⟨k, hn⟩ | ⟨k, hn⟩ | ⟨k, hn⟩
        · exact (hc.node k n hn).2
        · exact (hc.uri k n hn).2
        · exact (hc.blank k n hn).2
        · exact (hc.literal k n hn).2
      obtain ⟨r, hr, hid, -⟩ := hholds
      exact List.mem_map.mpr ⟨r, hr, hid⟩
  | statements =>
      obtain ⟨u, rfl, key, hu⟩ := h
      obtain ⟨-, r, hr, hholds⟩ := hc.statement key u hu
      exact List.mem_map.mpr ⟨r, hr, hholds.id⟩
  | namespaces =>
      obtain ⟨ns, rfl, hns⟩ := h
      have hholds : t.HoldsNamespace ns := by
        rcases hns with ⟨k, hns⟩ | ⟨k, hns⟩
        · exact (hbound.label k ns hns).2
        · exact (hbound.uri k ns hns).2
      obtain ⟨r, hr, hrow⟩ := hholds
      exact List.mem_map.mpr ⟨r, hr, hrow.id⟩
  | transactions => exact h.elim

end Caches

namespace OpenStore

/-- After every run the caches hold committed rows only: nodes with the name of their row,
statements with the slots and the marks of their row, and bindings under the prefix and the URI of
their row. What a transaction has written and not committed is not cached, and no statement is
cached as live whose committed row is deleted. -/
theorem caches_committed {config : Config} {tables : Tables} (hsound : tables.Sound)
    (honce : tables.BindsOnce) {registryFile : RegistryFile} {labelStart : String}
    {log : List Event} {s : OpenStore}
    (h : (opened config tables registryFile labelStart).Run log s) :
    s.store.caches.Coherent s.database.committed ∧ s.store.caches.Bound s.database.committed ∧
      (∀ id seq, s.store.caches.HoldsId id seq → id ∈ seq.ids s.database.committed) ∧
      ∀ key t, s.store.caches.statement.get? key = some t →
        ∀ r ∈ s.database.committed.statements, r.id = t.id → r.Holds t := by
  have hgood := (good_opened config hsound registryFile labelStart).run h
  have hbound := (bound_opened config honce registryFile labelStart).run
    (good_opened config hsound registryFile labelStart) h
  refine ⟨hgood.caches, hbound.shared.caches, fun id seq hid => ?_, fun key t ht r hr hid => ?_⟩
  · exact Caches.mem_ids_of_holdsId hgood.caches hbound.shared.caches hid
  · obtain ⟨-, r', hr', hholds⟩ := hgood.caches.statement key t ht
    rwa [hgood.sound.row_eq hr hr' (hid.trans hholds.id.symm)]

/-- A statement is cached as live while a transaction that has removed it is open. -/
theorem caches_committed_removing :
    let a : Node := .uri "urn:a"
    let s := (opened {} {} [] "w").begin.begin |>.after 0 (.add a a a none)
      |>.after 0 (.setNamespace "a" "urn:a") |>.after 0 (.commit none)
      |>.after 1 (.remove none none none none)
    (∃ t, s.store.caches.statement.get? 1 = some t ∧ s.database.committed.HoldsStatement t) ∧
      (∃ ns, s.store.caches.namespaceLabel.get? "a" = some ns ∧
        s.database.committed.HoldsNamespace ns) ∧
      (s.scope? 1).map (fun x => x.work.view.statements.map StatementRow.live) =
        some [false] := by
  intro a s
  have hrun := Run.nil (s := opened {} {} [] "w") |>.snoc .begin |>.snoc .begin
    |>.call 0 (.add a a a none) |>.call 0 (.setNamespace "a" "urn:a") |>.call 0 (.commit none)
    |>.call 1 (.remove none none none none)
  obtain ⟨hcoherent, hbound, -⟩ := caches_committed Tables.sound_empty (by rintro r ⟨⟩) hrun
  obtain ⟨t, ht⟩ := Option.isSome_iff_exists.mp
    (by decide +kernel : (s.store.caches.statement.get? 1).isSome)
  obtain ⟨ns, hns⟩ := Option.isSome_iff_exists.mp
    (by decide +kernel : (s.store.caches.namespaceLabel.get? "a").isSome)
  exact ⟨⟨t, ht, (hcoherent.statement 1 t ht).2⟩, ⟨ns, hns, (hbound.label "a" ns hns).2⟩,
    by decide +kernel⟩

end OpenStore
end QuadStore
