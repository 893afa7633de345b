import QuadStore.Proofs.RecordedWork

namespace QuadStore

open Transaction

variable {V : LiteralValue → Prop}

/-- The values of the literals that may have to be written when something happens. -/
def Event.values : Event → List LiteralValue
  | .call _ _ _ c _ => c.values
  | .begin | .clearCaches | .evict _ => []

namespace OpenStore

variable {s s' : OpenStore} {i : Nat} {x y : Scope}

/-- Whether the rows of all tables were written for nodes, and every node in
a cache is in its row. -/
structure Recorded (V : LiteralValue → Prop) (s : OpenStore) : Prop where
  committed : s.database.committed.Recorded V
  caches : s.store.caches.All s.database.committed.Identifies fun _ => True
  scopes : ∀ i x, s.scope? i = some x → x.work.Recorded V

theorem recorded_opened (config : Config) {tables : Tables} (h : tables.Recorded V)
    (registryFile : RegistryFile) (labelStart : String) :
    (opened config tables registryFile labelStart).Recorded V := by
  refine ⟨h.of_eq tables.nodes_prepare, Caches.All.make _, ?_⟩
  rintro i x ⟨⟩

/-- Another transaction sees rows that were written for nodes as well. -/
theorem recorded_within (hx : x.work.Good) (h : x.work.Recorded V) {w : Workspace}
    (hcommitted : w.database.committed.Recorded V)
    (hcaches : w.store.caches.All w.database.committed.Identifies fun _ => True) :
    (x.within w).work.Recorded V := by
  cases hwriting : x.work.conn.writing with
  | true =>
      have hview : (x.within w).work.view = x.work.view := Scope.view_within_of_writing hwriting
      exact ⟨hcommitted, hview ▸ h.view, hcaches, fun n hn => hview ▸ h.fresh n hn⟩
  | false =>
      have hpending : x.work.conn.pending = none := by simpa [Connection.writing] using hwriting
      exact recorded_of_idle hpending (hx.coherent.idle hwriting).1 hcommitted hcaches

namespace Recorded

theorem put (h : s.Recorded V) (hs : s.Good) (hx : s.scope? i = some x) (hy : y.work.Recorded V) :
    (s.put i y).Recorded V := by
  refine ⟨hy.committed, hy.caches, fun j z hz => ?_⟩
  rcases scope?_put_eq_some hx hz with ⟨-, rfl⟩ | ⟨-, z', hz', rfl⟩
  · exact hy
  · exact recorded_within (hs.scopes j z' hz').work (h.scopes j z' hz') hy.committed hy.caches

theorem loses {store : Store} (h : s.Recorded V) (hs : s.Good) (hloses : s.store.Loses store) :
    (s.withStore store).Recorded V := by
  obtain ⟨hpart, hregistry⟩ := hloses
  have hcaches := h.caches.of_partOf hpart
  refine ⟨h.committed, hcaches, fun i x hx => ?_⟩
  obtain ⟨x', hx', rfl⟩ := of_scope?_withStore hx
  exact recorded_within (hs.scopes i x' hx').work (h.scopes i x' hx') h.committed hcaches

theorem step [LiteralValue.Lasting V] {e : Event} (h : s.Recorded V)
    (hs : s.Good) (hstep : s.Step e s')
    (hvalues : ∀ value ∈ e.values, V value) : s'.Recorded V := by
  cases hstep with
  | begin =>
      refine ⟨h.committed, h.caches, fun i x hx => ?_⟩
      rcases scope?_begin hx with ⟨x', hx', rfl⟩ | ⟨-, rfl⟩
      · exact recorded_within (hs.scopes i x' hx').work (h.scopes i x' hx') h.committed h.caches
      · exact recorded_of_idle rfl rfl h.committed h.caches
  | clearCaches => exact h.loses hs (.clearCaches _)
  | evict hevicts => exact h.loses hs hevicts.loses
  | call c hx =>
      rename_i i x
      exact h.put hs hx (Call.recorded (hs.scopes i x hx).work (h.scopes i x hx) hvalues)

theorem run [LiteralValue.Lasting V] {log : List Event} (h : s.Recorded V) (hs : s.Good)
    (hrun : s.Run log s') (hvalues : ∀ e ∈ log, ∀ value ∈ e.values, V value) : s'.Recorded V :=
  hs.run_preserves hrun hvalues (fun hgood hstep he hs => hs.step hgood hstep he) h

end Recorded
end OpenStore
end QuadStore
