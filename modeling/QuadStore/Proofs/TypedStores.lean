import QuadStore.Proofs.LastingIds
import QuadStore.Proofs.TypedLiterals

namespace QuadStore

open Transaction

variable {W : LiteralValue → String → Prop}

/-- What a call does when something happens that is one. -/
def Event.call? : Event → Option Call
  | .call _ _ _ c _ => some c
  | .begin | .clearCaches | .evict _ => none

/-- The call that is made when files change. -/
def FileChange.call? : FileChange → Option Call
  | .work (.step e) => e.call?
  | _ => none

theorem Workspace.typed_of_idle {w : Workspace} (hidle : w.conn.writing = false)
    (hfresh : w.conn.freshNodes = []) (hcommitted : w.database.committed.Typed W)
    (hcaches : w.store.caches.Lists (w.database.committed.Reflects W))
    (hcounted : ∀ r ∈ w.database.committed.nodes, r.id ≤ w.store.counters.nodes)
    (hcounter : 0 ≤ w.store.counters.nodes) : w.Typed W := by
  have hview := Workspace.view_eq_committed hidle
  exact ⟨hcommitted, hview ▸ hcommitted, fun r hr => hview ▸ hr,
    hcaches, by simp [hfresh], hview ▸ hcounted, hcounter⟩

namespace Transaction

variable {x : Scope}

theorem typed_finished (h : x.work.Typed W) (hopen : x.closed = false) :
    x.finished.work.Typed W := by
  have hspec := Scope.finished_spec hopen
  have hpublished : x.finished.work.store.caches.Lists (x.work.view.Reflects W) :=
    (h.caches.imp fun n hn => h.reflects hn).publishTo h.fresh
  refine Workspace.typed_of_idle (by simp [Connection.writing, hspec.pending]) hspec.freshNodes
    (h.view.of_eq hspec.nodes) (hpublished.imp fun n hn =>
      hn.mono fun r hr => hspec.nodes ▸ hr) ?_ ?_
  · rw [hspec.nodes, hspec.counters]
    exact h.counted
  · rw [hspec.counters]
    exact h.counter

theorem typed_abandoned (h : x.work.Typed W) : x.abandoned.work.Typed W := by
  have hspec := x.abandoned_spec
  refine Workspace.typed_of_idle (by simp [Connection.writing, hspec.pending]) hspec.freshNodes
    h.committed (h.caches.discardFrom _) (fun r hr => ?_) ?_
  · rw [hspec.counters]
    exact h.counted r (h.nodes r hr)
  · rw [hspec.counters]
    exact h.counter

theorem typed_lost (h : x.work.Typed W) : x.lost.work.Typed W := by
  rw [Scope.work_lost]
  exact Workspace.typed_of_idle rfl rfl h.committed h.caches
    (fun r hr => h.counted r (h.nodes r hr)) h.counter

end Transaction

theorem Call.leaves_typed {c : Call} {x : Scope} (h : x.work.Typed W)
    (hasked : ∀ literal ∈ c.asked, Askable W literal) : (finalState (c.run x)).work.Typed W ∧
      x.work.store.counters.nodes ≤ (finalState (c.run x)).work.store.counters.nodes := by
  cases hopen : x.closed with
  | true =>
      rw [c.run_of_closed hopen]
      exact ⟨h, le_refl _⟩
  | false =>
      cases hends : c.ends with
      | false =>
          have htypes := Call.typing hends hasked x h
          exact ⟨htypes.typed, htypes.counter⟩
      | true =>
          rcases Call.finished_or_abandoned hends hopen with heq | heq <;> rw [heq]
          · exact ⟨typed_finished h hopen, (Scope.finished_spec hopen).counters ▸ le_refl _⟩
          · exact ⟨typed_abandoned h, x.abandoned_spec.counters ▸ le_refl _⟩

namespace OpenStore

variable {s s' : OpenStore} {i : Nat} {x y : Scope} {m : Happening}

/-- Whether values go with their datatypes in all that a store has to do with. -/
structure Typed (W : LiteralValue → String → Prop) (s : OpenStore) : Prop where
  committed : s.database.committed.Typed W
  caches : s.store.caches.Lists (s.database.committed.Reflects W)
  counted : ∀ r ∈ s.database.committed.nodes, r.id ≤ s.store.counters.nodes
  counter : 0 ≤ s.store.counters.nodes
  scopes : ∀ i x, s.scope? i = some x → x.work.Typed W

theorem typed_opened (config : Config) {tables : Tables} (h : tables.Typed W)
    (registryFile : RegistryFile)
    (labelStart : String) : (opened config tables registryFile labelStart).Typed W := by
  have hcounter : (opened config tables registryFile labelStart).store.counters.nodes =
      Counters.resume tables .nodes := current_opened config tables registryFile labelStart .nodes
  refine ⟨h.of_eq tables.nodes_prepare, .make _, fun r hr => ?_, ?_, by rintro i x ⟨⟩⟩
  · rw [hcounter]
    exact Counters.le_resume (List.mem_map_of_mem (tables.nodes_prepare ▸ hr))
  · rw [hcounter]
    refine le_trans (Tables.greatestId_nonneg fun id hid => ?_) (le_max_right _ _)
    obtain ⟨r, hr, rfl⟩ := List.mem_map.mp hid
    exact h.nonneg r hr

theorem typed_of_scopes (hs : s.Good) (hcommitted : s.database.committed.Typed W)
    (hcaches : s.store.caches.Lists (s.database.committed.Reflects W))
    (hcounted : ∀ r ∈ s.database.committed.nodes, r.id ≤ s.store.counters.nodes)
    (hcounter : 0 ≤ s.store.counters.nodes)
    (hwrites : ∀ i x, s.scope? i = some x → x.work.conn.writing = true →
      ∃ w : Workspace, w.Typed W ∧
      w.view = x.work.view ∧ w.conn.freshNodes = x.work.conn.freshNodes ∧
      w.store.counters.nodes ≤ s.store.counters.nodes) : s.Typed W := by
  refine ⟨hcommitted, hcaches, hcounted, hcounter, fun i x hx => ?_⟩
  have hgood := (hs.scopes i x hx).work
  have hdatabase := database_of_scope? hx
  have hstore := store_of_scope? hx
  rw [← hdatabase] at hcommitted hcaches hcounted
  rw [← hstore] at hcaches hcounted hcounter
  -- The counter and the caches are shared, so a writer may have other ones now
  -- than when it last worked.
  cases hwriting : x.work.conn.writing with
  | true =>
      obtain ⟨w, hw, hview, hfresh, hle⟩ := hwrites i x hx hwriting
      rw [← hstore] at hle
      exact ⟨hcommitted, hview ▸ hw.view, hgood.nodes, hcaches,
        fun n hn => hview ▸ hw.fresh n (hfresh ▸ hn), fun r hr =>
          le_trans (hw.counted r (hview ▸ hr)) hle,
        hcounter⟩
  | false =>
      exact Workspace.typed_of_idle hwriting (hgood.coherent.idle hwriting).1
        hcommitted hcaches hcounted hcounter

namespace Typed

theorem put (h : s.Typed W) (hgood : (s.put i y).Good)
    (hx : s.scope? i = some x) (hy : y.work.Typed W)
    (hcounter : x.work.store.counters.nodes ≤ y.work.store.counters.nodes) :
    (s.put i y).Typed W := by
  refine typed_of_scopes hgood hy.committed hy.caches
    (fun r hr => hy.counted r (hy.nodes r hr)) hy.counter
    fun j z hz hwriting => ?_
  rcases scope?_put_eq_some hx hz with ⟨-, rfl⟩ | ⟨-, z', hz', rfl⟩
  · exact ⟨z.work, hy, rfl, rfl, le_refl _⟩
  · have hwriting : z'.work.conn.writing = true := hwriting
    refine ⟨z'.work, h.scopes j z' hz', (Scope.view_within_of_writing hwriting).symm, rfl, ?_⟩
    rw [store_of_scope? hz', ← store_of_scope? hx]
    exact hcounter

theorem within (h : s.Typed W) (hx : s.scope? i = some x) (hwriting : x.work.conn.writing = true)
    {w : Workspace} (hcounter : w.store.counters.nodes = s.store.counters.nodes) :
    ∃ w' : Workspace, w'.Typed W ∧ w'.view = (x.within w).work.view ∧
      w'.conn.freshNodes = (x.within w).work.conn.freshNodes ∧
      w'.store.counters.nodes ≤ w.store.counters.nodes := by
  refine ⟨x.work, h.scopes i x hx, (Scope.view_within_of_writing hwriting).symm, rfl, ?_⟩
  rw [hcounter, store_of_scope? hx]

theorem loses {store : Store} (h : s.Typed W) (hgood : (s.withStore store).Good)
    (hloses : s.store.Loses store) : (s.withStore store).Typed W := by
  obtain ⟨hcaches, hregistry⟩ := hloses
  refine typed_of_scopes hgood h.committed (h.caches.of_partOf hcaches) h.counted h.counter
    fun i x hx hwriting => ?_
  obtain ⟨x', hx', rfl⟩ := of_scope?_withStore hx
  exact h.within hx' hwriting rfl

theorem step {e : Event} (h : s.Typed W) (hs : s.Good) (hstep : s.Step e s')
    (hasked : ∀ c ∈ e.call?, ∀ literal ∈ c.asked, Askable W literal) : s'.Typed W := by
  have hgood := hs.step hstep
  cases hstep with
  | begin =>
      refine typed_of_scopes hgood h.committed h.caches h.counted
        h.counter fun i x hx hwriting => ?_
      rcases scope?_begin hx with ⟨x', hx', rfl⟩ | ⟨-, rfl⟩
      · exact h.within hx' hwriting rfl
      · cases hwriting
  | clearCaches => exact h.loses hgood (.clearCaches _)
  | evict hevicts => exact h.loses hgood hevicts.loses
  | call c hx =>
      rename_i i x
      obtain ⟨htyped, hcounter⟩ := Call.leaves_typed (h.scopes i x hx) (hasked c rfl)
      exact h.put hgood hx htyped hcounter

theorem happens (h : s.Typed W) (hs : s.Good) (hm : s.Happens m s')
    (hasked : ∀ c ∈ (FileChange.work m).call?, ∀ literal ∈ c.asked, Askable W literal) :
    s'.Typed W := by
  have hgood := hs.happens hm
  cases hm with
  | step hstep => exact h.step hs hstep hasked
  | lost hx =>
      rename_i i x
      refine h.put hgood hx (typed_lost (h.scopes i x hx)) ?_
      rw [Scope.work_lost]
  | shutdown =>
      rcases s.shutdown_cases with ⟨hfree, heq⟩ | heq <;> rw [heq] at hgood ⊢
      · refine typed_of_scopes hgood (h.committed.of_eq rfl) (.clear _) h.counted h.counter
          fun i x hx hwriting => ?_
        obtain ⟨x', hx', rfl⟩ := scope?_settled_eq_some hx
        have hwriting : x'.work.conn.writing = true := hwriting
        cases hwriting.symm.trans (hs.idle_of_free hfree hx')
      · exact h

theorem happenings {ms : List Happening} (h : s.Typed W) (hs : s.Good) (hms : s.Happenings ms s')
    (hasked : ∀ m ∈ ms, ∀ c ∈ (FileChange.work m).call?, ∀ literal ∈ c.asked, Askable W literal) :
    s'.Typed W ∧ s'.Good := by
  induction hms with
  | nil => exact ⟨h, hs⟩
  | snoc _ hm ih =>
      rw [List.forall_mem_append, List.forall_mem_singleton] at hasked
      obtain ⟨htyped, hgood⟩ := ih hasked.1
      exact ⟨htyped.happens hgood hm hasked.2, hgood.happens hm⟩

end Typed

/-- An open transaction goes on seeing the nodes that it has seen, whatever happens. -/
theorem Good.sees_happens (hs : s.Good) (hm : s.Happens m s') (hx : s.scope? i = some x) :
    ∃ y, s'.scope? i = some y ∧ (y.closed = false → x.closed = false ∧
      ∀ r ∈ x.work.view.nodes, r ∈ y.work.view.nodes) := by
  cases hm with
  | step hstep => exact hs.sees_step hstep hx
  | lost hz =>
      rename_i j z
      by_cases hij : i = j
      · subst hij
        exact ⟨z.lost, scope?_put_self hz, by rintro ⟨⟩⟩
      · refine ⟨x.within z.lost.work, by rw [scope?_put_of_ne _ hij, hx]; rfl,
          fun hopen => ⟨hopen, nodes_within fun r hr => ?_⟩⟩
        rwa [Scope.committed_lost, database_of_scope? hz, ← database_of_scope? hx]
  | shutdown =>
      rcases s.shutdown_cases with ⟨hfree, heq⟩ | heq <;> rw [heq]
      · refine ⟨x.within s.settled.shared, by rw [scope?_settled, hx]; rfl,
          fun hopen => ⟨hopen, nodes_within fun r hr => ?_⟩⟩
        rwa [database_of_scope? hx] at hr
      · exact ⟨x, hx, fun hopen => ⟨hopen, fun r hr => hr⟩⟩

theorem Good.sees_happenings {ms : List Happening} (hs : s.Good) (hms : s.Happenings ms s')
    (hx : s.scope? i = some x) : ∃ y, s'.scope? i = some y ∧
    (y.closed = false → x.closed = false ∧
      ∀ r ∈ x.work.view.nodes, r ∈ y.work.view.nodes) := by
  suffices s'.Good ∧ _ from this.2
  induction hms with
  | nil => exact ⟨hs, x, hx, fun hopen => ⟨hopen, fun r hr => hr⟩⟩
  | snoc _ hm ih =>
      obtain ⟨hgood, y, hy, hsees⟩ := ih
      obtain ⟨z, hz, hsees'⟩ := hgood.sees_happens hm hy
      refine ⟨hgood.happens hm, z, hz, fun hopen => ?_⟩
      obtain ⟨hopen, hlater⟩ := hsees' hopen
      obtain ⟨hopen, hbefore⟩ := hsees hopen
      exact ⟨hopen, fun r hr => hlater r (hbefore r hr)⟩

end OpenStore

namespace Files

variable {p p' : Files} {log : List FileChange}

/-- Whether tables are sound and values go with their datatypes in them, and in all that a store
has to do with that is open on them. -/
def Typed (W : LiteralValue → String → Prop) : Files → Prop
  | closed tables _ => tables.Sound ∧ tables.Typed W
  | opened s => s.Good ∧ s.Typed W

theorem Typed.step {change : FileChange} (h : p.Typed W) (hstep : p.Step change p')
    (hasked : ∀ c ∈ change.call?, ∀ literal ∈ c.asked, Askable W literal) : p'.Typed W := by
  cases hstep with
  | opening config labelStart =>
      exact ⟨OpenStore.good_opened config h.1 _ labelStart,
        OpenStore.typed_opened config h.2 _ labelStart⟩
  | work hm => exact ⟨h.1.happens hm, h.2.happens h.1 hm hasked⟩
  | leaving => exact ⟨h.1.sound, h.2.committed⟩
  | replaced => exact h

theorem Typed.run (h : p.Typed W) (hrun : p.Run log p')
    (hasked : ∀ change ∈ log, ∀ c ∈ change.call?, ∀ literal ∈ c.asked, Askable W literal) :
    p'.Typed W := by
  induction hrun with
  | nil => exact h
  | snoc _ hstep ih =>
      rw [List.forall_mem_append, List.forall_mem_singleton] at hasked
      exact (ih hasked.1).step hstep hasked.2

theorem typed_empty (registryFile : RegistryFile) : (closed {} registryFile).Typed W :=
  ⟨Tables.sound_empty, Tables.typed_empty⟩

end Files
end QuadStore
