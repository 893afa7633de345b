import QuadStore.Proofs.UncachedCalls
import QuadStore.Proofs.Undoing

namespace QuadStore

open Transaction

theorem Registry.strategy_make (config : Config) :
    (Registry.make config).strategy = config.registry := by
  unfold Registry.make
  cases config.registry <;> rfl

theorem Registry.Loses.eq_of_kept {r r' : Registry} (h : r.Loses r')
    (hkept : r.strategy ≠ .cache) :
    r' = r := by
  cases h with
  | nothing => rfl
  | cached => exact absurd rfl hkept

theorem Transaction.Scope.ready_within {x : Scope} {w : Workspace}
    (hx : x.work.Ready) (hw : w.Ready) (hgood : (x.within w).work.Good)
    (hsees : w.database.committed = x.work.database.committed ∨ x.work.conn.writing = false) :
    (x.within w).work.Ready := by
  rcases hsees with hsame | hidle
  · have hview := Scope.view_within_of_eq hsame
    refine ⟨hgood, hw.nodeCounter, hw.registry, hw.committed, ?_, hw.caches, ?_, ?_, ?_⟩
    · exact hview ▸ hx.view
    · exact hview ▸ hx.freshNodes
    · exact hview ▸ hx.freshStatements
    · rw [hview]
      exact hsame ▸ hx.kept
  · obtain ⟨hnodes, hstatements⟩ := hx.coherent.idle hidle
    have hpending : x.work.conn.pending = none := by simpa [Connection.writing] using hidle
    exact Workspace.ready_of_idle hgood hpending hnodes hstatements hw.nodeCounter hw.registry
      hw.committed hw.caches

namespace OpenStore

variable {s s' t t' : OpenStore} {i j : Nat} {x x' y y' : Scope}

/-- Whether two stores are in order and differ in nothing but what is cached. -/
structure LikeStore (s s' : OpenStore) : Prop where
  left : s.Good
  right : s'.Good
  shared : Like s.shared s'.shared
  begun : s'.transactions.length = s.transactions.length
  scopes : ∀ i x x', s.scope? i = some x → s'.scope? i = some x' → LikeScope x x'

theorem exists_scope? (h : i < s.transactions.length) : ∃ x, s.scope? i = some x :=
  ⟨_, by rw [scope?, List.getElem?_eq_getElem h, Option.map_some]⟩

theorem within_shared (hx : s.scope? i = some x) : x.within s.shared = x := by
  obtain ⟨t, -, rfl⟩ := Option.map_eq_some_iff.mp hx
  rfl

theorem Good.ready_shared (hs : s.Good) (hcounter : 0 ≤ s.store.counters.nodes)
    (hregistry : s.store.registry.strategy ≠ .cache) (hwritten : s.database.committed.Written)
    (hcaches : s.store.caches.Faithful s.database.committed) (transaction : Int) :
    { s.shared with conn := { transaction } : Workspace }.Ready :=
  Workspace.ready_of_idle
    (Workspace.good_of_idle hs.counter hs.sound hs.caches rfl rfl rfl) rfl rfl rfl
    hcounter hregistry hwritten hcaches

namespace LikeStore

variable (h : LikeStore s s')

include h

theorem symm : LikeStore s' s := by
  refine ⟨h.right, h.left, h.shared.symm, h.begun.symm, fun i x x' hx hx' => ?_⟩
  obtain ⟨hwork, hchanges, hclosed⟩ := h.scopes i x' x hx' hx
  exact ⟨hwork.symm, hchanges.symm, hclosed.symm⟩

theorem exists_scope (hx : s.scope? i = some x) :
    ∃ x', s'.scope? i = some x' ∧ LikeScope x x' := by
  obtain ⟨x', hx'⟩ := exists_scope? (h.begun ▸ scope?_eq_some hx)
  exact ⟨x', hx', h.scopes i x x' hx hx'⟩

theorem within (ht : t.Good) (ht' : t'.Good) (hshared : Like t.shared t'.shared)
    (hx : s.scope? i = some x) (hx' : s'.scope? i = some x')
    (hy : t.scope? i = some (x.within t.shared)) (hy' : t'.scope? i = some (x'.within t'.shared))
    (hsees : t.database.committed = s.database.committed ∨ x.work.conn.writing = false) :
    LikeScope (x.within t.shared) (x'.within t'.shared) := by
  have hlike := h.scopes i x x' hx hx'
  have hsees' : t'.database.committed = s'.database.committed ∨ x'.work.conn.writing = false := by
    have hbefore : s'.database = s.database := h.shared.committed
    have hafter : t'.database = t.database := hshared.committed
    rwa [hbefore, hafter, hlike.work.writing]
  rw [← database_of_scope? hx] at hsees
  rw [← database_of_scope? hx'] at hsees'
  refine ⟨⟨?_, ?_, ?_⟩, hlike.changes, hlike.closed⟩
  · exact Scope.ready_within hlike.work.left hshared.left (ht.scopes i _ hy).work hsees
  · exact Scope.ready_within hlike.work.right hshared.right (ht'.scopes i _ hy').work hsees'
  · exact congrArg₂ (fun w v : Workspace => { w with conn := v.conn })
      hshared.bare hlike.work.bare

end LikeStore

theorem LikeStore.begin (h : LikeStore s s') : LikeStore s.begin s'.begin := by
  have hgood := h.left.step .begin
  have hgood' := h.right.step .begin
  have ready_begun : ∀ {s : OpenStore}, s.begin.Good → s.shared.Ready → ∀ transaction,
      { s.begin.shared with conn := { transaction } : Workspace }.Ready := fun hgood hready =>
    hgood.ready_shared hready.nodeCounter hready.registry hready.committed hready.caches
  have hbegun : ∀ transaction, Like { s.begin.shared with conn := { transaction } }
      { s'.begin.shared with conn := { transaction } } := fun transaction =>
    ⟨ready_begun hgood h.shared.left transaction, ready_begun hgood' h.shared.right transaction,
      congrArg (fun w : Workspace => { w with
        store.counters := w.store.counters.next .transactions, conn.transaction := transaction })
        h.shared.bare⟩
  refine ⟨hgood, hgood', hbegun 0, ?_, ?_⟩
  · rw [transactions_begin, transactions_begin, List.length_append, List.length_append, h.begun]
    rfl
  · have hlength := h.begun
    have hcounters : s'.store.counters = s.store.counters := h.shared.counters
    intro i x x' hx hx'
    rcases scope?_begin hx with ⟨y, hy, rfl⟩ | ⟨hnew, rfl⟩ <;>
      rcases scope?_begin hx' with ⟨y', hy', rfl⟩ | ⟨hnew', rfl⟩
    · exact h.within hgood hgood' (hbegun 0) hy hy' hx hx' (.inl rfl)
    · have hlt := scope?_eq_some hy
      omega
    · have hlt := scope?_eq_some hy'
      omega
    · rw [hcounters]
      exact ⟨hbegun _, rfl, rfl⟩

theorem LikeStore.loses {store : Store} (h : LikeStore s s') (hloses : s'.store.Loses store) :
    LikeStore s (s'.withStore store) := by
  have hgood := h.right.loses hloses
  have hready := h.shared.right
  obtain ⟨hcaches, hregistry⟩ := hloses
  obtain rfl := hregistry.eq_of_kept hready.registry
  have hshared : Like s.shared (s'.withStore { s'.store with caches := _ }).shared :=
    ⟨h.shared.left, hgood.ready_shared hready.nodeCounter hready.registry hready.committed
      (hready.caches.of_partOf hcaches) 0, h.shared.bare⟩
  refine ⟨h.left, hgood, hshared, h.begun, fun i x x' hx hx' => ?_⟩
  have hsame := within_shared hx
  obtain ⟨y, hy, rfl⟩ := of_scope?_withStore hx'
  rw [← hsame] at hx ⊢
  exact h.within h.left hgood hshared (hsame ▸ hx) hy hx hx' (.inl rfl)

theorem LikeStore.call (h : LikeStore s s') (hx : s.scope? i = some x)
    (hx' : s'.scope? i = some x')
    {c : Call} (hy : LikeScope (finalState (c.run x)) (finalState (c.run x'))) :
    LikeStore (s.put i (finalState (c.run x))) (s'.put i (finalState (c.run x'))) := by
  have hgood := h.left.step (.call c hx)
  have hgood' := h.right.step (.call c hx')
  have ready_put : ∀ {s : OpenStore} {y : Scope}, (s.put i y).Good → y.work.Ready →
      (s.put i y).shared.Ready := fun hgood hready =>
    hgood.ready_shared hready.nodeCounter hready.registry hready.committed hready.caches 0
  have hshared : Like (s.put i (finalState (c.run x))).shared
      (s'.put i (finalState (c.run x'))).shared :=
    ⟨ready_put hgood hy.work.left, ready_put hgood' hy.work.right,
      congrArg (fun w : Workspace => { w with conn := { transaction := 0 } }) hy.work.bare⟩
  refine ⟨hgood, hgood', hshared, ?_, fun j z z' hz hz' => ?_⟩
  · show (s'.transactions.set i _).length = (s.transactions.set i _).length
    rw [List.length_set, List.length_set, h.begun]
  · rcases scope?_put_eq_some hx hz with ⟨rfl, rfl⟩ | ⟨hji, u, hu, rfl⟩ <;>
      rcases scope?_put_eq_some hx' hz' with ⟨hji', rfl⟩ | ⟨hji', u', hu', rfl⟩
    · exact hy
    · exact absurd rfl hji'
    · exact absurd hji' hji
    · refine h.within hgood hgood' hshared hu hu' hz hz' ?_
      -- The committed tables only change when the transaction ends that writes.
      cases hwriting : x.work.conn.writing with
      | false => exact .inl (committed_of_idle hx hwriting c)
      | true => exact .inr (h.left.others_idle hx hwriting hu hji)

/-- Two stores are alike that have just been opened on the same tables. -/
theorem like_opened {config : Config} (hregistry : config.registry ≠ .cache) {tables : Tables}
    (hsound : tables.Sound) (hwritten : tables.Written) (registryFile : RegistryFile)
    (labelStart : String) : LikeStore (opened config tables registryFile labelStart)
      (opened config tables registryFile labelStart) := by
  have hgood := good_opened config hsound registryFile labelStart
  have hcounter : 0 ≤ (opened config tables registryFile labelStart).store.counters.nodes := by
    refine le_trans (Tables.greatestId_nonneg fun id hid => ?_) (le_max_right _ _)
    obtain ⟨r, hr, rfl⟩ := List.mem_map.mp hid
    exact hwritten.nonneg r (tables.nodes_prepare ▸ hr)
  refine ⟨hgood, hgood, .refl (hgood.ready_shared hcounter ?_ ?_ (.make _) 0),
    rfl, by rintro i x x' ⟨⟩⟩
  · exact (Registry.strategy_make config).symm ▸ hregistry
  · exact hwritten.of_eq tables.nodes_prepare tables.statements_prepare

end OpenStore
end QuadStore
