import QuadStore.Proofs.SharedFiles
import QuadStore.Proofs.ToldResources

/-!
Nodes that several stores create on the same files. A store finds the resources that another one
has committed, but it counts the ids of its new nodes on its own. Main statement: a resource is
created, and answered with the id of its one row, if it has a row already or the next id of the
store is not taken; it is refused where neither is so.
-/

namespace QuadStore

open Transaction

namespace Transaction.Scope

variable {x : Scope} {w : Workspace}

theorem tells_within (hx : x.work.Tells) (hcommitted : w.database.committed.Tells)
    (hcaches : w.store.caches.Tells w.database.committed)
    (hgrown : ∀ r ∈ x.work.database.committed.nodes, r ∈ w.database.committed.nodes)
    (hcase : w.database.committed = x.work.database.committed ∨ x.work.conn.writing = false) :
    (x.within w).work.Tells := by
  rcases hcase with hsame | hidle
  · have hview := view_within_of_eq hsame
    refine ⟨hview ▸ hx.view, ?_, hcaches, ?_⟩
    · rw [hview]
      exact hsame ▸ hx.nodes
    · rw [hview]
      exact hx.fresh
  · have hview : (x.within w).work.view = w.database.committed := view_within_of_idle hidle
    refine ⟨hview ▸ hcommitted, ?_, hcaches, fun n hn => ?_⟩
    · rw [hview]
      exact fun r hr => hr
    · have hheld := hx.fresh n hn
      rw [Workspace.view_eq_committed hidle] at hheld
      rw [hview]
      exact hheld.mono hgrown

end Transaction.Scope

namespace OpenStore

variable {s s' : OpenStore} {m : Happening} {i : Nat} {x y : Scope}

/-- Whether resources are told by their rows in all that a store has to do with, and no more than
one of its transactions writes. -/
structure Tells (s : OpenStore) : Prop where
  committed : s.database.committed.Tells
  caches : s.store.caches.Tells s.database.committed
  scopes : ∀ i x, s.scope? i = some x → x.work.Tells
  locked : ∀ i x, s.scope? i = some x → x.work.conn.writing = true → s.database.locked = true
  alone : ∀ i x j y, s.scope? i = some x → s.scope? j = some y → x.work.conn.writing = true →
    y.work.conn.writing = true → i = j

/-- Whether no transaction of a store writes. -/
def Idle (s : OpenStore) : Prop :=
  ∀ i x, s.scope? i = some x → x.work.conn.writing = false

theorem Tells.idle_of_free (hs : s.Tells) (hfree : s.database.locked = false) : s.Idle := by
  intro i x hx
  by_contra hwriting
  rw [hs.locked i x hx (eq_true_of_ne_false hwriting)] at hfree
  cases hfree

/-- What a transaction leaves of that which it has done something with. It has gone on, or it has
ended and has written what it saw if it held the lock. -/
structure Leaves (x y : Scope) : Prop where
  work : y.work.Tells
  committed : y.work.database.committed.Tells
  grown : ∀ r ∈ x.work.database.committed.nodes, r ∈ y.work.database.committed.nodes
  changed : x.work.conn.writing = true ∨ y.work.database.committed = x.work.database.committed
  lock : y.work.conn.writing = x.work.conn.writing ∧
    y.work.database.locked = x.work.database.locked ∨
    x.work.conn.writing = false ∧ x.work.database.locked = false ∧
      y.work.conn.writing = true ∧ y.work.database.locked = true ∨
    y.work.conn.writing = false ∧
      y.work.database.locked = (!x.work.conn.writing && x.work.database.locked)

theorem Tells.others_idle (hs : s.Tells) (hx : s.scope? i = some x)
    (hwriting : x.work.conn.writing = true) {j : Nat} {z : Scope} (hz : s.scope? j = some z)
    (hne : j ≠ i) : z.work.conn.writing = false := by
  by_contra hz'
  exact hne (hs.alone j z i x hz hx (eq_true_of_ne_false hz') hwriting)

theorem Tells.put (hs : s.Tells) (hx : s.scope? i = some x) (h : Leaves x y) :
    (s.put i y).Tells := by
  have hdatabase : ∀ {j z}, s.scope? j = some z → z.work.database = x.work.database := fun hz =>
    (database_of_scope? hz).trans (database_of_scope? hx).symm
  -- If another transaction writes then this one does not, and it leaves the lock.
  have beside : ∀ {j z}, s.scope? j = some z → j ≠ i → z.work.conn.writing = true →
      y.work.conn.writing = false ∧ y.work.database.locked = true := by
    intro j z hz hj hwriting
    have hidle := hs.others_idle hz hwriting hx hj.symm
    have hlocked : x.work.database.locked = true := by
      rw [← hdatabase hz, database_of_scope? hz]
      exact hs.locked j z hz hwriting
    rcases h.lock with ⟨hsame, hlock⟩ | ⟨-, hfree, -⟩ | ⟨hended, hlock⟩
    · exact ⟨hsame.trans hidle, hlock.trans hlocked⟩
    · cases hlocked.symm.trans hfree
    · exact ⟨hended, by rw [hlock, hidle, hlocked]; rfl⟩
  refine ⟨h.committed, h.work.caches, fun j z hz => ?_, fun j z hz hwriting => ?_,
    fun j z k u hz hu hwriting hwriting' => ?_⟩
  · rcases scope?_put_eq_some hx hz with ⟨rfl, rfl⟩ | ⟨hj, z', hz', rfl⟩
    · exact h.work
    · refine Scope.tells_within (hs.scopes j z' hz') h.committed h.work.caches ?_ ?_
      · rw [hdatabase hz']
        exact h.grown
      · rw [hdatabase hz']
        exact h.changed.symm.imp_right fun hwriting => hs.others_idle hx hwriting hz' hj
  · show y.work.database.locked = true
    rcases scope?_put_eq_some hx hz with ⟨rfl, rfl⟩ | ⟨hj, z', hz', rfl⟩
    · rcases h.lock with ⟨hsame, hlock⟩ | ⟨-, -, -, hlocked⟩ | ⟨hended, -⟩
      · rw [hlock, database_of_scope? hx]
        exact hs.locked j x hx (hsame ▸ hwriting)
      · exact hlocked
      · cases hwriting.symm.trans hended
    · exact (beside hz' hj hwriting).2
  · rcases scope?_put_eq_some hx hz with ⟨rfl, rfl⟩ | ⟨hj, z', hz', rfl⟩ <;>
      rcases scope?_put_eq_some hx hu with ⟨rfl, rfl⟩ | ⟨hk, u', hu', rfl⟩
    · rfl
    · cases hwriting.symm.trans (beside hu' hk hwriting').1
    · cases hwriting'.symm.trans (beside hz' hj hwriting).1
    · exact hs.alone j z' k u' hz' hu' hwriting hwriting'

/-- What is left when a store begins transactions, forgets what is cached, or finds more rows
committed while none of its transactions writes. -/
structure Renews (s s' : OpenStore) : Prop where
  committed : s'.database.committed.Tells
  caches : s'.store.caches.Tells s'.database.committed
  grown : ∀ r ∈ s.database.committed.nodes, r ∈ s'.database.committed.nodes
  changed : s.Idle ∨ s'.database = s.database
  scopes : ∀ i x, s'.scope? i = some x → (∃ x', s.scope? i = some x' ∧ x = x'.within s'.shared) ∨
    x.work.conn.pending = none ∧ x.work.conn.freshNodes = []

theorem Renews.writing (h : Renews s s') (hx : s'.scope? i = some x)
    (hwriting : x.work.conn.writing = true) :
    s'.database = s.database ∧ ∃ x', s.scope? i = some x' ∧ x'.work.conn.writing = true := by
  rcases h.scopes i x hx with ⟨x', hx', rfl⟩ | ⟨hpending, -⟩
  · have hbusy : ¬ s.Idle := fun hidle =>
      Bool.false_ne_true ((hidle i x' hx').symm.trans hwriting)
    exact ⟨h.changed.resolve_left hbusy, x', hx', hwriting⟩
  · simp [Connection.writing, hpending] at hwriting

theorem Tells.renew (hs : s.Tells) (h : Renews s s') : s'.Tells := by
  refine ⟨h.committed, h.caches, fun i x hx => ?_, fun i x hx hwriting => ?_,
    fun i x j y hx hy hwriting hwriting' => ?_⟩
  · rcases h.scopes i x hx with ⟨x', hx', rfl⟩ | ⟨hpending, hfresh⟩
    · refine Scope.tells_within (hs.scopes i x' hx') h.committed h.caches ?_ ?_
      · rw [database_of_scope? hx']
        exact h.grown
      · rw [database_of_scope? hx']
        exact h.changed.symm.imp (congrArg Database.committed) (· i x' hx')
    · have hview : x.work.view = s'.database.committed := by
        rw [Workspace.view_eq_committed (by simp [Connection.writing, hpending]),
          database_of_scope? hx]
      refine ⟨hview ▸ h.committed, ?_, ?_, by simp [hfresh]⟩
      · rw [hview, database_of_scope? hx]
        exact fun r hr => hr
      · rw [store_of_scope? hx, database_of_scope? hx]
        exact h.caches
  · obtain ⟨hsame, x', hx', hwriting'⟩ := h.writing hx hwriting
    rw [hsame]
    exact hs.locked i x' hx' hwriting'
  · obtain ⟨-, x', hx', hxw⟩ := h.writing hx hwriting
    obtain ⟨-, y', hy', hyw⟩ := h.writing hy hwriting'
    exact hs.alone i x' j y' hx' hy' hxw hyw

/-! What calls leave -/

theorem leaves_of_works (hcommitted : x.work.database.committed.Tells) (hwork : y.work.Tells)
    (h : Works x.work y.work) : Leaves x y := by
  refine ⟨hwork, h.committed ▸ hcommitted, h.committed ▸ fun r hr => hr, .inr h.committed, ?_⟩
  rcases h.lock with hsame | htaken
  · exact .inl hsame
  · exact .inr (.inl htaken)

theorem leaves_of_ended (h : Ended x y) (hcommitted : y.work.database.committed.Tells)
    (hcaches : y.work.store.caches.Tells y.work.database.committed)
    (hgrown : ∀ r ∈ x.work.database.committed.nodes, r ∈ y.work.database.committed.nodes)
    (hchanged : x.work.conn.writing = true ∨
      y.work.database.committed = x.work.database.committed) :
    Leaves x y := by
  have hidle : y.work.conn.writing = false := by simp [Connection.writing, h.pending]
  have hview := Workspace.view_eq_committed hidle
  refine ⟨⟨hview ▸ hcommitted, ?_, hcaches, by simp [h.freshNodes]⟩, hcommitted, hgrown, hchanged,
    .inr (.inr ⟨hidle, h.locked⟩)⟩
  rw [hview]
  exact fun r hr => hr

theorem leaves_finished (hx : x.work.Tells) (hopen : x.closed = false) : Leaves x x.finished := by
  have h := Scope.finished_spec hopen
  have hcaches : (x.work.conn.publishTo x.work.store.caches).Tells x.work.view :=
    (hx.caches.mono hx.nodes).publishTo hx.fresh
  refine leaves_of_ended h.toEnded (hx.view.of_eq h.nodes) ?_ ?_ h.changed
  · exact hcaches.mono fun r hr => h.nodes ▸ hr
  · rw [h.nodes]
    exact hx.nodes

theorem leaves_abandoned (hx : x.work.Tells) (hcommitted : x.work.database.committed.Tells) :
    Leaves x x.abandoned := by
  have h := x.abandoned_spec
  exact leaves_of_ended h.toEnded hcommitted (hx.caches.discardFrom _) (fun r hr => hr) (.inr rfl)

theorem leaves_lost (hx : x.work.Tells) (hcommitted : x.work.database.committed.Tells) :
    Leaves x x.lost := by
  refine ⟨⟨?_, ?_, ?_, ?_⟩, ?_, ?_, .inr Scope.committed_lost, .inr (.inr ?_)⟩
  · rwa [Scope.view_lost]
  · rw [Scope.view_lost, Scope.committed_lost]
    exact fun r hr => hr
  · rw [Scope.work_lost]
    exact hx.caches
  · simp [Scope.work_lost]
  · rwa [Scope.committed_lost]
  · rw [Scope.committed_lost]
    exact fun r hr => hr
  · rw [Scope.work_lost]
    exact ⟨rfl, rfl⟩

theorem Tells.leaves_call (hs : s.Tells) (hx : s.scope? i = some x) (c : Call) :
    Leaves x (finalState (c.run x)) := by
  have hwork := hs.scopes i x hx
  have hcommitted : x.work.database.committed.Tells := database_of_scope? hx ▸ hs.committed
  cases hopen : x.closed with
  | true =>
      rw [c.run_of_closed hopen]
      exact leaves_of_works hcommitted hwork (refl _)
  | false =>
      cases hends : c.ends with
      | false =>
          exact leaves_of_works hcommitted ((Call.keeps (R := Telling) hends x).tells hwork)
            (Call.advances hends x).works
      | true =>
          rcases Call.finished_or_abandoned hends hopen with heq | heq <;> rw [heq]
          · exact leaves_finished hwork hopen
          · exact leaves_abandoned hwork hcommitted

/-! What happens to a store -/

theorem Tells.loses {store : Store} (hs : s.Tells) (h : s.store.Loses store) :
    Renews s (s.withStore store) := by
  obtain ⟨hcaches, hregistry⟩ := h
  refine ⟨hs.committed, hs.caches.of_partOf hcaches, fun r hr => hr, .inr rfl, fun i x hx => ?_⟩
  obtain ⟨x', hx', rfl⟩ := of_scope?_withStore hx
  exact .inl ⟨x', hx', rfl⟩

theorem Tells.happens_cases (hs : s.Tells) (h : s.Happens m s') :
    (∃ i x y, s.scope? i = some x ∧ Leaves x y ∧ s' = s.put i y) ∨
      Renews s s' ∧ (s'.database = s.database ∨ s.database.locked = false) := by
  cases h with
  | step hstep =>
      cases hstep with
      | begin =>
          refine .inr ⟨⟨hs.committed, hs.caches, fun r hr => hr,
            .inr rfl, fun i x hx => ?_⟩, .inl rfl⟩
          rcases scope?_begin hx with ⟨x', hx', rfl⟩ | ⟨-, rfl⟩
          · exact .inl ⟨x', hx', rfl⟩
          · exact .inr ⟨rfl, rfl⟩
      | clearCaches => exact .inr ⟨hs.loses (.clearCaches _), .inl rfl⟩
      | evict hevicts => exact .inr ⟨hs.loses hevicts.loses, .inl rfl⟩
      | call c hx => exact .inl ⟨_, _, _, hx, hs.leaves_call hx c, rfl⟩
  | lost hx =>
      rename_i x
      have hcommitted : x.work.database.committed.Tells := database_of_scope? hx ▸ hs.committed
      exact .inl ⟨_, x, _, hx, leaves_lost (hs.scopes _ x hx) hcommitted, rfl⟩
  | shutdown =>
      rcases s.shutdown_cases with ⟨hfree, heq⟩ | heq <;> rw [heq]
      · exact .inr ⟨⟨hs.committed.of_eq rfl, .clear _ _, fun r hr => hr,
          .inl (hs.idle_of_free hfree),
          fun i x hx => .inl (scope?_settled_eq_some hx)⟩, .inr hfree⟩
      · refine .inr ⟨⟨hs.committed, hs.caches, fun r hr => hr,
          .inr rfl, fun i x hx => ?_⟩, .inl rfl⟩
        obtain ⟨t, ht, rfl⟩ := Option.map_eq_some_iff.mp hx
        exact .inl ⟨_, hx, rfl⟩

theorem Tells.happens (hs : s.Tells) (h : s.Happens m s') : s'.Tells := by
  rcases hs.happens_cases h with ⟨i, x, y, hx, hleaves, rfl⟩ | ⟨hrenews, -⟩
  · exact hs.put hx hleaves
  · exact hs.renew hrenews

theorem Tells.grown (hs : s.Tells) (h : s.Happens m s') :
    ∀ r ∈ s.database.committed.nodes, r ∈ s'.database.committed.nodes := by
  rcases hs.happens_cases h with ⟨i, x, y, hx, hleaves, rfl⟩ | ⟨hrenews, -⟩
  · rw [← database_of_scope? hx]
    exact hleaves.grown
  · exact hrenews.grown

theorem Tells.locked_out (hs : s.Tells) (h : s.Happens m s') (hlocked : s.database.locked = true)
    (hidle : s.Idle) : s'.database = s.database ∧ s'.Idle := by
  rcases hs.happens_cases h with ⟨i, x, y, hx, hleaves, rfl⟩ | ⟨hrenews, hcase⟩
  · have hx_idle := hidle i x hx
    have hx_locked : x.work.database.locked = true := database_of_scope? hx ▸ hlocked
    have hcommitted := hleaves.changed.resolve_left (by simp [hx_idle])
    obtain ⟨hy_idle, hy_locked⟩ : y.work.conn.writing = false ∧
        y.work.database.locked = true := by
      rcases hleaves.lock with ⟨hsame, hlock⟩ | ⟨-, hfree, -⟩ | ⟨hended, hlock⟩
      · exact ⟨hsame.trans hx_idle, hlock.trans hx_locked⟩
      · cases hx_locked.symm.trans hfree
      · exact ⟨hended, by rw [hlock, hx_idle, hx_locked]; rfl⟩
    refine ⟨?_, fun j z hz => ?_⟩
    · show y.work.database = s.database
      rw [← database_of_scope? hx]
      rw [← hx_locked] at hy_locked
      cases hd : y.work.database
      cases hd' : x.work.database
      simp_all
    · rcases scope?_put_eq_some hx hz with ⟨-, rfl⟩ | ⟨-, z', hz', rfl⟩
      · exact hy_idle
      · exact hidle j z' hz'
  · refine ⟨hcase.resolve_right (by simp [hlocked]), fun j z hz => ?_⟩
    by_contra hwriting
    obtain ⟨-, z', hz', hwriting'⟩ := hrenews.writing hz (eq_true_of_ne_false hwriting)
    exact Bool.false_ne_true ((hidle j z' hz').symm.trans hwriting')

/-- A store with the files as another one has left them. -/
def withFiles (s : OpenStore) (database : Database) (registryFile : RegistryFile) : OpenStore :=
  { s with database, registryFile }

theorem scope?_withFiles_eq_some {database : Database} {registryFile : RegistryFile}
    (hx : (s.withFiles database registryFile).scope? i = some x) :
    ∃ x', s.scope? i = some x' ∧ x = x'.within (s.withFiles database registryFile).shared := by
  obtain ⟨t, ht, rfl⟩ := Option.map_eq_some_iff.mp hx
  exact ⟨s.scopeOf t, by rw [scope?, show s.transactions[i]? = some t from ht, Option.map_some],
    rfl⟩

theorem idle_withFiles {database : Database} {registryFile : RegistryFile} (hs : s.Idle) :
    (s.withFiles database registryFile).Idle := by
  intro i x hx
  obtain ⟨x', hx', rfl⟩ := scope?_withFiles_eq_some hx
  exact hs i x' hx'

theorem Tells.withFiles (hs : s.Tells) {database : Database} (registryFile : RegistryFile)
    (hcommitted : database.committed.Tells)
    (hgrown : ∀ r ∈ s.database.committed.nodes, r ∈ database.committed.nodes)
    (hchanged : s.Idle ∨ database = s.database) : (s.withFiles database registryFile).Tells :=
  hs.renew ⟨hcommitted, hs.caches.mono hgrown, hgrown, hchanged,
    fun _ _ hx => .inl (scope?_withFiles_eq_some hx)⟩

end OpenStore

namespace SharedFiles

variable {f f' : SharedFiles} {k j : Nat} {s s' u : OpenStore}

/-- Whether resources are told by their rows for all stores, and no more
than one of these writes. -/
structure Tells (f : SharedFiles) : Prop where
  committed : f.database.committed.Tells
  tenants : ∀ k s, f.tenant? k = some s → s.Tells
  alone : ∀ k s j s', f.tenant? k = some s → f.tenant? j = some s' → ¬ s.Idle → ¬ s'.Idle → k = j

theorem tells_unopened {tables : Tables} (h : tables.Tells) (registryFile : RegistryFile) :
    (⟨{ committed := tables }, registryFile, []⟩ : SharedFiles).Tells :=
  ⟨h, by rintro k s ⟨⟩, by rintro k s j s' ⟨⟩⟩

theorem database_of_tenant? (hs : f.tenant? k = some s) : s.database = f.database :=
  (tenant?_eq_some_iff.mp hs).2.1

theorem tenant?_put (hs : f.tenant? k = some s) (hu : (f.put k s').tenant? j = some u) :
    j = k ∧ u = s' ∨
      j ≠ k ∧ ∃ u', f.tenant? j = some u' ∧ u = u'.withFiles s'.database s'.registryFile := by
  obtain ⟨t, ht, rfl⟩ := Option.map_eq_some_iff.mp hu
  by_cases hj : j = k
  · subst hj
    obtain ⟨hlt, -⟩ := List.getElem?_eq_some_iff.mp (tenant?_eq_some_iff.mp hs).1
    rw [put, List.getElem?_set_self hlt] at ht
    obtain rfl := Option.some.inj ht
    exact .inl ⟨rfl, rfl⟩
  · rw [put, List.getElem?_set_ne (Ne.symm hj)] at ht
    exact .inr ⟨hj, _, by rw [tenant?, ht, Option.map_some], rfl⟩

theorem tenant?_opened {config : Config} {labelStart : String}
    (hu : (f.opened config labelStart).tenant? j = some u) :
    u.transactions = [] ∧ u.database = (f.opened config labelStart).database ∧
        u.store = .make config f.database.committed.prepare labelStart ∨
      ∃ u', f.tenant? j = some u' ∧
      u = u'.withFiles (f.opened config labelStart).database f.registryFile := by
  obtain ⟨t, ht, rfl⟩ := Option.map_eq_some_iff.mp hu
  rw [opened] at ht
  rcases Nat.lt_or_ge j f.tenants.length with hlt | hge
  · rw [List.getElem?_append_left hlt] at ht
    exact .inr ⟨_, by rw [tenant?, ht, Option.map_some], rfl⟩
  · rw [List.getElem?_append_right hge, List.getElem?_singleton] at ht
    split at ht
    · obtain rfl := Option.some.inj ht
      exact .inl ⟨rfl, rfl, rfl⟩
    · cases ht

theorem Tells.opened (hf : f.Tells) (hfree : f.database.locked = false) (config : Config)
    (labelStart : String) : (f.opened config labelStart).Tells := by
  have hcommitted : (f.opened config labelStart).database.committed.Tells :=
    hf.committed.of_eq (Tables.nodes_prepare _)
  have all_idle : ∀ {k s}, f.tenant? k = some s → s.Idle := fun hs =>
    (hf.tenants _ _ hs).idle_of_free (by rw [database_of_tenant? hs, hfree])
  have idle_later : ∀ {k s}, (f.opened config labelStart).tenant? k = some s → s.Idle := by
    intro k s hs
    rcases tenant?_opened hs with ⟨hnone, -⟩ | ⟨s', hs', rfl⟩
    · intro i x hx
      simp [OpenStore.scope?, hnone] at hx
    · exact OpenStore.idle_withFiles (all_idle hs')
  refine ⟨hcommitted, fun k s hs => ?_, fun k s j s' hs _ hbusy => absurd (idle_later hs) hbusy⟩
  rcases tenant?_opened hs with ⟨hnone, hdatabase, hstore⟩ | ⟨s', hs', rfl⟩
  · have hscopes : ∀ i x, s.scope? i ≠ some x := by simp [OpenStore.scope?, hnone]
    refine ⟨hdatabase ▸ hcommitted, ?_, fun i x hx => absurd hx (hscopes i x),
      fun i x hx => absurd hx (hscopes i x), fun i x j y hx => absurd hx (hscopes i x)⟩
    rw [hstore]
    exact .make _ _
  · refine (hf.tenants k s' hs').withFiles f.registryFile hcommitted ?_ (.inl (all_idle hs'))
    rw [database_of_tenant? hs']
    exact fun r hr => Tables.nodes_prepare f.database.committed ▸ hr

theorem Tells.put (hf : f.Tells) {m : Happening}
    (hs : f.tenant? k = some s) (h : s.Happens m s') :
    (f.put k s').Tells := by
  have hs' := (hf.tenants k s hs).happens h
  have hgrown := (hf.tenants k s hs).grown h
  have hdatabase : ∀ {j u}, f.tenant? j = some u → u.database = s.database := fun hu =>
    (database_of_tenant? hu).trans (database_of_tenant? hs).symm
  -- If another store writes then this one is locked out.
  have beside : ∀ {j u}, f.tenant? j = some u → j ≠ k → ¬ u.Idle →
      s'.database = s.database ∧ s'.Idle := by
    intro j u hu hj hbusy
    refine (hf.tenants k s hs).locked_out h ?_ ?_
    · rw [← hdatabase hu]
      by_contra hfree
      exact hbusy ((hf.tenants j u hu).idle_of_free (Bool.eq_false_of_not_eq_true hfree))
    · by_contra hbusy'
      exact hj (hf.alone j u k s hu hs hbusy hbusy')
  refine ⟨hs'.committed, fun j u hu => ?_, fun j u l v hu hv hbusy hbusy' => ?_⟩
  · rcases tenant?_put hs hu with ⟨-, rfl⟩ | ⟨hj, u', hu', rfl⟩
    · exact hs'
    · refine (hf.tenants j u' hu').withFiles _ hs'.committed ?_ ?_
      · rw [hdatabase hu']
        exact hgrown
      · rw [hdatabase hu']
        exact or_iff_not_imp_left.mpr fun hbusy => (beside hu' hj hbusy).1
  · have busy_before : ∀ {u : OpenStore} {d file}, ¬ (u.withFiles d file).Idle →
        ¬ u.Idle := fun hbusy hidle =>
      hbusy (OpenStore.idle_withFiles hidle)
    rcases tenant?_put hs hu with ⟨rfl, rfl⟩ | ⟨hj, u', hu', rfl⟩ <;>
      rcases tenant?_put hs hv with ⟨rfl, rfl⟩ | ⟨hl, v', hv', rfl⟩
    · rfl
    · exact absurd (beside hv' hl (busy_before hbusy')).2 hbusy
    · exact absurd (beside hu' hj (busy_before hbusy)).2 hbusy'
    · exact hf.alone j u' l v' hu' hv' (busy_before hbusy) (busy_before hbusy')

theorem Tells.run (hf : f.Tells) (h : f.Run f') : f'.Tells := by
  induction h with
  | nil => exact hf
  | snoc _ hstep ih =>
      cases hstep with
      | opening config labelStart hfree => exact ih.opened hfree config labelStart
      | work hs hm => exact ih.put hs hm

/-- Any number of stores are opened on the same files and their transactions work in them, in
any order. Who asks for a URI or a blank node while the lock is free, or holding it, is answered
with the id of its one row if it has a row or the next id of the store is not taken, whatever
other stores have committed. If neither is so, because another store has given that id to
another node, who asks is refused. -/
theorem resources_created {tables : Tables} (htells : tables.Tells) {registryFile : RegistryFile}
    (hrun : (⟨{ committed := tables }, registryFile, []⟩ : SharedFiles).Run f)
    (hs : f.tenant? k = some s) {i : Nat} {x : Scope} (hx : s.scope? i = some x)
    (hopen : x.closed = false) (hfree : f.database.locked = false ∨ x.work.conn.writing = true) :
    (∀ uri, Creation (.uri uri) x.work (finalState ((Call.uri uri).run x)).work
      (answerOf ((Call.uri uri).run x))) ∧
    ∀ label, Creation (.blank label) x.work (finalState ((Call.blank (some label)).run x)).work
      (answerOf ((Call.blank (some label)).run x)) := by
  have hwork : x.work.Tells :=
    (((tells_unopened htells registryFile).run hrun).tenants k s hs).scopes i x hx
  rw [← database_of_tenant? hs, ← OpenStore.database_of_scope? hx] at hfree
  exact ⟨fun uri => (Creation.createUri hwork hfree uri).perform hopen,
    fun label => (Creation.createBlank hwork hfree label).perform hopen⟩

/-- A store finds the URI that another one has committed since it was opened. -/
theorem resource_of_other_found :
    let shared := (⟨{}, [], []⟩ : SharedFiles).opened {} "v" |>.opened {} "w" |>.begin 0
      |>.after 0 0 (.uri "urn:a") |>.after 0 0 (.commit none) |>.begin 1
    ∃ s x n, shared.tenant? 1 = some s ∧ s.scope? 0 = some x ∧
      answerOf ((Call.uri "urn:a").run x) = .ok n ∧ n.term = .uri "urn:a" ∧
      (finalState ((Call.uri "urn:a").run x)).work.view.HasOne n := by
  intro shared
  have hrun := Run.nil (f := ⟨{}, [], []⟩) |>.snoc (.opening {} "v" (by decide))
    |>.snoc (.opening {} "w" (by decide +kernel)) |>.begin 0 |>.call 0 0 (.uri "urn:a")
    |>.call 0 0 (.commit none) |>.begin 1
  obtain ⟨s, hs⟩ := Option.isSome_iff_exists.mp (by decide +kernel : (shared.tenant? 1).isSome)
  have hscope : (shared.tenant? 1).all fun s => (s.scope? 0).any fun x =>
      !x.closed && decide (x.work.view.nodes = [.ofNode 1 (.uri "urn:a")]) := by decide +kernel
  rw [hs, Option.all_some, Option.any_eq_true] at hscope
  obtain ⟨x, hx, hscope⟩ := hscope
  rw [Bool.and_eq_true, Bool.not_eq_true', decide_eq_true_iff] at hscope
  have hheld : x.work.view.HoldsNode ⟨1, .uri "urn:a"⟩ :=
    ⟨_, by rw [hscope.2]; exact List.mem_cons_self, Action.holds_ofNode 1 (.uri "urn:a")⟩
  obtain ⟨n, hn⟩ := ((resources_created Tables.tells_empty hrun hs hx hscope.1
    (.inl (by decide +kernel))).1 "urn:a").answered (.inl ⟨1, hheld⟩)
  exact ⟨s, x, n, hs, hx, hn⟩

/-- A store that was opened before another one committed its first node gives a new URI the id
of that, and refuses it. -/
theorem resource_beside_other_refused :
    let shared := (⟨{}, [], []⟩ : SharedFiles).opened {} "v" |>.opened {} "w" |>.begin 0
      |>.after 0 0 (.uri "urn:a") |>.after 0 0 (.commit none) |>.begin 1
    (⟨{}, [], []⟩ : SharedFiles).Run shared ∧ shared.database.locked = false ∧
      ((shared.tenant? 1).bind (·.scope? 0)).map (fun x => answerOf ((Call.uri "urn:b").run x)) =
        some (.error (.data (.unreadableConflict (.uri "urn:b")))) := by
  intro shared
  have hrun := Run.nil (f := ⟨{}, [], []⟩) |>.snoc (.opening {} "v" (by decide))
    |>.snoc (.opening {} "w" (by decide +kernel)) |>.begin 0 |>.call 0 0 (.uri "urn:a")
    |>.call 0 0 (.commit none) |>.begin 1
  exact ⟨hrun, by decide +kernel, by rfl⟩

end SharedFiles
end QuadStore
