import QuadStore.Proofs.Notifications
import QuadStore.Proofs.RegistryEntries
import QuadStore.Proofs.SharedCaches

namespace QuadStore

open Transaction

namespace OpenStore

variable {s s' : OpenStore} {i : Nat} {x y : Scope} {log : List Event} {e : Event}

theorem Step.closed (hstep : s.Step e s') (hx : s.scope? i = some x) (hclosed : x.closed = true) :
    ∃ y, s'.scope? i = some y ∧ y.closed = true := by
  cases hstep with
  | begin => exact ⟨_, scope?_begin_of_some hx, hclosed⟩
  | clearCaches | evict => exact ⟨_, scope?_withStore_of_some hx _, hclosed⟩
  | call c hz =>
      rename_i j z
      by_cases hij : i = j
      · subst hij
        obtain rfl := Option.some.inj (hx.symm.trans hz)
        exact ⟨_, scope?_put_self hx, by rwa [c.run_of_closed hclosed]⟩
      · exact ⟨_, scope?_put_other hx hij, hclosed⟩

/-- Whether a transaction has ended, or holds the write lock while something is so. -/
def EndedOr (s : OpenStore) (number : Nat) (P : Prop) : Prop :=
  ∃ x, s.scope? number = some x ∧ (x.closed = true ∨ x.work.conn.writing = true ∧ P)

theorem Good.step_of_writing (hs : s.Good) (hstep : s.Step e s') (hx : s.scope? i = some x)
    (hwriting : x.work.conn.writing = true) :
    s'.EndedOr i (s'.database.committed = s.database.committed) := by
  cases hstep with
  | begin => exact ⟨_, scope?_begin_of_some hx, .inr ⟨hwriting, rfl⟩⟩
  | clearCaches | evict => exact ⟨_, scope?_withStore_of_some hx _, .inr ⟨hwriting, rfl⟩⟩
  | call c hz =>
      rename_i j z
      by_cases hij : i = j
      · subst hij
        obtain rfl := Option.some.inj (hx.symm.trans hz)
        refine ⟨_, scope?_put_self hx, ?_⟩
        rcases c.run_cases x with
          ⟨hadvances, -⟩ | ⟨refusal, y, rfl, hop, -, hcommitted⟩ | ⟨-, -, habandoned⟩
        · refine .inr ⟨hadvances.works.writing hwriting, ?_⟩
          rw [← database_of_scope? hx]
          exact hadvances.works.committed
        · rw [Call.run, hop]
          exact .inl hcommitted.closed
        · exact .inl habandoned.closed
      · have hidle := hs.others_idle hx hwriting hz (Ne.symm hij)
        exact ⟨_, scope?_put_other hx hij, .inr ⟨hwriting, committed_of_idle hz hidle c⟩⟩

theorem EndedOr.step {P : Tables → Prop} (hs : s.Good) (h : s.EndedOr i (P s.database.committed))
    (hstep : s.Step e s') : s'.EndedOr i (P s'.database.committed) := by
  obtain ⟨x, hx, hclosed | ⟨hwriting, hP⟩⟩ := h
  · obtain ⟨y, hy, hclosed⟩ := hstep.closed hx hclosed
    exact ⟨y, hy, .inl hclosed⟩
  · obtain ⟨y, hy, hlater⟩ := hs.step_of_writing hstep hx hwriting
    refine ⟨y, hy, hlater.imp_right fun ⟨hwriting, hsame⟩ => ⟨hwriting, ?_⟩⟩
    rwa [hsame]

theorem EndedOr.run {P : Tables → Prop} (hs : s.Good) (h : s.EndedOr i (P s.database.committed))
    (hrun : s.Run log s') : s'.EndedOr i (P s'.database.committed) := by
  induction hrun with
  | nil => exact h
  | snoc hrun hstep ih => exact ih.step (hs.run hrun) hstep

theorem EndedOr.of_open {P : Prop} (h : s.EndedOr i P) (hx : s.scope? i = some x)
    (hopen : x.closed = false) : P := by
  obtain ⟨x', hx', hclosed | ⟨-, hP⟩⟩ := h <;> obtain rfl := Option.some.inj (hx.symm.trans hx')
  · cases hopen.symm.trans hclosed
  · exact hP

end OpenStore

/-- Whether a transaction has added a row of the given id to what it sees. -/
def Event.Inserts (number : Nat) (s : Sequence) (id : Int) : Event → Prop
  | .call n before after _ _ => n = number ∧ id ∈ s.ids after ∧ id ∉ s.ids before
  | _ => False

theorem Works.notMem_committed {w w' : Workspace} (h : Works w w')
    (hw : w.Good) (hbound : w.Bound)
    {s : Sequence} {id : Int} (hafter : id ∈ s.ids w'.view) (hbefore : id ∉ s.ids w.view) :
    id ∉ s.ids w'.database.committed := by
  rw [h.committed]
  cases s with
  | nodes =>
      intro hid
      obtain ⟨r, hr, rfl⟩ := List.mem_map.mp hid
      exact hbefore (List.mem_map_of_mem (hw.nodes r hr))
  | statements => exact fun hid => hbefore (hw.evolves.mem_ids hid)
  | namespaces =>
      intro hid
      obtain ⟨r, hr, hsame⟩ := List.mem_map.mp hid
      obtain ⟨r', hr', rfl⟩ := List.mem_map.mp hafter
      rcases h.binds.ids r' hr' with hold | hlt
      · exact hbefore (List.mem_map_of_mem hold)
      · have hle := hbound.committedIds r hr
        omega
  | transactions => exact List.not_mem_nil

namespace OpenStore

variable {s s' : OpenStore} {i : Nat} {x y : Scope} {log : List Event} {e : Event}
variable {seq : Sequence} {id : Int}

theorem Step.inserts (hs : s.Good) (hbound : s.Bound) (hstep : s.Step e s')
    (he : e.Inserts i seq id) : s'.EndedOr i (id ∉ seq.ids s'.database.committed) := by
  cases hstep with
  | begin | clearCaches | evict => exact he.elim
  | call c hx =>
      rename_i j x
      obtain ⟨rfl, hafter, hbefore⟩ := he
      refine ⟨_, scope?_put_self hx, ?_⟩
      rcases c.run_cases x with
        ⟨hadvances, -⟩ | ⟨refusal, y, rfl, hop, -, hcommitted⟩ | ⟨-, -, habandoned⟩
      · have hnew := hadvances.works.notMem_committed (hs.scopes j x hx).work
          (hbound.scopes j x hx) hafter hbefore
        refine .inr ⟨?_, hnew⟩
        by_contra hidle
        rw [Workspace.view_eq_committed (by simpa using hidle)] at hafter
        exact hnew hafter
      · rw [Call.run, hop]
        exact .inl hcommitted.closed
      · exact .inl habandoned.closed

theorem Run.inserts (hs : s.Good) (hbound : s.Bound) (hrun : s.Run log s') (he : e ∈ log)
    (hinserts : e.Inserts i seq id) : s'.EndedOr i (id ∉ seq.ids s'.database.committed) := by
  induction hrun with
  | nil => cases he
  | snoc hrun hstep ih =>
      have hgood := hs.run hrun
      rcases List.mem_append.mp he with he | he
      · exact (ih he).step (P := fun t => id ∉ seq.ids t) hgood hstep
      · obtain rfl := List.mem_singleton.mp he
        exact hstep.inserts hgood (hbound.run hs hrun) hinserts

theorem indexed_run (h : s.store.registry.Indexed) (hkeys : Event.KeepsKeys log)
    (hrun : s.Run log s') : s'.store.registry.Indexed :=
  hrun.registry Registry.stable_indexed hkeys h

/-- Whether a transaction takes the write lock in a step. -/
def TakesLock (s s' : OpenStore) (number : Nat) : Prop :=
  ∃ x y, s.scope? number = some x ∧ x.work.conn.writing = false ∧
    s'.scope? number = some y ∧ y.work.conn.writing = true

/-- What is left of a transaction when the last step of a run has ended it without a commit: it is
closed and keeps nothing, it has no lock, the tables are as before, no row that it has added is
cached, and no listener is told. In the registry the others own what they have owned, and the
transaction owns nothing unless a list of keys has been lost. -/
structure Undone (log : List Event) (s s' : OpenStore) (number : Nat) (x : Scope) : Prop where
  committed : s'.database.committed = s.database.committed
  scope : ∃ y, s'.scope? number = some y ∧ y.closed = true ∧ y.changes = .empty ∧
    y.work.conn = { transaction := x.work.conn.transaction }
  locked : s'.database.locked = (!x.work.conn.writing && s.database.locked)
  others : ∀ key transaction id, transaction ≠ x.work.conn.transaction →
    (s'.store.registry.Owns s'.registryFile key transaction id ↔
      s.store.registry.Owns s.registryFile key transaction id)
  owned : Event.KeepsKeys log →
    ∀ key id, ¬ s'.store.registry.Owns s'.registryFile key x.work.conn.transaction id
  caches : ∀ e ∈ log, ∀ seq id, e.Inserts number seq id → ¬ s'.store.caches.HoldsId id seq
  events : s'.store.events = s.store.events

theorem Step.abandoned {before after : Tables} {c : Call} {answer : Except StoreError c.Answer}
    (hstep : s.Step (.call i before after c answer) s') (hx : s.scope? i = some x)
    (hopen : x.closed = false) (hends : c.ends = true)
    (huncommitted : (Event.call i before after c answer).committed? = none) :
    ∃ y, s' = s.put i y ∧ Abandoned x y := by
  cases hstep with
  | call _ hz =>
      obtain rfl := Option.some.inj (hx.symm.trans hz)
      refine ⟨_, rfl, ?_⟩
      cases c with
      | commit refusal =>
          rcases finish_cases refusal x with
            ⟨y, hop, -⟩ | ⟨e, y, hop, -, habandoned⟩ | ⟨-, hclosed⟩
          · rw [Call.run, hop] at huncommitted
            cases huncommitted
          · rwa [Call.run, hop]
          · cases hopen.symm.trans hclosed
      | rollback =>
          rcases rollback_cases x with ⟨y, hop, -, habandoned⟩ | ⟨-, hclosed⟩
          · rwa [Call.run, hop]
          · cases hopen.symm.trans hclosed
      | drop =>
          rcases drop_cases x with ⟨y, hop, -, habandoned⟩ | ⟨-, hclosed⟩
          · rwa [Call.run, hop]
          · cases hopen.symm.trans hclosed
      | _ => cases hends

theorem registry_put_abandoned (hx : s.scope? i = some x) (h : Abandoned x y) :
    (s.put i y).store.registry =
      (s.store.registry.release s.registryFile x.work.conn.transaction).1 := by
  obtain ⟨t, -, rfl⟩ := Option.map_eq_some_iff.mp hx
  exact (Prod.mk.inj h.registry).1

theorem registryFile_put_abandoned (hx : s.scope? i = some x) (h : Abandoned x y) :
    (s.put i y).registryFile =
      (s.store.registry.release s.registryFile x.work.conn.transaction).2 := by
  obtain ⟨t, -, rfl⟩ := Option.map_eq_some_iff.mp hx
  exact (Prod.mk.inj h.registry).2

theorem Undone.of_abandoned (hx : s.scope? i = some x) (h : Abandoned x y)
    (hindexed : Event.KeepsKeys log → s.store.registry.Indexed)
    (hcaches : ∀ e ∈ log, ∀ seq id, e.Inserts i seq id → ¬ y.work.store.caches.HoldsId id seq) :
    Undone log s (s.put i y) i x where
  committed := h.committed.trans (congrArg Database.committed (database_of_scope? hx))
  scope := ⟨y, scope?_put_self hx, h.closed, h.changes, h.conn⟩
  locked := by
    rw [← database_of_scope? hx]
    exact h.locked
  others key transaction id hne := by
    rw [registry_put_abandoned hx h, registryFile_put_abandoned hx h]
    exact Registry.owns_release_iff_of_ne hne
  owned hkeys key id := by
    rw [registry_put_abandoned hx h, registryFile_put_abandoned hx h]
    exact fun howns => ((hindexed hkeys).owns_release_iff.mp howns).2 rfl
  caches := hcaches
  events := h.events.trans (congrArg Store.events (store_of_scope? hx))

theorem TakesLock.endedOr (htakes : s.TakesLock s' i) (hstep : s.Step e s') :
    s'.EndedOr i (s'.database.committed = s.database.committed) := by
  obtain ⟨x, y, hx, hidle, hy, hwriting⟩ := htakes
  refine ⟨y, hy, .inr ⟨hwriting, ?_⟩⟩
  cases hstep with
  | begin | clearCaches | evict => rfl
  | call c hz =>
      rename_i j z
      by_cases hij : i = j
      · subst hij
        obtain rfl := Option.some.inj (hx.symm.trans hz)
        exact committed_of_idle hx hidle c
      · obtain rfl := Option.some.inj (hy.symm.trans (scope?_put_other hx hij))
        cases hidle.symm.trans hwriting

variable {config : Config} {tables : Tables} {registryFile : RegistryFile} {labelStart : String}

/-- When an open transaction ends without a commit, after whatever run, nothing is left of what it
has done, and the committed tables are those from before it took the write lock. Only a registry
that has lost lists of keys may still name it as an owner. -/
theorem undone (hsound : tables.Sound) (honce : tables.BindsOnce)
    (hrun : (opened config tables registryFile labelStart).Run log s) (hx : s.scope? i = some x)
    (hopen : x.closed = false) {before after : Tables} {c : Call}
    {answer : Except StoreError c.Answer}
    (hstep : s.Step (.call i before after c answer) s') (hends : c.ends = true)
    (huncommitted : (Event.call i before after c answer).committed? = none) :
    Undone log s s' i x ∧
      ∀ s₁ s₂ log₁ log₂ e, (opened config tables registryFile labelStart).Run log₁ s₁ →
        s₁.Step e s₂ → s₂.Run log₂ s → s₁.TakesLock s₂ i →
          s'.database.committed = s₁.database.committed := by
  have hstart := good_opened config hsound registryFile labelStart
  have hbound := bound_opened config honce registryFile labelStart
  obtain ⟨y, rfl, habandoned⟩ := hstep.abandoned hx hopen hends huncommitted
  have hcommitted : (s.put i y).database.committed = s.database.committed :=
    habandoned.committed.trans (congrArg Database.committed (database_of_scope? hx))
  constructor
  · refine .of_abandoned hx habandoned (indexed_run (Registry.indexed_make config) · hrun) ?_
    intro e he seq id hinserts hcached
    have hnew := (Run.inserts hstart hbound hrun he hinserts).of_open hx hopen
    refine hnew (hcommitted ▸ Caches.mem_ids_of_holdsId ?_ ?_ hcached)
    · exact ((hstart.run hrun).put_abandoned hx habandoned).caches
    · exact ((hbound.run hstart hrun).step (hstart.run hrun) hstep).shared.caches
  · intro s₁ s₂ log₁ log₂ e hrun₁ htaking hrun₂ htakes
    have hgood := hstart.run hrun₁
    refine hcommitted.trans ?_
    exact ((htakes.endedOr htaking).run (P := fun t => t = s₁.database.committed)
      (hgood.step htaking) hrun₂).of_open hx hopen

/-- A transaction that has added a statement and a prefix is given up by a
commit that is refused. -/
theorem undone_refused :
    let a : Node := .uri "urn:a"
    let s := (opened {} {} [] "w").begin.begin
    let s' := s |>.after 0 (.add a a a none) |>.after 0 (.setNamespace "a" "urn:a")
    let s'' := s'.after 0 (.commit (some .locked))
    s''.database.committed = s.database.committed ∧
      ∃ log x, s'.scope? 0 = some x ∧ x.work.conn.writing = true ∧ Undone log s' s'' 0 x := by
  intro a s s' s''
  have hbegun := Run.nil (s := opened {} {} [] "w") |>.snoc .begin |>.snoc .begin
  have htaking : s.Step _ (s.after 0 (.add a a a none)) := .call (.add a a a none) rfl
  have hrest := Run.nil (s := s.after 0 (.add a a a none)) |>.call 0 (.setNamespace "a" "urn:a")
  have hstep : s'.Step _ s'' := .call (.commit (some .locked)) rfl
  obtain ⟨hundone, hcommitted⟩ := undone Tables.sound_empty (by rintro r ⟨⟩)
    ((hbegun.snoc htaking).append hrest) rfl rfl hstep rfl rfl
  exact ⟨hcommitted _ _ _ _ _ hbegun htaking hrest ⟨_, _, rfl, rfl, rfl, rfl⟩,
    _, _, rfl, rfl, hundone⟩

theorem Step.evict_registered {r : CachedRegistry} {known : Bool} (gone : Int → Bool)
    (hr : s.store.registry = .cached r known)
    (hroom : r.registered.policy.maxEntries ≤ (r.registered.evict gone).size) :
    s.Step (.evict .registered) (s.withStore { s.store with
      registry := .cached { r with registered := r.registered.evict gone } known }) :=
  .evict (.registered hr (.crowded gone hroom))

/-- A registry in caches that have room for one entry each. -/
def crowdedConfig : Config :=
  { registry := .cache, cache := { registry := ⟨1, 0⟩ } }

/-- Two transactions ask for one statement, and the keys of the first one are lost since there is
no room for both lists. When it is rolled back it still owns the entry of the statement. -/
theorem owner_left_by_lost_keys :
    crowdedConfig.validate = .ok () ∧
      ∃ log s x y, (opened crowdedConfig {} [] "w").Run log s ∧ s.scope? 1 = some x ∧
        x.closed = false ∧ Call.rollback.run x = .ok () y ∧
        ∃ key entry, (s.put 1 y).store.registry.HasEntry (s.put 1 y).registryFile key entry ∧
          x.work.conn.transaction ∈ entry.owners := by
  let a : Node := ⟨1, .uri "urn:a"⟩
  have hrun := Run.nil (s := opened crowdedConfig {} [] "w") |>.snoc .begin
    |>.call 0 (.uri "urn:a") |>.call 0 (.commit none) |>.snoc .begin |>.snoc .begin
    |>.call 1 (.statement a a a (some a)) |>.call 2 (.statement a a a (some a))
  -- The list of one transaction fills the cache, so that of the other one may go.
  have hlost := hrun.snoc (.evict_registered (· == 2) rfl (by decide +kernel))
  refine ⟨rfl, _, _, _, _, hlost, rfl, rfl, rfl, ⟨1, 1, 1, 1⟩, ⟨1, [2, 3]⟩, ?_, ?_⟩
  · decide +kernel
  · decide

end OpenStore
end QuadStore
