import QuadStore.Proofs.Runs

/-!
What holds of an open store after every run: its tables, caches and accounts are in order, and
only one transaction holds the write lock.
-/

namespace QuadStore

open Transaction

/-! What a call does to its transaction -/

theorem Call.silent {c : Call} (hends : c.ends = false) (hreads : c.changesStatements = false) :
    Keeps (Under Silent) c.run := by
  cases c with
  | uri uri => exact keeps_perform (Action.createUri_silent uri)
  | blank label => exact keeps_perform (Action.createBlank_silent label)
  | literal value => exact keeps_perform (Action.createLiteral_silent value)
  | string content language => exact keeps_perform (Action.createString_silent content language)
  | typed content datatype => exact keeps_perform (Action.createTyped_silent content datatype)
  | list s p o c inferred =>
      exact keeps_perform (Action.listStatements_reads s p o c inferred).silent
  | contains s p o c => exact contains_silent s p o c
  | size context => exact keeps_perform (Action.countStatements_reads context).silent
  | contexts => exact keeps_perform Action.listContexts_reads.silent
  | query q => exact query_silent q
  | fetch count results => exact keeps_perform (Action.fetch_reads count results).silent
  | namespaceByLabel label => exact keeps_perform (Action.loadNamespaceByLabel_reads label).silent
  | namespaceByUri uri => exact keeps_perform (Action.loadNamespaceByUri_reads uri).silent
  | setNamespace label uri => exact setNamespace_silent label uri
  | removeNamespace label => exact removeNamespace_silent label
  | namespaces => exact keeps_perform Action.listNamespaces_reads.silent
  | statement | add | addInferred | remove => cases hreads
  | commit | rollback | drop => cases hends

theorem Call.advances {c : Call} (hends : c.ends = false) : Keeps Advances c.run := by
  cases hreads : c.changesStatements with
  | false => exact Keeps.advances (Call.silent hends hreads)
  | true =>
      cases c with
      | statement s p o c =>
          exact (keeps_perform (Action.createStatement_quiet s p o c)).mono fun _ _ hx =>
            hx.advances
      | add s p o c => exact add_advances s p o c
      | addInferred s p o c => exact addInferred_advances s p o c
      | remove s p o c => exact remove_advances s p o c
      | _ => cases hreads

theorem Call.run_of_closed (c : Call) {x : Scope} (h : x.closed = true) :
    finalState (c.run x) = x := by
  cases c with
  | drop =>
      rcases drop_cases x with ⟨y, -, hopen, -⟩ | ⟨hop, -⟩
      · cases h.symm.trans hopen
      · rw [run, hop]
        rfl
  | _ => exact congrArg finalState (whileOpen_of_closed h)

theorem Call.run_cases (c : Call) (x : Scope) :
    Advances x (finalState (c.run x)) ∧ (c.ends = false ∨ finalState (c.run x) = x) ∨
      (∃ refusal y, c = .commit refusal ∧ finish refusal x = .ok () y ∧ x.closed = false ∧
        Committed x y) ∨
      x.closed = false ∧ c.ends = true ∧ Abandoned x (finalState (c.run x)) := by
  cases hends : c.ends with
  | false => exact .inl ⟨Call.advances hends x, .inl rfl⟩
  | true =>
      cases c with
      | commit refusal =>
          rcases finish_cases refusal x with
            ⟨y, hop, hopen, hcommitted⟩ | ⟨e, y, hop, hopen, habandoned⟩ | ⟨hop, hclosed⟩
          · exact .inr (.inl ⟨refusal, y, rfl, hop, hopen, hcommitted⟩)
          · refine .inr (.inr ⟨hopen, rfl, ?_⟩)
            rwa [run, hop]
          · left
            rw [run, hop]
            exact ⟨refl x, .inr rfl⟩
      | rollback =>
          rcases rollback_cases x with ⟨y, hop, hopen, habandoned⟩ | ⟨hop, hclosed⟩
          · refine .inr (.inr ⟨hopen, rfl, ?_⟩)
            rwa [run, hop]
          · left
            rw [run, hop]
            exact ⟨refl x, .inr rfl⟩
      | drop =>
          rcases drop_cases x with ⟨y, hop, hopen, habandoned⟩ | ⟨hop, hclosed⟩
          · refine .inr (.inr ⟨hopen, rfl, ?_⟩)
            rwa [run, hop]
          · left
            rw [run, hop]
            exact ⟨refl x, .inr rfl⟩
      | _ => cases hends

/-! What other transactions notice of it -/

namespace Transaction.Scope

variable {x : Scope} {w : Workspace}

theorem view_within_of_writing (h : x.work.conn.writing = true) :
    (x.within w).work.view = x.work.view := by
  show x.work.conn.pending.getD w.database.committed = x.work.view
  rw [Workspace.pending_eq h, Option.getD_some]

theorem view_within_of_idle (h : x.work.conn.writing = false) :
    (x.within w).work.view = w.database.committed :=
  Workspace.view_eq_committed h

theorem view_within_of_eq (h : w.database.committed = x.work.database.committed) :
    (x.within w).work.view = x.work.view := by
  show x.work.conn.pending.getD w.database.committed = x.work.view
  rw [h]
  rfl

theorem Good.within (hx : x.Good) (hcommitted : w.database.committed = x.work.database.committed)
    (hcounter : 0 ≤ w.store.counters.statements)
    (hcaches : w.store.caches.Coherent w.database.committed) : (x.within w).Good := by
  have hview := view_within_of_eq hcommitted
  refine ⟨⟨hcounter, hview ▸ hx.work.sound, ?_, ?_,
    ⟨hcaches, ?_, ?_, hx.work.coherent.idle, ?_⟩⟩, ?_⟩
  · rw [hview]
    exact hcommitted ▸ hx.work.nodes
  · rw [hview]
    exact hcommitted ▸ hx.work.evolves
  · rw [hview]
    exact hx.work.coherent.freshNodes
  · rw [hview]
    exact hx.work.coherent.freshStatements
  · rw [hview]
    exact hcommitted ▸ hx.work.coherent.touched
  · rw [hview]
    exact hcommitted ▸ hx.account

theorem Good.within_of_idle (hx : x.Good) (hidle : x.work.conn.writing = false)
    (hcounter : 0 ≤ w.store.counters.statements) (hsound : w.database.committed.Sound)
    (hcaches : w.store.caches.Coherent w.database.committed) : (x.within w).Good := by
  have hpending : x.work.conn.pending = none := by simpa [Connection.writing] using hidle
  obtain ⟨hnodes, hstatements⟩ := hx.work.coherent.idle hidle
  refine ⟨Workspace.good_of_idle hcounter hsound hcaches hpending hnodes hstatements, ?_⟩
  have hchanges : x.changes = .empty :=
    hx.account.eq_empty (by rw [Workspace.view_eq_committed hidle])
  rw [view_within_of_idle hidle]
  show x.changes.IsDifference _ _
  rw [hchanges]
  exact .empty rfl

end Transaction.Scope

/-! Invariants of a store -/

namespace Tables

variable (t : Tables)

theorem nodes_prepare : t.prepare.nodes = t.nodes := by
  unfold prepare
  split <;> rfl

theorem statements_prepare : t.prepare.statements = t.statements := by
  unfold prepare
  split <;> rfl

theorem namespaces_prepare : t.prepare.namespaces = t.namespaces := by
  unfold prepare
  split <;> rfl

end Tables

namespace OpenStore

/-- Whether tables, caches and accounts are in order, and at most one transaction writes. -/
structure Good (s : OpenStore) : Prop where
  counter : 0 ≤ s.store.counters.statements
  sound : s.database.committed.Sound
  caches : s.store.caches.Coherent s.database.committed
  scopes : ∀ i x, s.scope? i = some x → x.Good
  locked : ∀ i x, s.scope? i = some x → x.work.conn.writing = true → s.database.locked = true
  alone : ∀ i x j y, s.scope? i = some x → s.scope? j = some y → x.work.conn.writing = true →
    y.work.conn.writing = true → i = j
  closed : ∀ i x, s.scope? i = some x → x.closed = true → x.work.conn.writing = false

variable {s s' : OpenStore} {i : Nat} {x y : Scope}

theorem Good.others_idle (hs : s.Good) (hx : s.scope? i = some x)
    (hwriting : x.work.conn.writing = true)
    {j : Nat} {z : Scope} (hz : s.scope? j = some z) (hne : j ≠ i) :
    z.work.conn.writing = false := by
  by_contra hz'
  exact hne (hs.alone j z i x hz hx (eq_true_of_ne_false hz') hwriting)

theorem good_opened (config : Config) {tables : Tables} (hsound : tables.Sound)
    (registryFile : RegistryFile) (labelStart : String) :
    (opened config tables registryFile labelStart).Good := by
  have none_begun : ∀ i x, (opened config tables registryFile labelStart).scope? i ≠ some x := by
    rintro i x ⟨⟩
  constructor
  · refine le_trans (Tables.greatestId_nonneg ?_) (le_max_right _ _)
    intro id hid
    obtain ⟨r, hr, rfl⟩ := List.mem_map.mp hid
    exact hsound.nonneg r (tables.statements_prepare ▸ hr)
  · exact hsound.of_eq tables.nodes_prepare tables.statements_prepare
  · exact Caches.Coherent.make _ _
  · exact fun i x hx => absurd hx (none_begun i x)
  · exact fun i x hx => absurd hx (none_begun i x)
  · exact fun i x _ _ hx => absurd hx (none_begun i x)
  · exact fun i x hx => absurd hx (none_begun i x)

theorem database_of_scope? (h : s.scope? i = some x) : x.work.database = s.database := by
  obtain ⟨t, -, rfl⟩ := Option.map_eq_some_iff.mp h
  rfl

theorem store_of_scope? (h : s.scope? i = some x) : x.work.store = s.store := by
  obtain ⟨t, -, rfl⟩ := Option.map_eq_some_iff.mp h
  rfl

theorem committed_of_scope? {j : Nat} {z : Scope} (hx : s.scope? i = some x)
    (hz : s.scope? j = some z) (h : y.work.database.committed = x.work.database.committed) :
    y.work.database.committed = z.work.database.committed := by
  rw [h, database_of_scope? hx, database_of_scope? hz]

theorem scope?_put_eq_some (h : s.scope? i = some x) {j : Nat} {z : Scope}
    (hz : (s.put i y).scope? j = some z) :
    j = i ∧ z = y ∨ j ≠ i ∧ ∃ z', s.scope? j = some z' ∧ z = z'.within y.work := by
  by_cases hji : j = i
  · subst hji
    rw [scope?_put_self h] at hz
    exact .inl ⟨rfl, (Option.some.inj hz).symm⟩
  · rw [scope?_put_of_ne y hji] at hz
    obtain ⟨z', hz', rfl⟩ := Option.map_eq_some_iff.mp hz
    exact .inr ⟨hji, z', hz', rfl⟩

theorem Good.put_advances (hs : s.Good) (hx : s.scope? i = some x) (h : Advances x y)
    (hopen : x.closed = true → y = x) : (s.put i y).Good := by
  have hy := h.good (hs.scopes i x hx)
  have hcommitted : ∀ {j z}, s.scope? j = some z →
      y.work.database.committed = z.work.database.committed := fun hz =>
    committed_of_scope? hx hz h.works.committed
  have hlock := h.works.lock
  rw [database_of_scope? hx] at hlock
  refine ⟨hy.work.counter, ?_, hy.work.coherent.caches, ?_, ?_, ?_, ?_⟩
  · show y.work.database.committed.Sound
    rw [hcommitted hx, database_of_scope? hx]
    exact hs.sound
  · intro j z hz
    rcases scope?_put_eq_some hx hz with ⟨rfl, rfl⟩ | ⟨-, z', hz', rfl⟩
    · exact hy
    · exact (hs.scopes j z' hz').within (hcommitted hz') hy.work.counter hy.work.coherent.caches
  · intro j z hz hwriting
    show y.work.database.locked = true
    rcases hlock with ⟨hsame, hlocked⟩ | ⟨-, -, -, hlocked⟩
    · rw [hlocked]
      rcases scope?_put_eq_some hx hz with ⟨rfl, rfl⟩ | ⟨-, z', hz', rfl⟩
      · exact hs.locked j x hx (hsame ▸ hwriting)
      · exact hs.locked j z' hz' hwriting
    · exact hlocked
  · intro j z k u hz hu hwriting hwriting'
    -- If the transaction has taken the lock just now then no other one had it.
    have others : ∀ {m : Nat} {v : Scope}, s.scope? m = some v → v.work.conn.writing = true →
        m ≠ i → y.work.conn.writing = false := by
      intro m v hv hwriting hne
      rcases hlock with ⟨hsame, -⟩ | ⟨-, hfree, -⟩
      · rw [hsame]
        exact hs.others_idle hv hwriting hx hne.symm
      · rw [hs.locked m v hv hwriting] at hfree
        cases hfree
    rcases scope?_put_eq_some hx hz with ⟨rfl, rfl⟩ | ⟨hj, z', hz', rfl⟩ <;>
      rcases scope?_put_eq_some hx hu with ⟨rfl, rfl⟩ | ⟨hk, u', hu', rfl⟩
    · rfl
    · cases hwriting.symm.trans (others hu' hwriting' hk)
    · cases hwriting'.symm.trans (others hz' hwriting hj)
    · exact hs.alone j z' k u' hz' hu' hwriting hwriting'
  · intro j z hz hclosed
    rcases scope?_put_eq_some hx hz with ⟨rfl, rfl⟩ | ⟨-, z', hz', rfl⟩
    · have hclosed' : x.closed = true := h.closed ▸ hclosed
      rw [hopen hclosed']
      exact hs.closed j x hx hclosed'
    · exact hs.closed j z' hz' hclosed

theorem Good.put_ended (hs : s.Good) (hx : s.scope? i = some x) (h : Ended x y)
    (hsound : y.work.database.committed.Sound)
    (hcaches : y.work.store.caches.Coherent y.work.database.committed)
    (hchanged : x.work.conn.writing = true ∨
      y.work.database.committed = x.work.database.committed) : (s.put i y).Good := by
  have hidle : y.work.conn.writing = false := by simp [Connection.writing, h.pending]
  have hcounter : 0 ≤ y.work.store.counters.statements := by
    rw [h.counters, store_of_scope? hx]
    exact hs.counter
  refine ⟨hcounter, hsound, hcaches, ?_, ?_, ?_, ?_⟩
  · intro j z hz
    rcases scope?_put_eq_some hx hz with ⟨rfl, rfl⟩ | ⟨hj, z', hz', rfl⟩
    · refine ⟨Workspace.good_of_idle hcounter hsound hcaches h.pending h.freshNodes
        h.freshStatements, ?_⟩
      rw [h.changes, Workspace.view_eq_committed hidle]
      exact .empty rfl
    · have hz := hs.scopes j z' hz'
      rcases hchanged with hwriting | hsame
      · exact hz.within_of_idle (hs.others_idle hx hwriting hz' hj) hcounter hsound hcaches
      · exact hz.within (committed_of_scope? hx hz' hsame) hcounter hcaches
  · intro j z hz hwriting
    rcases scope?_put_eq_some hx hz with ⟨rfl, rfl⟩ | ⟨hj, z', hz', rfl⟩
    · cases hidle.symm.trans hwriting
    · show y.work.database.locked = true
      have hx' := hs.others_idle hz' hwriting hx hj.symm
      rw [h.locked, hx', database_of_scope? hx]
      exact hs.locked j z' hz' hwriting
  · intro j z k u hz hu hwriting hwriting'
    rcases scope?_put_eq_some hx hz with ⟨rfl, rfl⟩ | ⟨-, z', hz', rfl⟩
    · cases hidle.symm.trans hwriting
    · rcases scope?_put_eq_some hx hu with ⟨rfl, rfl⟩ | ⟨-, u', hu', rfl⟩
      · cases hidle.symm.trans hwriting'
      · exact hs.alone j z' k u' hz' hu' hwriting hwriting'
  · intro j z hz hclosed
    rcases scope?_put_eq_some hx hz with ⟨rfl, rfl⟩ | ⟨-, z', hz', rfl⟩
    · exact hidle
    · exact hs.closed j z' hz' hclosed

theorem Good.put_committed (hs : s.Good) (hx : s.scope? i = some x) (h : Committed x y) :
    (s.put i y).Good := by
  have hwork := (hs.scopes i x hx).work
  exact hs.put_ended hx h.toEnded (hwork.sound.of_eq h.nodes h.statements)
    (h.caches hwork) h.changed

theorem Good.put_abandoned (hs : s.Good) (hx : s.scope? i = some x) (h : Abandoned x y) :
    (s.put i y).Good := by
  refine hs.put_ended hx h.toEnded ?_ (h.caches (hs.scopes i x hx).work) (.inr h.committed)
  rw [h.committed, database_of_scope? hx]
  exact hs.sound

theorem Good.of_shared (hs : s.Good) (hdatabase : s'.database = s.database)
    (hcounter : s'.store.counters.statements = s.store.counters.statements)
    (hcaches : s'.store.caches.Coherent s.database.committed)
    (hscopes : ∀ i x, s'.scope? i = some x →
      (∃ x' w, s.scope? i = some x' ∧ x = x'.within w) ∨
        x.changes = .empty ∧ x.work.conn.pending = none ∧ x.work.conn.freshNodes = [] ∧
          x.work.conn.freshStatements = []) : s'.Good := by
  have hcounter' : 0 ≤ s'.store.counters.statements := hcounter ▸ hs.counter
  have writing_before : ∀ {i x}, s'.scope? i = some x → x.work.conn.writing = true →
      ∃ x', s.scope? i = some x' ∧ x'.work.conn.writing = true := by
    intro i x hx hwriting
    rcases hscopes i x hx with ⟨x', w, hx', rfl⟩ | ⟨-, hpending, -⟩
    · exact ⟨x', hx', hwriting⟩
    · simp [Connection.writing, hpending] at hwriting
  refine ⟨hcounter', hdatabase ▸ hs.sound, hdatabase ▸ hcaches, ?_, ?_, ?_, ?_⟩
  · intro i x hx
    have hd := database_of_scope? hx
    have hst := store_of_scope? hx
    rcases hscopes i x hx with ⟨x', w, hx', rfl⟩ | ⟨hchanges, hpending, hnodes, hstatements⟩
    · have hw : w.database = s.database := hd.trans hdatabase
      have hw' : w.store = s'.store := hst
      refine (hs.scopes i x' hx').within ?_ (hw' ▸ hcounter') ?_
      · rw [hw, database_of_scope? hx']
      · rw [hw, hw']
        exact hcaches
    · refine ⟨Workspace.good_of_idle ?_ ?_ ?_ hpending hnodes hstatements, ?_⟩
      · exact hst ▸ hcounter'
      · rw [hd, hdatabase]
        exact hs.sound
      · rw [hd, hst, hdatabase]
        exact hcaches
      · rw [hchanges, Workspace.view_eq_committed (by simp [Connection.writing, hpending])]
        exact .empty rfl
  · intro i x hx hwriting
    obtain ⟨x', hx', hwriting'⟩ := writing_before hx hwriting
    rw [hdatabase]
    exact hs.locked i x' hx' hwriting'
  · intro i x j y hx hy hwriting hwriting'
    obtain ⟨x', hx', hxw⟩ := writing_before hx hwriting
    obtain ⟨y', hy', hyw⟩ := writing_before hy hwriting'
    exact hs.alone i x' j y' hx' hy' hxw hyw
  · intro i x hx hclosed
    rcases hscopes i x hx with ⟨x', w, hx', rfl⟩ | ⟨-, hpending, -⟩
    · exact hs.closed i x' hx' hclosed
    · simp [Connection.writing, hpending]

theorem Good.loses {store : Store} (hs : s.Good) (h : s.store.Loses store) :
    (s.withStore store).Good := by
  obtain ⟨hcaches, hregistry⟩ := h
  refine hs.of_shared rfl rfl (hs.caches.of_partOf hcaches) fun i x hx => ?_
  obtain ⟨x', hx', rfl⟩ := of_scope?_withStore hx
  exact .inl ⟨x', _, hx', rfl⟩

theorem Good.step {e : Event} (hs : s.Good) (h : s.Step e s') : s'.Good := by
  cases h with
  | begin =>
      refine hs.of_shared rfl rfl hs.caches fun i x hx => ?_
      rcases scope?_begin hx with ⟨x', hx', rfl⟩ | ⟨-, rfl⟩
      · exact .inl ⟨x', _, hx', rfl⟩
      · exact .inr ⟨rfl, rfl, rfl, rfl⟩
  | clearCaches => exact hs.loses (.clearCaches _)
  | evict hevicts => exact hs.loses hevicts.loses
  | call c hx =>
      rename_i i x
      rcases c.run_cases x with
        ⟨hadvances, -⟩ | ⟨refusal, y, rfl, hop, -, hcommitted⟩ | ⟨-, -, habandoned⟩
      · exact hs.put_advances hx hadvances c.run_of_closed
      · rw [Call.run, hop]
        exact hs.put_committed hx hcommitted
      · exact hs.put_abandoned hx habandoned

theorem Step.call_eq_ok {before after : Tables} {c : Call} {v : c.Answer}
    (h : s.Step (.call i before after c (.ok v)) s') :
    ∃ x y, s.scope? i = some x ∧ before = x.work.view ∧ c.run x = .ok v y ∧ s' = s.put i y := by
  generalize he : Event.call i before after c (.ok v) = e at h
  cases h with
  | begin | clearCaches | evict => cases he
  | call c' hx =>
      rename_i j x
      injection he with hi hbefore hafter hc hanswer
      subst hi hbefore hc
      cases hop : c.run x with
      | ok u y =>
          rw [hop] at hanswer
          obtain rfl := Except.ok.inj (eq_of_heq hanswer)
          exact ⟨x, y, hx, rfl, hop, rfl⟩
      | error e y =>
          rw [hop] at hanswer
          cases hanswer

theorem Step.commits {e : Event} (h : s.Step e s') (hcommitted : e.committed? = some i) :
    ∃ x y, s.scope? i = some x ∧ s' = s.put i y ∧ x.closed = false ∧ Committed x y := by
  cases h with
  | begin | clearCaches | evict => cases hcommitted
  | call c hx =>
      rename_i j x
      cases c with
      | commit refusal =>
          rcases finish_cases refusal x with ⟨y, hop, hopen, hended⟩ | ⟨e, y, hop, -⟩ | ⟨hop, -⟩
          · rw [Call.run, hop] at hcommitted ⊢
            cases hcommitted
            exact ⟨x, y, hx, rfl, hopen, hended⟩
          · rw [Call.run, hop] at hcommitted
            cases hcommitted
          · rw [Call.run, hop] at hcommitted
            cases hcommitted
      | _ => cases hcommitted

theorem Good.run {log : List Event} (hs : s.Good) (h : s.Run log s') : s'.Good := by
  induction h with
  | nil => exact hs
  | snoc _ hstep ih => exact ih.step hstep

theorem Good.run_preserves {P : OpenStore → Prop} {Q : Event → Prop}
    {log : List Event} (hs : s.Good) (h : s.Run log s') (hQ : ∀ e ∈ log, Q e)
    (hstep : ∀ {s₁ s₂ : OpenStore} {e : Event}, s₁.Good → s₁.Step e s₂ → Q e → P s₁ → P s₂)
    (hP : P s) :
    P s' := by
  induction h with
  | nil => exact hP
  | snoc hrun hlast ih =>
      rw [List.forall_mem_append, List.forall_mem_singleton] at hQ
      exact hstep (hs.run hrun) hlast hQ.2 (ih hQ.1)

/-! What stays through every run -/

theorem Step.config {e : Event} (h : s.Step e s') : s'.store.config = s.store.config := by
  cases h with
  | begin | clearCaches => rfl
  | evict hevicts => exact hevicts.loses.config
  | call c hx =>
      rename_i i x
      show (finalState (c.run x)).work.store.config = s.store.config
      rw [← store_of_scope? hx]
      rcases c.run_cases x with
        ⟨hadvances, -⟩ | ⟨refusal, y, rfl, hop, -, hcommitted⟩ | ⟨-, -, habandoned⟩
      · exact hadvances.works.config
      · rw [Call.run, hop]
        exact hcommitted.config
      · exact habandoned.config

theorem Run.config {log : List Event} (h : s.Run log s') : s'.store.config = s.store.config := by
  induction h with
  | nil => rfl
  | snoc _ hstep ih => exact hstep.config.trans ih

/-- What survives all that is done to a registry holds of the registry of a store in every run. -/
theorem Step.registry {P : Registry → Prop} (hP : Registry.Stable P) {e : Event}
    (hkeys : e.losesKeys = false ∨ Registry.Unlisted P) (hstep : s.Step e s')
    (h : P s.store.registry) : P s'.store.registry := by
  cases hstep with
  | begin => exact h
  | clearCaches => exact hP.clearCaches h
  | evict hevicts =>
      cases hevicts with
      | rows => exact h
      | entries hr hlost => exact hP.entries (hr ▸ h) (.of_evicts hlost)
      | registered hr hlost => exact hkeys.resolve_left nofun (hr ▸ h) (.of_evicts hlost)
  | call c hx =>
      rename_i i x
      rw [← store_of_scope? hx] at h
      have released : ∀ {y : Scope}, Ended x y → P y.work.store.registry := by
        intro y hended
        rw [(Prod.mk.inj hended.registry).1]
        exact hP.release h _ _
      rcases c.run_cases x with
        ⟨hadvances, -⟩ | ⟨refusal, y, rfl, hop, -, hcommitted⟩ | ⟨-, -, habandoned⟩
      · exact hadvances.works.edits.stable hP h
      · rw [Call.run, hop]
        exact released hcommitted.toEnded
      · exact released habandoned.toEnded

theorem Run.registry {P : Registry → Prop} (hP : Registry.Stable P) {log : List Event}
    (hkeys : Event.KeepsKeys log) (hrun : s.Run log s') (h : P s.store.registry) :
    P s'.store.registry := by
  induction hrun with
  | nil => exact h
  | snoc _ hstep ih =>
      obtain ⟨hbefore, hlast⟩ := Event.keepsKeys_snoc_iff.mp hkeys
      exact hstep.registry hP (.inl hlast) (ih hbefore)

theorem Good.step_evolves {e : Event} (hs : s.Good) (h : s.Step e s') :
    s.database.committed.Evolves s'.database.committed := by
  cases h with
  | begin | clearCaches | evict => exact refl _
  | call c hx =>
      rename_i i x
      show s.database.committed.Evolves (finalState (c.run x)).work.database.committed
      rw [← database_of_scope? hx]
      rcases c.run_cases x with
        ⟨hadvances, -⟩ | ⟨refusal, y, rfl, hop, -, hcommitted⟩ | ⟨-, -, habandoned⟩
      · rw [hadvances.works.committed]
        exact refl _
      · rw [Call.run, hop]
        exact IsTrans.trans _ _ _ (hs.scopes i x hx).work.evolves (.of_eq hcommitted.statements)
      · rw [habandoned.committed]
        exact refl _

theorem committed_of_idle (hx : s.scope? i = some x)
    (hidle : x.work.conn.writing = false) (c : Call) :
    (finalState (c.run x)).work.database.committed = s.database.committed := by
  rw [← database_of_scope? hx]
  rcases c.run_cases x with
    ⟨hadvances, -⟩ | ⟨refusal, y, rfl, hop, -, hcommitted⟩ | ⟨-, -, habandoned⟩
  · exact hadvances.works.committed
  · rw [Call.run, hop]
    exact hcommitted.idle hidle
  · exact habandoned.committed

theorem Good.run_evolves {log : List Event} (hs : s.Good) (h : s.Run log s') :
    s.database.committed.Evolves s'.database.committed := by
  induction h with
  | nil => exact refl _
  | snoc hrun hstep ih => exact IsTrans.trans _ _ _ ih ((hs.run hrun).step_evolves hstep)

end OpenStore
end QuadStore
