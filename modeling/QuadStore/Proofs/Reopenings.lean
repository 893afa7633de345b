import QuadStore.Proofs.NodeWork
import QuadStore.Proofs.SeenTables
import QuadStore.Proofs.SharedCaches

namespace QuadStore

open Transaction

/-- Writes the counters of a store to its database and empties its caches. -/
def Action.shutdown : Action Unit := do
  beginWrite
  commit
  modifyStore Store.shutdownCaches

/-- What is left of a transaction whose connection is lost: what was written is undone,
and nothing is released. -/
def Transaction.Scope.lost (x : Scope) : Scope where
  work := { finalState (Action.rollback x.work) with
    conn := { transaction := x.work.conn.transaction } }
  changes := .empty
  closed := true

/-- What happens to an open store: something that its transactions do, the loss of a connection,
or that it is shut down. -/
inductive Happening
  | step (e : Event)
  | lost (number : Nat)
  | shutdown

namespace OpenStore

/-- The store after it has been shut down, unless some transaction holds the write lock. -/
def shutdown (s : OpenStore) : OpenStore :=
  let w := finalState (Action.shutdown s.shared)
  { s with database := w.database, registryFile := w.registryFile, store := w.store }

inductive Happens (s : OpenStore) : Happening → OpenStore → Prop
  | step {e : Event} {s' : OpenStore} (h : s.Step e s') : Happens s (.step e) s'
  | lost {number : Nat} {x : Scope} (hx : s.scope? number = some x) :
      Happens s (.lost number) (s.put number x.lost)
  | shutdown : Happens s .shutdown s.shutdown

/-- One thing after another. -/
inductive Happenings (s : OpenStore) : List Happening → OpenStore → Prop
  | nil : Happenings s [] s
  | snoc {ms : List Happening} {m : Happening} {s₁ s₂ : OpenStore} (h : Happenings s ms s₁)
      (hm : s₁.Happens m s₂) : Happenings s (ms ++ [m]) s₂

/-- The store after the connection of a transaction, if that has been begun, has been lost. -/
def lose (s : OpenStore) (number : Nat) : OpenStore :=
  match s.scope? number with
  | some x => s.put number x.lost
  | none => s

theorem Happenings.events {s s₁ s₂ : OpenStore} {ms : List Happening} {log : List Event}
    (h : s.Happenings ms s₁) (h' : s₁.Run log s₂) : s.Happenings (ms ++ log.map .step) s₂ := by
  induction h' with
  | nil => rwa [List.map_nil, List.append_nil]
  | snoc _ hstep ih =>
      rw [List.map_append, ← List.append_assoc]
      exact .snoc ih (.step hstep)

end OpenStore

/-- A database file and a registry file, or the store that is open on them. -/
inductive Files
  | closed (tables : Tables) (registryFile : RegistryFile)
  | opened (s : OpenStore)

/-- What happens to files. A store that goes away leaves what is committed and what is registered;
while none is open the registry file may be replaced. -/
inductive FileChange
  | opening (config : Config) (tables : Tables)
    (registryFile : RegistryFile) (labelStart : String)
  | work (m : Happening)
  | leaving
  | replaced (registryFile : RegistryFile)

namespace Files

/-- The tables that are committed. -/
def committed : Files → Tables
  | closed tables _ => tables
  | opened s => s.database.committed

inductive Step : Files → FileChange → Files → Prop
  | opening {tables : Tables} {registryFile : RegistryFile}
    (config : Config) (labelStart : String) :
      Step (.closed tables registryFile) (.opening config tables registryFile labelStart)
        (.opened (.opened config tables registryFile labelStart))
  | work {s s' : OpenStore} {m : Happening} (h : s.Happens m s') :
      Step (.opened s) (.work m) (.opened s')
  | leaving {s : OpenStore} :
      Step (.opened s) .leaving (.closed s.database.committed s.registryFile)
  | replaced {tables : Tables} {registryFile : RegistryFile} (other : RegistryFile) :
      Step (.closed tables registryFile) (.replaced other) (.closed tables other)

/-- One change after another. -/
inductive Run (p : Files) : List FileChange → Files → Prop
  | nil : Run p [] p
  | snoc {log : List FileChange} {c : FileChange} {p₁ p₂ : Files} (h : Run p log p₁)
      (hstep : Step p₁ c p₂) : Run p (log ++ [c]) p₂

theorem Run.events {p : Files} {log : List FileChange} {events : List Event} {s s' : OpenStore}
    (h : p.Run log (.opened s)) (h' : s.Run events s') :
    p.Run (log ++ events.map fun e => .work (.step e)) (.opened s') := by
  induction h' with
  | nil => rwa [List.map_nil, List.append_nil]
  | snoc _ hstep ih =>
      rw [List.map_append, ← List.append_assoc]
      exact .snoc ih (.work (.step hstep))

theorem Run.lose {p : Files} {log : List FileChange} {s : OpenStore} (h : p.Run log (.opened s))
    (number : Nat) (hbegun : (s.scope? number).isSome) :
    p.Run (log ++ [.work (.lost number)]) (.opened (s.lose number)) := by
  obtain ⟨x, hx⟩ := Option.isSome_iff_exists.mp hbegun
  rw [OpenStore.lose, hx]
  exact .snoc h (.work (.lost hx))

/-- Whether something holds of all tables that are seen. -/
def Everywhere (P : Tables → Prop) : Files → Prop
  | closed tables _ => P tables
  | opened s => s.Everywhere P

end Files

namespace Registry

theorem stable_file : Stable (· = .file) where
  register := by
    rintro _ rfl _ _ _ _
    rfl
  delete := by
    rintro _ rfl _ _
    rfl
  release := by
    rintro _ rfl _ _
    rfl
  clearCaches := by
    rintro _ rfl
    rfl
  entries := nofun

end Registry

/-! What is left when a connection is lost -/

namespace Transaction.Scope

variable {x : Scope}

theorem work_lost (x : Scope) : x.lost.work =
    { x.work with
      database :=
        { x.work.database with locked := !x.work.conn.writing && x.work.database.locked }
      conn := { transaction := x.work.conn.transaction } } := by
  obtain ⟨⟨database, file, store, ⟨transaction, pending, _, _, _, _, _⟩⟩, changes, closed⟩ := x
  cases pending <;> rfl

theorem committed_lost : x.lost.work.database.committed = x.work.database.committed := by
  rw [work_lost]

theorem view_lost : x.lost.work.view = x.work.database.committed := by
  rw [work_lost]
  rfl

theorem abandoned_spec (x : Scope) : Abandoned x x.abandoned := by
  obtain ⟨y, habort, habandoned⟩ := abort_eq x
  rw [abort_eq_abandoned] at habort
  cases habort
  exact habandoned

theorem finished_spec (hopen : x.closed = false) : Committed x x.finished := by
  obtain ⟨y, hfinish, hcommitted⟩ : ∃ y, finish none x = .ok () y ∧ Committed x y :=
    finish_eq_ok hopen (.inl rfl)
  rw [finish_eq_finished hopen (.inl rfl)] at hfinish
  cases hfinish
  exact hcommitted

end Transaction.Scope

theorem Call.commits_or_abandons {c : Call} {x : Scope} (hends : c.ends = true)
    (hopen : x.closed = false) :
    (∃ refusal, c = .commit refusal ∧ finish refusal x = .ok () x.finished) ∨
      finalState (c.run x) = x.abandoned := by
  have habort : finalState (abort x) = x.abandoned := by
    rw [abort_eq_abandoned]
    rfl
  cases c with
  | commit refusal =>
      by_cases haccepted : refusal = none ∨ x.work.conn.writing = false
      · exact .inl ⟨refusal, rfl, finish_eq_finished hopen haccepted⟩
      · right
        rw [not_or, Bool.not_eq_false] at haccepted
        obtain ⟨fault, rfl⟩ := Option.ne_none_iff_exists'.mp haccepted.1
        rw [run, finish_eq_abandoned hopen haccepted.2]
        rfl
  | rollback =>
      right
      rw [run, Transaction.rollback, whileOpen_of_open hopen]
      exact habort
  | drop =>
      right
      rw [run, Transaction.drop, bind_of_ok (a := (get : Operation Scope)) (s := x) rfl,
        if_pos (by simp [hopen])]
      exact habort
  | _ => cases hends

theorem Call.finished_or_abandoned {c : Call} {x : Scope} (hends : c.ends = true)
    (hopen : x.closed = false) :
    finalState (c.run x) = x.finished ∨ finalState (c.run x) = x.abandoned := by
  rcases Call.commits_or_abandons hends hopen with ⟨refusal, rfl, hfinish⟩ | habandoned
  · left
    rw [run, hfinish]
    rfl
  · exact .inr habandoned

namespace OpenStore

variable {s s' : OpenStore} {i : Nat} {x : Scope} {m : Happening} {P : Tables → Prop}

theorem scope?_put_lost {j : Nat} {z : Scope} (hx : s.scope? i = some x)
    (hz : (s.put i x.lost).scope? j = some z) :
    ∃ z', (s.put i x.abandoned).scope? j = some z' ∧ z = z'.within x.lost.work := by
  rcases scope?_put_eq_some hx hz with ⟨rfl, rfl⟩ | ⟨hj, z', hz', rfl⟩
  · exact ⟨x.abandoned, scope?_put_self hx, rfl⟩
  · exact ⟨z'.within x.abandoned.work, by rw [scope?_put_of_ne _ hj, hz']; rfl, rfl⟩

theorem Good.put_lost (hs : s.Good) (hx : s.scope? i = some x) : (s.put i x.lost).Good := by
  have hgood := hs.put_abandoned hx x.abandoned_spec
  refine hgood.of_shared ?_ ?_ ?_ fun j z hz => ?_
  · show x.lost.work.database = x.abandoned.work.database
    rw [Scope.work_lost]
    rfl
  · show x.lost.work.store.counters.statements = _
    rw [Scope.work_lost]
    rfl
  · show x.lost.work.store.caches.Coherent x.work.database.committed
    rw [Scope.work_lost]
    exact (hs.scopes i x hx).work.coherent.caches
  · obtain ⟨z', hz', rfl⟩ := scope?_put_lost hx hz
    exact .inl ⟨z', _, hz', rfl⟩

theorem Bound.put_lost (hgood : s.Good) (hs : s.Bound) (hx : s.scope? i = some x) :
    (s.put i x.lost).Bound := by
  have habandoned := x.abandoned_spec
  have hbound := hs.put_ended hgood hx habandoned.toEnded (.inr habandoned.committed)
  refine hbound.of_shared ?_ ?_ ?_ fun j z hz => ?_
  · show x.lost.work.database = x.abandoned.work.database
    rw [Scope.work_lost]
    rfl
  · show x.lost.work.store.counters.namespaces = _
    rw [Scope.work_lost]
    rfl
  · show x.lost.work.store.caches.Bound x.work.database.committed
    rw [Scope.work_lost]
    exact (hs.scopes i x hx).caches
  · obtain ⟨z', hz', rfl⟩ := scope?_put_lost hx hz
    exact .inl ⟨z', _, hz', rfl⟩

/-! What is left when a store is shut down -/

theorem shutdown_of_locked (h : s.database.locked = true) : s.shutdown = s := by
  obtain ⟨⟨committed, locked⟩, registryFile, store, transactions⟩ := s
  obtain rfl : locked = true := h
  rfl

/-- The store after its counters have been written and its caches emptied. -/
def settled (s : OpenStore) : OpenStore :=
  { s with
    database := ⟨s.store.counters.persist s.database.committed, false⟩
    store := s.store.shutdownCaches }

theorem shutdown_of_free (h : s.database.locked = false) : s.shutdown = s.settled := by
  obtain ⟨⟨committed, locked⟩, registryFile, store, transactions⟩ := s
  obtain rfl : locked = false := h
  rfl

theorem scope?_settled (s : OpenStore) (i : Nat) :
    s.settled.scope? i = (s.scope? i).map fun x => x.within s.settled.shared := by
  simp only [scope?, settled, Option.map_map]
  rfl

theorem scope?_settled_eq_some {z : Scope} (hz : s.settled.scope? i = some z) :
    ∃ z', s.scope? i = some z' ∧ z = z'.within s.settled.shared := by
  rw [scope?_settled] at hz
  obtain ⟨z', hz', rfl⟩ := Option.map_eq_some_iff.mp hz
  exact ⟨z', hz', rfl⟩

theorem Good.idle_of_free (hs : s.Good) (h : s.database.locked = false)
    (hx : s.scope? i = some x) :
    x.work.conn.writing = false := by
  by_contra hwriting
  rw [hs.locked i x hx (eq_true_of_ne_false hwriting)] at h
  cases h

theorem Good.settled (hs : s.Good) (hfree : s.database.locked = false) : s.settled.Good := by
  have hsound : s.settled.database.committed.Sound := hs.sound.of_eq rfl rfl
  have idle : ∀ {j z}, s.settled.scope? j = some z → z.work.conn.writing = false := by
    intro j z hz
    obtain ⟨z', hz', rfl⟩ := scope?_settled_eq_some hz
    show z'.work.conn.writing = false
    exact hs.idle_of_free hfree hz'
  refine ⟨hs.counter, hsound, .clear _ _, fun j z hz => ?_, fun j z hz hwriting => ?_,
    fun j z k u hz hu hwriting => ?_, fun j z hz _ => idle hz⟩
  · obtain ⟨z', hz', rfl⟩ := scope?_settled_eq_some hz
    exact (hs.scopes j z' hz').within_of_idle (hs.idle_of_free hfree hz')
      hs.counter hsound (.clear _ _)
  · cases hwriting.symm.trans (idle hz)
  · cases hwriting.symm.trans (idle hz)

theorem Bound.settled (hgood : s.Good) (hs : s.Bound) (hfree : s.database.locked = false) :
    s.settled.Bound := by
  have hshared : s.settled.shared.Bound :=
    .of_idle (.clear _ _) (hs.shared.committed.of_eq rfl) hs.shared.committedIds rfl ⟨rfl, rfl⟩
  refine ⟨hshared, fun j z hz => ?_⟩
  obtain ⟨z', hz', rfl⟩ := scope?_settled_eq_some hz
  exact (hs.scopes j z' hz').within_of_idle (hgood.idle_of_free hfree hz') hshared

theorem shutdown_cases (s : OpenStore) :
    s.database.locked = false ∧ s.shutdown = s.settled ∨ s.shutdown = s := by
  cases hlocked : s.database.locked with
  | true => exact .inr (shutdown_of_locked hlocked)
  | false => exact .inl ⟨rfl, shutdown_of_free hlocked⟩

/-! All that happens -/

theorem Good.happens (hs : s.Good) (h : s.Happens m s') : s'.Good := by
  cases h with
  | step hstep => exact hs.step hstep
  | lost hx => exact hs.put_lost hx
  | shutdown =>
      rcases s.shutdown_cases with ⟨hfree, heq⟩ | heq <;> rw [heq]
      · exact hs.settled hfree
      · exact hs

theorem Bound.happens (hgood : s.Good) (hs : s.Bound) (h : s.Happens m s') : s'.Bound := by
  cases h with
  | step hstep => exact hs.step hgood hstep
  | lost hx => exact hs.put_lost hgood hx
  | shutdown =>
      rcases s.shutdown_cases with ⟨hfree, heq⟩ | heq <;> rw [heq]
      · exact hs.settled hgood hfree
      · exact hs

/-! What happens to the tables -/

/-- Whether tables are those that are committed, or those that some transaction sees. -/
def Sees (s : OpenStore) (t : Tables) : Prop :=
  t = s.database.committed ∨ ∃ i x, s.scope? i = some x ∧ t = x.work.view

theorem Everywhere.of_sees {t : Tables} (hs : s.Everywhere P) (h : s.Sees t) : P t := by
  rcases h with rfl | ⟨i, x, hx, rfl⟩
  · exact hs.committed
  · exact hs.scopes i x hx

/-- What was seen has been written to the database, with the counters, and everyone sees that. -/
structure Rewrites (s s' : OpenStore) : Prop where
  counters : s'.store.counters = s.store.counters
  committed : ∃ t, s.Sees t ∧ s'.database.committed = s.store.counters.persist t
  seen : ∀ i x, s'.scope? i = some x → x.work.view = s'.database.committed

/-- What is committed has stayed. Everyone sees what was seen before, or what
a call has made of it. -/
structure GoesOn (s s' : OpenStore) : Prop where
  committed : s'.database.committed = s.database.committed
  counter : s.store.counters.namespaces ≤ s'.store.counters.namespaces
  seen : ∀ i x, s'.scope? i = some x → s.Sees x.work.view ∨
    ∃ (j : Nat) (x₀ : Scope) (c : Call), s.scope? j = some x₀ ∧ c.ends = false ∧
      x.work.view = (finalState (c.run x₀)).work.view

theorem sees_within {w : Workspace} (hx : s.scope? i = some x)
    (hcommitted : w.database.committed = s.database.committed) :
    s.Sees (x.within w).work.view := by
  refine .inr ⟨i, x, hx, Scope.view_within_of_eq ?_⟩
  rw [hcommitted, database_of_scope? hx]

theorem GoesOn.put {y : Scope} (hx : s.scope? i = some x)
    (hcommitted : y.work.database.committed = s.database.committed)
    (hcounter : s.store.counters.namespaces ≤ y.work.store.counters.namespaces)
    (hseen : s.Sees y.work.view ∨ ∃ (j : Nat) (x₀ : Scope) (c : Call), s.scope? j = some x₀ ∧
      c.ends = false ∧ y.work.view = (finalState (c.run x₀)).work.view) :
    GoesOn s (s.put i y) := by
  refine ⟨hcommitted, hcounter, fun j z hz => ?_⟩
  rcases scope?_put_eq_some hx hz with ⟨-, rfl⟩ | ⟨-, z', hz', rfl⟩
  · exact hseen
  · exact .inl (sees_within hz' hcommitted)

/-- Who ends a transaction without changing what is committed changes nothing that is seen. -/
theorem GoesOn.put_ended {y : Scope} (hx : s.scope? i = some x) (h : Ended x y)
    (hcommitted : y.work.database.committed = x.work.database.committed) :
    GoesOn s (s.put i y) := by
  rw [database_of_scope? hx] at hcommitted
  refine .put hx hcommitted ?_ (.inl (.inl ?_))
  · rw [h.counters, store_of_scope? hx]
  · rwa [Workspace.view_eq_committed (by simp [Connection.writing, h.pending])]

theorem eq_finished_of_finish {refusal : Option DataFault} {y : Scope}
    (h : finish refusal x = .ok () y) : y = x.finished := by
  rcases finish_cases refusal x with ⟨y', hop, hopen, -⟩ | ⟨e, y', hop, -⟩ | ⟨hop, -⟩
  · by_cases haccepted : refusal = none ∨ x.work.conn.writing = false
    · rw [finish_eq_finished hopen haccepted] at h
      cases h
      rfl
    · rw [not_or, Bool.not_eq_false] at haccepted
      obtain ⟨fault, rfl⟩ := Option.ne_none_iff_exists'.mp haccepted.1
      rw [finish_eq_abandoned hopen haccepted.2] at h
      cases h
  · rw [hop] at h
    cases h
  · rw [hop] at h
    cases h

theorem GoesOn.loses {store : Store} (h : s.store.Loses store) :
    GoesOn s (s.withStore store) := by
  obtain ⟨hcaches, hregistry⟩ := h
  refine ⟨rfl, le_refl _, fun i x hx => .inl ?_⟩
  obtain ⟨x', hx', rfl⟩ := of_scope?_withStore hx
  exact sees_within hx' rfl

theorem Step.rewrites_or_goesOn {e : Event} (hs : s.Good) (h : s.Step e s') :
    Rewrites s s' ∨ GoesOn s s' := by
  cases h with
  | begin =>
      refine .inr ⟨rfl, le_refl _, fun i x hx => .inl ?_⟩
      rcases scope?_begin hx with ⟨x', hx', rfl⟩ | ⟨-, rfl⟩
      · exact sees_within hx' rfl
      · exact .inl rfl
  | clearCaches => exact .inr (.loses (.clearCaches _))
  | evict hevicts => exact .inr (.loses hevicts.loses)
  | call c hx =>
      rename_i i x
      rcases c.run_cases x with
        ⟨hadvances, hcase⟩ | ⟨refusal, y, rfl, hop, -, hended⟩ | ⟨-, -, habandoned⟩
      · right
        refine .put hx ?_ ?_ ?_
        · rw [hadvances.works.committed, database_of_scope? hx]
        · rw [← store_of_scope? hx]
          exact hadvances.works.binds.counter
        · rcases hcase with hends | hsame
          · exact .inr ⟨i, x, c, hx, hends, rfl⟩
          · rw [hsame]
            exact .inl (.inr ⟨i, x, hx, rfl⟩)
      · rw [Call.run, hop]
        cases hwriting : x.work.conn.writing with
        | false => exact .inr (.put_ended hx hended.toEnded (hended.idle hwriting))
        | true =>
            left
            refine ⟨hended.counters.trans (by rw [store_of_scope? hx]),
              ⟨x.work.view, .inr ⟨i, x, hx, rfl⟩, ?_⟩, fun j z hz => ?_⟩
            · rw [eq_finished_of_finish hop, ← store_of_scope? hx]
              show (x.work.conn.pending.elim x.work.database _).committed = _
              rw [Workspace.pending_eq hwriting]
              rfl
            · rcases scope?_put_eq_some hx hz with ⟨rfl, rfl⟩ | ⟨hj, z', hz', rfl⟩
              · exact Workspace.view_eq_committed (by simp [Connection.writing, hended.pending])
              · exact Scope.view_within_of_idle (hs.others_idle hx hwriting hz' hj)
      · exact .inr (.put_ended hx habandoned.toEnded habandoned.committed)

theorem Happens.rewrites_or_goesOn (hs : s.Good) (h : s.Happens m s') :
    Rewrites s s' ∨ GoesOn s s' := by
  cases h with
  | step hstep => exact hstep.rewrites_or_goesOn hs
  | lost hx =>
      right
      refine .put hx ?_ ?_ (.inl (.inl ?_))
      · rw [Scope.committed_lost, database_of_scope? hx]
      · rw [Scope.work_lost, store_of_scope? hx]
      · rw [Scope.view_lost, database_of_scope? hx]
  | shutdown =>
      rcases s.shutdown_cases with ⟨hfree, heq⟩ | heq <;> rw [heq]
      · refine .inl ⟨rfl, ⟨_, .inl rfl, rfl⟩, fun i x hx => ?_⟩
        obtain ⟨x', hx', rfl⟩ := scope?_settled_eq_some hx
        exact Scope.view_within_of_idle (hs.idle_of_free hfree hx')
      · exact .inr ⟨rfl, le_refl _, fun i x hx => .inl (.inr ⟨i, x, hx, rfl⟩)⟩

theorem Happens.registry (h : s.Happens m s') (hregistry : s.store.registry = .file) :
    s'.store.registry = .file := by
  cases h with
  | step hstep => exact hstep.registry Registry.stable_file (.inr nofun) hregistry
  | lost hx =>
      show Store.registry (Workspace.store (Scope.work (Scope.lost _))) = .file
      rw [Scope.work_lost, store_of_scope? hx]
      exact hregistry
  | shutdown =>
      rcases s.shutdown_cases with ⟨-, heq⟩ | heq <;> rw [heq]
      · show s.store.registry.forgetCaches = .file
        rw [hregistry]
        rfl
      · exact hregistry

theorem Rewrites.everywhere (h : Rewrites s s') (hcommitted : P s'.database.committed) :
    s'.Everywhere P :=
  ⟨hcommitted, fun i x hx => by rwa [h.seen i x hx]⟩

theorem GoesOn.everywhere (h : GoesOn s s') (hs : s.Everywhere P)
    (hcall : ∀ {i x} {c : Call}, s.scope? i = some x → c.ends = false → P x.work.view →
      P (finalState (c.run x)).work.view) : s'.Everywhere P := by
  refine ⟨?_, fun i x hx => ?_⟩
  · rw [h.committed]
    exact hs.committed
  · rcases h.seen i x hx with hsees | ⟨j, x₀, c, hx₀, hends, hview⟩
    · exact hs.of_sees hsees
    · rw [hview]
      exact hcall hx₀ hends (hs.scopes j x₀ hx₀)

end OpenStore
end QuadStore
