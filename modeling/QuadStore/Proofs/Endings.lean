import QuadStore.Proofs.Operations

namespace QuadStore

namespace Caches

variable {c : Caches} {t t' : Tables}

theorem Coherent.forget (h : c.Coherent t) (hnodes : ∀ r ∈ t.nodes, r ∈ t'.nodes)
    (hevolves : t.Evolves t') {touched : List Int}
    (htouched : ∀ r ∈ t.statements, ∀ r' ∈ t'.statements, r'.id = r.id → r.live = true →
      r'.live = false → r.id ∈ touched) : (touched.foldl eraseStatement c).Coherent t' := by
  have hstatement := get?_foldl_eraseStatement c touched
  obtain ⟨statement, heq⟩ := foldl_eraseStatement touched c
  rw [heq] at hstatement ⊢
  have node_mono : ∀ {n : Node}, t.HoldsNode n → t'.HoldsNode n := by
    rintro n ⟨r, hr, hholds⟩
    exact ⟨r, hnodes r hr, hholds⟩
  refine ⟨?_, ?_, ?_, ?_, ?_⟩
  · exact fun id n hn => (h.node id n hn).imp_right node_mono
  · exact fun uri n hn => (h.uri uri n hn).imp_right node_mono
  · exact fun label n hn => (h.blank label n hn).imp_right node_mono
  · exact fun key n hn => (h.literal key n hn).imp_right node_mono
  · intro id s hs
    obtain ⟨hkept, hs⟩ := hstatement id s hs
    obtain ⟨hid, r, hr, hholds⟩ := h.statement id s hs
    obtain ⟨r', hr', hbecomes⟩ := hevolves r hr
    refine ⟨hid, r', hr', hbecomes.id.trans hholds.id, hbecomes.key.trans hholds.key, ?_, ?_⟩
    · rw [← hholds.inferred, StatementRow.isInferred, hbecomes.inferred, StatementRow.isInferred]
    · rw [← hholds.live]
      cases hlive' : r'.live with
      | true => exact (hbecomes.live hlive').symm
      | false =>
          cases hlive : r.live with
          | false => rfl
          | true =>
              have hmem := htouched r hr r' hr' hbecomes.id hlive hlive'
              rw [hholds.id, hid] at hmem
              exact absurd hmem hkept

theorem Coherent.forget_same (h : c.Coherent t) (ids : List Int) :
    (ids.foldl eraseStatement c).Coherent t := by
  have hstatement := get?_foldl_eraseStatement c ids
  obtain ⟨statement, heq⟩ := foldl_eraseStatement ids c
  rw [heq] at hstatement ⊢
  exact ⟨h.node, h.uri, h.blank, h.literal,
    fun id s hs => h.statement id s (hstatement id s hs).2⟩

theorem Coherent.foldl {α : Type} {f : Caches → α → Caches} {xs : List α}
    (hf : ∀ c, c.Coherent t → ∀ x ∈ xs, (f c x).Coherent t) (h : c.Coherent t) :
    (xs.foldl f c).Coherent t := by
  induction xs generalizing c with
  | nil => exact h
  | cons x rest ih =>
      exact ih (fun c hc y hy => hf c hc y (by simp [hy])) (hf c h x (by simp))

theorem Coherent.of_eq (h : c.Coherent t) (hnodes : t'.nodes = t.nodes)
    (hstatements : t'.statements = t.statements) : c.Coherent t' := by
  constructor <;> simp only [Tables.HoldsNode, Tables.HoldsStatement, hnodes, hstatements]
  · exact h.node
  · exact h.uri
  · exact h.blank
  · exact h.literal
  · exact h.statement

theorem Coherent.namespaces (h : c.Coherent t) {c' : Caches} (hnode : c'.node = c.node)
    (huri : c'.uri = c.uri) (hblank : c'.blank = c.blank) (hliteral : c'.literal = c.literal)
    (hstatement : c'.statement = c.statement) : c'.Coherent t := by
  constructor
  · rw [hnode]
    exact h.node
  · rw [huri]
    exact h.uri
  · rw [hblank]
    exact h.blank
  · rw [hliteral]
    exact h.literal
  · rw [hstatement]
    exact h.statement

end Caches

namespace Workspace

variable {w : Workspace}

theorem Good.publishTo (h : w.Good) : (w.conn.publishTo w.store.caches).Coherent w.view := by
  unfold Connection.publishTo
  apply Caches.Coherent.foldl
  · exact fun c hc ns _ => hc.namespaces rfl rfl rfl rfl rfl
  apply Caches.Coherent.foldl
  · exact fun c hc ns _ => hc.namespaces rfl rfl rfl rfl rfl
  apply Caches.Coherent.foldl
  · intro c hc s hs
    exact hc.addStatement (h.coherent.freshStatements s (List.mem_filter.mp hs).1)
  apply Caches.Coherent.foldl
  · exact fun c hc n hn => hc.addNode (h.coherent.freshNodes n hn)
  exact h.coherent.caches.forget h.nodes h.evolves h.coherent.touched

theorem Good.discardFrom (h : w.Good) :
    (w.conn.discardFrom w.store.caches).Coherent w.database.committed := by
  unfold Connection.discardFrom
  exact (h.coherent.caches.forget_same _).forget_same _

theorem Bound.publishTo (h : w.Bound) : (w.conn.publishTo w.store.caches).Bound w.view := by
  unfold Connection.publishTo
  dsimp only
  have hothers : w.store.caches.SameBindings ((w.conn.freshStatements.filter fun t =>
      !t.deleted).foldl Caches.addStatement (w.conn.freshNodes.foldl Caches.addNode
        (w.conn.touched.foldl Caches.eraseStatement w.store.caches))) :=
    .trans (.trans (Caches.sameBindings_eraseStatements _ _)
      (Caches.sameBindings_foldl Caches.sameBindings_addNode _ _))
      (Caches.sameBindings_foldl Caches.sameBindings_addStatement _ _)
  apply Caches.Bound.foldl
  · exact fun c hc ns hns => hc.addNamespace (h.fresh ns hns)
  -- What is cached and was removed has been forgotten under its prefix and its URI.
  have hcaches := h.caches.of_same hothers
  obtain ⟨hlabel, huri⟩ := Caches.get?_foldl_eraseNamespace w.conn.removedNamespaces _
  have still_held : ∀ {ns : Namespace}, w.database.committed.HoldsNamespace ns →
      (∀ other ∈ w.conn.removedNamespaces, other.label ≠ ns.label ∨ other.uri ≠ ns.uri) →
        w.view.HoldsNamespace ns := by
    rintro ns ⟨r, hr, hholds⟩ hkept
    refine ⟨r, ?_, hholds⟩
    by_contra hgone
    obtain ⟨other, hother, hsame, hsame'⟩ := h.removed r hr hgone
    rcases hkept other hother with hne | hne
    · exact hne (hsame.trans hholds.label)
    · exact hne (hsame'.trans hholds.uri)
  constructor
  · intro label ns hns
    obtain ⟨hns, hkept⟩ := hlabel label ns hns
    obtain ⟨hsame, hheld⟩ := hcaches.label label ns hns
    exact ⟨hsame, still_held hheld fun other hother => .inl (hsame ▸ hkept other hother)⟩
  · intro uri ns hns
    obtain ⟨hns, hkept⟩ := huri uri ns hns
    obtain ⟨hsame, hheld⟩ := hcaches.uri uri ns hns
    exact ⟨hsame, still_held hheld fun other hother => .inr (hsame ▸ hkept other hother)⟩

theorem Bound.discardFrom (h : w.Bound) :
    (w.conn.discardFrom w.store.caches).Bound w.database.committed :=
  h.caches.of_same (.trans (Caches.sameBindings_eraseStatements _ _)
    (Caches.sameBindings_eraseStatements _ _))

theorem good_of_idle (hcounter : 0 ≤ w.store.counters.statements)
    (hsound : w.database.committed.Sound) (hcaches : w.store.caches.Coherent w.database.committed)
    (hpending : w.conn.pending = none) (hnodes : w.conn.freshNodes = [])
    (hstatements : w.conn.freshStatements = []) : w.Good := by
  have hview : w.view = w.database.committed := by simp [view, hpending]
  refine ⟨hcounter, hview ▸ hsound, ?_, hview ▸ refl _,
    ⟨hcaches, ?_, ?_, fun _ => ⟨hnodes, hstatements⟩,
    ?_⟩⟩
  · rw [hview]
    exact fun r hr => hr
  · simp [hnodes]
  · simp [hstatements]
  · rw [hview]
    intro r hr r' hr' hid hlive hdead
    rw [hsound.row_eq hr' hr hid, hlive] at hdead
    cases hdead

end Workspace

namespace Transaction

variable {s s' : Scope}

/-- What is left of a transaction that has ended. -/
structure Ended (s s' : Scope) : Prop where
  closed : s'.closed = true
  changes : s'.changes = .empty
  conn : s'.work.conn = { transaction := s.work.conn.transaction }
  config : s'.work.store.config = s.work.store.config
  labelling : s.work.store.Labelling s'.work.store
  counters : s'.work.store.counters = s.work.store.counters
  registry : (s'.work.store.registry, s'.work.registryFile) =
    s.work.store.registry.release s.work.registryFile s.work.conn.transaction
  locked : s'.work.database.locked = (!s.work.conn.writing && s.work.database.locked)
  bound : s.work.Bound → s'.work.store.caches.Bound s'.work.database.committed

namespace Ended

theorem pending (h : Ended s s') : s'.work.conn.pending = none := by rw [h.conn]

theorem freshNodes (h : Ended s s') : s'.work.conn.freshNodes = [] := by rw [h.conn]

theorem freshStatements (h : Ended s s') : s'.work.conn.freshStatements = [] := by rw [h.conn]

theorem transaction (h : Ended s s') :
    s'.work.conn.transaction = s.work.conn.transaction := by rw [h.conn]

end Ended

/-- What a commit leaves: the tables that the transaction saw, and a report of its changes. -/
structure Committed (s s' : Scope) : Prop extends Ended s s' where
  nodes : s'.work.database.committed.nodes = s.work.view.nodes
  statements : s'.work.database.committed.statements = s.work.view.statements
  namespaces : s'.work.database.committed.namespaces = s.work.view.namespaces
  idle : s.work.conn.writing = false → s'.work.database.committed = s.work.database.committed
  caches : s.work.Good → s'.work.store.caches.Coherent s'.work.database.committed
  events : s'.work.store.events =
    if s.changes.isEmpty then s.work.store.events else s.work.store.events ++ [s.changes]

/-- Only a transaction that writes changes the committed tables when it commits. -/
theorem Committed.changed (h : Committed s s') : s.work.conn.writing = true ∨
    s'.work.database.committed = s.work.database.committed := by
  cases hwriting : s.work.conn.writing with
  | true => exact .inl rfl
  | false => exact .inr (h.idle hwriting)

/-- What is left when nothing is committed. -/
structure Abandoned (s s' : Scope) : Prop extends Ended s s' where
  committed : s'.work.database.committed = s.work.database.committed
  caches : s.work.Good → s'.work.store.caches.Coherent s'.work.database.committed
  events : s'.work.store.events = s.work.store.events

theorem finish_eq_ok (hopen : s.closed = false) {refusal : Option DataFault}
    (haccepted : refusal = none ∨ s.work.conn.writing = false) :
    ∃ s', finish refusal s = .ok () s' ∧ Committed s s' := by
  rw [finish, whileOpen_of_open hopen]
  have hpublish := Workspace.Good.publishTo (w := s.work)
  have hbound := Workspace.Bound.publishTo (w := s.work)
  obtain ⟨⟨database, file, store, ⟨transaction, pending, _, _, _, _, _⟩⟩,
    ⟨added, removed⟩, closed⟩ := s
  cases pending with
  | none =>
      cases refusal <;> cases added <;> cases removed <;>
        exact ⟨_, rfl, ⟨rfl, rfl, rfl, rfl, ⟨rfl, le_refl _⟩, rfl, rfl, rfl, hbound⟩,
          rfl, rfl, rfl, fun _ => rfl, hpublish, rfl⟩
  | some t =>
      obtain rfl : refusal = none := haccepted.resolve_right (by simp [Connection.writing])
      cases added <;> cases removed <;>
        exact ⟨_, rfl, ⟨rfl, rfl, rfl, rfl, ⟨rfl, le_refl _⟩, rfl, rfl, rfl,
          fun h => (hbound h).of_eq rfl⟩, rfl, rfl,
          rfl, (by rintro ⟨⟩), fun h => (hpublish h).of_eq rfl rfl, rfl⟩

theorem finish_eq_error (hopen : s.closed = false) {fault : DataFault}
    (hwriting : s.work.conn.writing = true) :
    ∃ s', finish (some fault) s = .error (.data fault) s' ∧ Abandoned s s' := by
  rw [finish, whileOpen_of_open hopen]
  have hdiscard := Workspace.Good.discardFrom (w := s.work)
  have hbound := Workspace.Bound.discardFrom (w := s.work)
  obtain ⟨⟨database, file, store, ⟨transaction, pending, _, _, _, _, _⟩⟩, changes, closed⟩ := s
  cases pending with
  | none => cases hwriting
  | some t =>
      exact ⟨_, rfl, ⟨rfl, rfl, rfl, rfl, ⟨rfl, le_refl _⟩, rfl, rfl, rfl, hbound⟩,
        rfl, hdiscard, rfl⟩

theorem abort_eq (s : Scope) : ∃ s', abort s = .ok () s' ∧ Abandoned s s' := by
  have hdiscard := Workspace.Good.discardFrom (w := s.work)
  have hbound := Workspace.Bound.discardFrom (w := s.work)
  obtain ⟨⟨database, file, store, ⟨transaction, pending, _, _, _, _, _⟩⟩, changes, closed⟩ := s
  cases pending with
  | none =>
      exact ⟨_, rfl, ⟨rfl, rfl, rfl, rfl, ⟨rfl, le_refl _⟩, rfl, rfl, rfl, hbound⟩,
        rfl, hdiscard, rfl⟩
  | some t =>
      exact ⟨_, rfl, ⟨rfl, rfl, rfl, rfl, ⟨rfl, le_refl _⟩, rfl, rfl, rfl, hbound⟩,
        rfl, hdiscard, rfl⟩

theorem finish_cases (refusal : Option DataFault) (s : Scope) :
    (∃ s', finish refusal s = .ok () s' ∧ s.closed = false ∧ Committed s s') ∨
      (∃ e s', finish refusal s = .error e s' ∧ s.closed = false ∧ Abandoned s s') ∨
        finish refusal s = .error .closed s ∧ s.closed = true := by
  cases hclosed : s.closed with
  | true => exact .inr (.inr ⟨whileOpen_of_closed hclosed, rfl⟩)
  | false =>
      by_cases haccepted : refusal = none ∨ s.work.conn.writing = false
      · obtain ⟨s', hop, hcommitted⟩ := finish_eq_ok hclosed haccepted
        exact .inl ⟨s', hop, rfl, hcommitted⟩
      · rw [not_or] at haccepted
        obtain ⟨fault, rfl⟩ := Option.ne_none_iff_exists'.mp haccepted.1
        obtain ⟨s', hop, habandoned⟩ := finish_eq_error hclosed (by simpa using haccepted.2)
        exact .inr (.inl ⟨_, s', hop, rfl, habandoned⟩)

theorem rollback_cases (s : Scope) :
    (∃ s', rollback s = .ok () s' ∧ s.closed = false ∧ Abandoned s s') ∨
      rollback s = .error .closed s ∧ s.closed = true := by
  cases hclosed : s.closed with
  | true => exact .inr ⟨whileOpen_of_closed hclosed, rfl⟩
  | false =>
      obtain ⟨s', hop, habandoned⟩ := abort_eq s
      refine .inl ⟨s', ?_, rfl, habandoned⟩
      rw [rollback, whileOpen_of_open hclosed, hop]

theorem drop_cases (s : Scope) :
    (∃ s', drop s = .ok () s' ∧ s.closed = false ∧ Abandoned s s') ∨
      drop s = .ok () s ∧ s.closed = true := by
  unfold drop
  rw [bind_of_ok (a := (get : Operation Scope)) (s := s) rfl]
  cases hclosed : s.closed with
  | true => exact .inr ⟨rfl, rfl⟩
  | false =>
      obtain ⟨s', hop, habandoned⟩ := abort_eq s
      exact .inl ⟨s', hop, rfl, habandoned⟩

namespace Scope

/-- What a transaction leaves when it ends. -/
def ended (s : Scope) (database : Database) (caches : Caches)
    (events : List ChangeEvent) : Scope where
  work := {
    database
    registryFile := (s.work.store.registry.release s.work.registryFile s.work.conn.transaction).2
    store := { s.work.store with
      registry := (s.work.store.registry.release s.work.registryFile s.work.conn.transaction).1
      caches, events }
    conn := { transaction := s.work.conn.transaction } }
  changes := .empty
  closed := true

/-- What a transaction leaves when it commits. -/
def finished (s : Scope) : Scope :=
  s.ended
    (s.work.conn.pending.elim s.work.database fun t => ⟨s.work.store.counters.persist t, false⟩)
    (s.work.conn.publishTo s.work.store.caches)
    (if s.changes.isEmpty then s.work.store.events else s.work.store.events ++ [s.changes])

/-- What a transaction leaves when it is abandoned. -/
def abandoned (s : Scope) : Scope :=
  s.ended { s.work.database with locked := !s.work.conn.writing && s.work.database.locked }
    (s.work.conn.discardFrom s.work.store.caches) s.work.store.events

end Scope

theorem finish_eq_finished (hopen : s.closed = false) {refusal : Option DataFault}
    (haccepted : refusal = none ∨ s.work.conn.writing = false) :
    finish refusal s = .ok () s.finished := by
  rw [finish, whileOpen_of_open hopen]
  obtain ⟨⟨database, file, store, ⟨transaction, pending, _, _, _, _, _⟩⟩,
    ⟨added, removed⟩, closed⟩ := s
  cases pending with
  | none => cases refusal <;> cases added <;> cases removed <;> rfl
  | some t =>
      obtain rfl : refusal = none := haccepted.resolve_right (by simp [Connection.writing])
      cases added <;> cases removed <;> rfl

theorem finish_eq_abandoned (hopen : s.closed = false) {fault : DataFault}
    (hwriting : s.work.conn.writing = true) :
    finish (some fault) s = .error (.data fault) s.abandoned := by
  rw [finish, whileOpen_of_open hopen]
  obtain ⟨⟨database, file, store, ⟨transaction, pending, _, _, _, _, _⟩⟩, changes, closed⟩ := s
  cases pending with
  | none => cases hwriting
  | some t => rfl

theorem abort_eq_abandoned (s : Scope) : abort s = .ok () s.abandoned := by
  obtain ⟨⟨database, file, store, ⟨transaction, pending, _, _, _, _, _⟩⟩, changes, closed⟩ := s
  cases pending <;> rfl

end Transaction
end QuadStore
