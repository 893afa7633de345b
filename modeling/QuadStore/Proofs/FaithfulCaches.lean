import QuadStore.Proofs.Agreement
import QuadStore.Proofs.Endings
import QuadStore.Proofs.WrittenTables

namespace QuadStore

namespace Caches

/-- Whether all cached nodes and statements satisfy some conditions. -/
structure All (P : Node → Prop) (S : Statement → Prop) (c : Caches) : Prop where
  node : ∀ k n, c.node.get? k = some n → P n
  uri : ∀ k n, c.uri.get? k = some n → P n
  blank : ∀ k n, c.blank.get? k = some n → P n
  literal : ∀ k n, c.literal.get? k = some n → P n
  statement : ∀ k s, c.statement.get? k = some s → S s

namespace All

variable {P P' : Node → Prop} {S S' : Statement → Prop} {c : Caches}

theorem imp (h : c.All P S) (hP : ∀ n, P n → P' n) (hS : ∀ s, S s → S' s) : c.All P' S' :=
  ⟨fun k n hn => hP n (h.node k n hn), fun k n hn => hP n (h.uri k n hn),
    fun k n hn => hP n (h.blank k n hn), fun k n hn => hP n (h.literal k n hn),
    fun k s hs => hS s (h.statement k s hs)⟩

theorem make (config : CacheConfig) : (Caches.make config).All P S := by
  constructor <;> simp [Caches.make, Cache.make, Cache.get?]

theorem clear (c : Caches) : c.clear.All P S := by
  constructor <;> simp [Caches.clear]

theorem of_partOf {c' : Caches} (h : c'.All P S) (hpart : c.PartOf c') : c.All P S :=
  ⟨fun k n hn => h.node k n (hpart.node.found k n hn),
    fun k n hn => h.uri k n (hpart.uri.found k n hn),
    fun k n hn => h.blank k n (hpart.blank.found k n hn),
    fun k n hn => h.literal k n (hpart.literal.found k n hn),
    fun k s hs => h.statement k s (hpart.statement.found k s hs)⟩

theorem addNode (h : c.All P S) {n : Node} (hn : P n) : (c.addNode n).All P S := by
  have hnode : ∀ k m, (c.node.put n.id n).get? k = some m → P m := Cache.forall_put h.node hn
  unfold Caches.addNode
  split
  · exact h
  · dsimp only
    split
    · exact ⟨hnode, Cache.forall_put h.uri hn, h.blank, h.literal, h.statement⟩
    · exact ⟨hnode, h.uri, Cache.forall_put h.blank hn, h.literal, h.statement⟩
    · exact ⟨hnode, h.uri, h.blank, Cache.forall_put h.literal hn, h.statement⟩

theorem addStatement (h : c.All P S) {s : Statement} (hs : S s) : (c.addStatement s).All P S := by
  unfold Caches.addStatement
  split
  · exact ⟨h.node, h.uri, h.blank, h.literal, Cache.forall_put h.statement hs⟩
  · exact h

theorem eraseStatements (h : c.All P S) {ids : List Int}
    (hS : ∀ k s, k ∉ ids → c.statement.get? k = some s → S' s) :
    (ids.foldl eraseStatement c).All P S' := by
  have hstatement := get?_foldl_eraseStatement c ids
  obtain ⟨statement, heq⟩ := foldl_eraseStatement ids c
  rw [heq] at hstatement ⊢
  refine ⟨h.node, h.uri, h.blank, h.literal, fun k s hs => ?_⟩
  obtain ⟨hkept, hs⟩ := hstatement k s hs
  exact hS k s hkept hs

theorem foldl {α : Type} {f : Caches → α → Caches} {xs : List α} (h : c.All P S)
    (hf : ∀ c : Caches, c.All P S → ∀ x ∈ xs, (f c x).All P S) : (xs.foldl f c).All P S := by
  induction xs generalizing c with
  | nil => exact h
  | cons x rest ih => exact ih (hf c h x (by simp)) fun c hc y hy => hf c hc y (by simp [hy])

variable {conn : Connection}

/-- What is cached after a connection has been published was cached before, unless it was
forgotten, or awaited publication. -/
theorem publishTo (h : (conn.touched.foldl eraseStatement c).All P S)
    (hnodes : ∀ n ∈ conn.freshNodes, P n)
    (hstatements : ∀ s ∈ conn.freshStatements, S s) : (conn.publishTo c).All P S := by
  unfold Connection.publishTo
  dsimp only
  refine foldl ?_ fun c hc ns _ => ⟨hc.node, hc.uri, hc.blank, hc.literal, hc.statement⟩
  refine foldl ?_ fun c hc ns _ => ⟨hc.node, hc.uri, hc.blank, hc.literal, hc.statement⟩
  refine foldl ?_ fun c hc s hs => hc.addStatement (hstatements s (List.mem_filter.mp hs).1)
  exact foldl h fun c hc n hn => hc.addNode (hnodes n hn)

theorem discardFrom (h : c.All P S) (conn : Connection) : (conn.discardFrom c).All P S := by
  unfold Connection.discardFrom
  refine eraseStatements (S := S) ?_ ?_
  · exact h.eraseStatements fun k s _ hs => h.statement k s hs
  · exact fun k s _ hs => h.statement k s (get?_foldl_eraseStatement _ _ _ _ hs).2

end All

/-- Whether what is cached is what rows of the tables are read as. -/
def Faithful (c : Caches) (t : Tables) : Prop :=
  c.All t.Knows t.KnowsStatement

end Caches

theorem Tables.ShowsStatement.holds {t : Tables} {r : StatementRow} {s : Statement}
    (h : t.ShowsStatement r s) : r.Holds s :=
  ⟨h.id.symm, h.key.symm, h.inferred.symm, by simp [h.deleted]⟩

theorem Tables.KnowsStatement.holdsStatement {t : Tables}
    {s : Statement} (h : t.KnowsStatement s) :
    t.HoldsStatement s := by
  obtain ⟨r, hr, hshows⟩ := h
  exact ⟨r, hr, hshows.holds⟩

namespace Workspace

/-- Whether the tables can be read, and what is cached and what awaits publication is what their
rows are read as. Rows of statements stay as they are until they are marked as deleted. The
registry is not one that is lost with the caches. -/
structure Faithful (w : Workspace) : Prop where
  nodeCounter : 0 ≤ w.store.counters.nodes
  registry : w.store.registry.strategy ≠ .cache
  committed : w.database.committed.Written
  view : w.view.Written
  caches : w.store.caches.Faithful w.database.committed
  freshNodes : ∀ n ∈ w.conn.freshNodes, w.view.Knows n
  freshStatements : ∀ s ∈ w.conn.freshStatements, w.view.KnowsStatement s
  kept : ∀ r ∈ w.database.committed.statements, r ∈ w.view.statements ∨
    r.live = true ∧ r.mark ∈ w.view.statements

/-- Whether a workspace is in order such that it does not matter what is cached. -/
structure Ready (w : Workspace) : Prop extends w.Good, w.Faithful

end Workspace

/-- The account of changes without the marks of new ids. -/
def ChangeEvent.plain (e : ChangeEvent) : ChangeEvent :=
  ⟨e.added.map Statement.plain, e.removed.map Statement.plain⟩

/-- A store without what is cached and without the marks of new ids. -/
def Store.bare (s : Store) : Store :=
  { s with caches := .make {}, events := s.events.map ChangeEvent.plain }

def Connection.bare (c : Connection) : Connection :=
  { c with freshNodes := [], freshStatements := [] }

/-- A workspace without what is cached or awaits that. -/
def Workspace.bare (w : Workspace) : Workspace :=
  { w with store := w.store.bare, conn := w.conn.bare }

/-- Whether two workspaces are in order and differ in nothing but what is cached. -/
structure Like (w w' : Workspace) : Prop where
  left : w.Ready
  right : w'.Ready
  bare : w'.bare = w.bare

/-- Whether a workspace is left in order after something has been read. -/
structure Looked (w w' : Workspace) : Prop where
  caching : Caching w w'
  ready : w'.Ready

variable {w w' x x' : Workspace}

theorem bare_of_caching (h : Caching w w') : w'.bare = w.bare := by
  obtain ⟨_, _, _, rfl⟩ := h
  rfl

theorem view_of_caching (h : Caching w w') : w'.view = w.view := by
  obtain ⟨_, _, _, rfl⟩ := h
  rfl

namespace Looked

theorem refl (h : w.Ready) : Looked w w :=
  ⟨⟨w.store.caches, w.conn.freshNodes, w.conn.freshStatements, rfl⟩, h⟩

theorem trans (h : Looked w w') (h' : Looked w' x) : Looked w x :=
  ⟨IsTrans.trans _ _ _ h.caching h'.caching, h'.ready⟩

theorem view_eq (h : Looked w w') : w'.view = w.view :=
  view_of_caching h.caching

end Looked

namespace Like

theorem symm (h : Like w w') : Like w' w :=
  ⟨h.right, h.left, h.bare.symm⟩

theorem refl (h : w.Ready) : Like w w :=
  ⟨h, h, rfl⟩

theorem looked (h : Like w w') (hx : Looked w x) (hx' : Looked w' x') : Like x x' :=
  ⟨hx.ready, hx'.ready,
    (bare_of_caching hx'.caching).trans (h.bare.trans (bare_of_caching hx.caching).symm)⟩

theorem view (h : Like w w') : w'.view = w.view :=
  (congrArg Workspace.view h.bare :)

theorem committed (h : Like w w') : w'.database = w.database :=
  (congrArg Workspace.database h.bare :)

theorem config (h : Like w w') : w'.store.config = w.store.config :=
  (congrArg (fun b : Workspace => b.store.config) h.bare :)

theorem counters (h : Like w w') : w'.store.counters = w.store.counters :=
  (congrArg (fun b : Workspace => b.store.counters) h.bare :)

theorem pending (h : Like w w') : w'.conn.pending = w.conn.pending :=
  (congrArg (fun b : Workspace => b.conn.pending) h.bare :)

theorem writing (h : Like w w') : w'.conn.writing = w.conn.writing := by
  rw [Connection.writing, h.pending, Connection.writing]

end Like

namespace Workspace

theorem Ready.of_reads (h : w.Ready) (hreads : Reads w w')
    (hcaches : w'.store.caches.Faithful w.database.committed)
    (hnodes : ∀ n ∈ w'.conn.freshNodes, w.view.Knows n)
    (hstatements : ∀ s ∈ w'.conn.freshStatements, w.view.KnowsStatement s) : Looked w w' := by
  have hgood := hreads.silent.good h.toGood
  refine ⟨hreads.caching, hgood, ?_⟩
  obtain ⟨_, _, _, rfl⟩ := hreads.caching
  exact ⟨h.nodeCounter, h.registry, h.committed, h.view, hcaches, hnodes, hstatements, h.kept⟩

theorem Ready.knows_of_committed (h : w.Ready) {n : Node} (hn : w.database.committed.Knows n) :
    w.view.Knows n :=
  hn.mono h.nodes h.sound

end Workspace

namespace Action

theorem cacheNode_eq (h : w.Ready) {n : Node} (hn : w.view.Knows n) :
    ∃ w', cacheNode n w = .ok () w' ∧ Looked w w' := by
  have hreads := cacheNode_reads (w := w) fun _ => hn.holdsNode
  revert hreads
  simp only [cacheNode]
  split
  · rw [bind_of_ok (a := (get : Action Workspace)) (s := w) rfl]
    split
    · refine fun hreads => ⟨_, rfl, h.of_reads hreads h.caches ?_ h.freshStatements⟩
      intro m hm
      rcases List.mem_append.mp hm with hm | hm
      · exact h.freshNodes m hm
      · rwa [List.mem_singleton.mp hm]
    · rename_i hidle
      refine fun hreads => ⟨_, rfl, h.of_reads hreads (h.caches.addNode ?_) h.freshNodes
        h.freshStatements⟩
      rwa [← Workspace.view_eq_committed (by simpa using hidle)]
  · exact fun _ => ⟨w, rfl, .refl h⟩

theorem cacheStatement_eq (h : w.Ready) {s : Statement} (hs : w.view.KnowsStatement s) :
    ∃ w', cacheStatement s w = .ok () w' ∧ Looked w w' := by
  have hreads := cacheStatement_reads hs.holdsStatement
  revert hreads
  simp only [cacheStatement]
  rw [bind_of_ok (a := (get : Action Workspace)) (s := w) rfl]
  split
  · refine fun hreads => ⟨_, rfl, h.of_reads hreads h.caches h.freshNodes ?_⟩
    intro u hu
    rcases List.mem_append.mp hu with hu | hu
    · exact h.freshStatements u hu
    · rwa [List.mem_singleton.mp hu]
  · rename_i hidle
    refine fun hreads => ⟨_, rfl, h.of_reads hreads (h.caches.addStatement ?_) h.freshNodes
      h.freshStatements⟩
    rwa [← Workspace.view_eq_committed (by simpa using hidle)]

end Action

namespace Workspace

theorem Ready.publishTo (h : w.Ready) :
    (w.conn.publishTo w.store.caches).Faithful w.view := by
  refine Caches.All.publishTo (Caches.All.eraseStatements (S := fun _ => True)
    (h.caches.imp (fun n hn => h.knows_of_committed hn) fun _ _ => trivial) ?_) h.freshNodes
    h.freshStatements
  -- A statement that is still cached is that of a row that has not been marked.
  intro id s hid hs
  obtain ⟨r, hr, hshows⟩ := h.caches.statement id s hs
  have hid' : r.id = id := hshows.id.symm.trans (h.coherent.caches.statement id s hs).1
  refine ⟨r, ?_, hshows.mono h.nodes h.sound⟩
  rcases h.kept r hr with hkept | ⟨hlive, hmarked⟩
  · exact hkept
  · have htouched := h.coherent.touched r hr r.mark hmarked rfl hlive rfl
    exact absurd (hid' ▸ htouched) hid

theorem Ready.discardFrom (h : w.Ready) :
    (w.conn.discardFrom w.store.caches).Faithful w.database.committed :=
  Caches.All.discardFrom h.caches w.conn

theorem ready_of_idle (hgood : w.Good) (hidle : w.conn.pending = none)
    (hnodes : w.conn.freshNodes = []) (hstatements : w.conn.freshStatements = [])
    (hcounter : 0 ≤ w.store.counters.nodes) (hregistry : w.store.registry.strategy ≠ .cache)
    (hwritten : w.database.committed.Written)
    (hcaches : w.store.caches.Faithful w.database.committed) : w.Ready := by
  have hview : w.view = w.database.committed := by simp [view, hidle]
  refine ⟨hgood, hcounter, hregistry, hwritten, hview ▸ hwritten, hcaches, ?_, ?_, ?_⟩
  · simp [hnodes]
  · simp [hstatements]
  · exact fun r hr => .inl (hview ▸ hr)

end Workspace
end QuadStore
