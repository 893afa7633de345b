import QuadStore.Connection
import QuadStore.Proofs.CacheLosses
import QuadStore.Proofs.Evolution

namespace QuadStore

/-- Whether a row is the one of a node. Of a literal only the id is looked at, and that
its row is no resource. -/
def NodeRow.Holds (r : NodeRow) (n : Node) : Prop :=
  r.id = n.id ∧
    match n.term with
    | .uri uri => r.kind = "uri" ∧ r.lexical = uri
    | .blank label => r.kind = "bnode" ∧ r.lexical = label
    | .literal _ => r.isResource = false

/-- Whether a term is a URI or a blank node. -/
def Term.isResource : Term → Bool
  | .uri _ | .blank _ => true
  | .literal _ => false

namespace NodeRow

variable {r : NodeRow} {n : Node}

theorem Holds.isResource (h : r.Holds n) : r.isResource = n.term.isResource := by
  obtain ⟨-, hterm⟩ := h
  cases hn : n.term with
  | uri uri =>
      rw [hn] at hterm
      simp [NodeRow.isResource, Term.isResource, hterm.1]
  | blank label =>
      rw [hn] at hterm
      simp [NodeRow.isResource, Term.isResource, hterm.1]
  | literal l =>
      rw [hn] at hterm
      exact hterm

theorem Holds.term_eq_iff {r' : NodeRow} {n' : Node} (h : r.Holds n) (h' : r'.Holds n')
    (hn : n.term.isResource = true) (hn' : n'.term.isResource = true) :
    n.term = n'.term ↔ r.kind = r'.kind ∧ r.lexical = r'.lexical := by
  obtain ⟨-, hterm⟩ := h
  obtain ⟨-, hterm'⟩ := h'
  cases hcase : n.term <;> cases hcase' : n'.term <;> rw [hcase] at hterm hn <;>
    rw [hcase'] at hterm' hn' <;> simp_all [Term.isResource]

theorem Holds.term_eq {m : Node} (h : r.Holds n) (h' : r.Holds m)
    (hm : m.term.isResource = true) :
    n.term = m.term := by
  have hn : n.term.isResource = true := h.isResource.symm.trans (h'.isResource.trans hm)
  exact (h.term_eq_iff h' hn hm).mpr ⟨rfl, rfl⟩

end NodeRow

/-- Whether a row is the one of a statement, with the marks that the statement says it has. -/
structure StatementRow.Holds (r : StatementRow) (s : Statement) : Prop where
  id : r.id = s.id
  key : r.key = s.key
  inferred : r.isInferred = s.inferred
  live : r.live = !s.deleted

namespace Tables

def HoldsNode (t : Tables) (n : Node) : Prop :=
  ∃ r ∈ t.nodes, r.Holds n

def HoldsStatement (t : Tables) (s : Statement) : Prop :=
  ∃ r ∈ t.statements, r.Holds s

end Tables

/-- A condition that a new value satisfies holds of all values of a cache if it did before. -/
theorem Cache.forall_put {κ ν : Type} [DecidableEq κ] {cache : Cache κ ν} {P : κ → ν → Prop}
    (h : ∀ k v, cache.get? k = some v → P k v) {key : κ} {value : ν} (hnew : P key value) :
    ∀ k v, (cache.put key value).get? k = some v → P k v := by
  intro k v hv
  rw [Cache.get?_put] at hv
  split at hv
  · rename_i hkey
    obtain ⟨rfl, -⟩ := hkey
    rwa [← Option.some.inj hv]
  · exact h k v hv

theorem Cache.get?_of_erase {κ ν : Type} [DecidableEq κ] {cache : Cache κ ν} {key k : κ} {v : ν}
    (h : (cache.erase key).get? k = some v) : k ≠ key ∧ cache.get? k = some v := by
  rw [Cache.get?_erase] at h
  split at h
  · cases h
  · exact ⟨Ne.symm ‹_›, h⟩

namespace Caches

/-- Whether nodes and statements are cached under their own ids. -/
structure Keyed (c : Caches) : Prop where
  node : ∀ id n, c.node.get? id = some n → n.id = id
  statement : ∀ id s, c.statement.get? id = some s → s.id = id

/-- Whether what is cached is in the tables. -/
structure Coherent (c : Caches) (t : Tables) : Prop where
  node : ∀ id n, c.node.get? id = some n → n.id = id ∧ t.HoldsNode n
  uri : ∀ uri n, c.uri.get? uri = some n → n.term = .uri uri ∧ t.HoldsNode n
  blank : ∀ label n, c.blank.get? label = some n → n.term = .blank label ∧ t.HoldsNode n
  literal : ∀ key n, c.literal.get? key = some n → n.literalKey? = some key ∧ t.HoldsNode n
  statement : ∀ id s, c.statement.get? id = some s → s.id = id ∧ t.HoldsStatement s

variable {c : Caches} {t t' : Tables}

theorem Keyed.addNode (h : c.Keyed) (n : Node) : (c.addNode n).Keyed := by
  have hnode : ∀ k v, (c.node.put n.id n).get? k = some v → v.id = k :=
    Cache.forall_put h.node rfl
  unfold Caches.addNode
  split
  · exact h
  · dsimp only
    split <;> exact ⟨hnode, h.statement⟩

theorem Keyed.addStatement (h : c.Keyed) (s : Statement) : (c.addStatement s).Keyed := by
  unfold Caches.addStatement
  split
  · exact ⟨h.node, Cache.forall_put h.statement rfl⟩
  · exact h

namespace Coherent

theorem keyed (h : c.Coherent t) : c.Keyed :=
  ⟨fun id n hn => (h.node id n hn).1, fun id s hs => (h.statement id s hs).1⟩

theorem addNode (h : c.Coherent t) {n : Node} (hn : t.HoldsNode n) :
    (c.addNode n).Coherent t := by
  have hnode : ∀ k v, (c.node.put n.id n).get? k = some v → v.id = k ∧ t.HoldsNode v :=
    Cache.forall_put h.node ⟨rfl, hn⟩
  unfold Caches.addNode
  split
  · exact h
  · dsimp only
    split
    · rename_i hterm
      exact ⟨hnode, Cache.forall_put h.uri ⟨hterm, hn⟩, h.blank, h.literal, h.statement⟩
    · rename_i hterm
      exact ⟨hnode, h.uri, Cache.forall_put h.blank ⟨hterm, hn⟩, h.literal, h.statement⟩
    · rename_i l hterm
      have hkey : n.literalKey? = some l.key := by simp [Node.literalKey?, Node.literal?, hterm]
      exact ⟨hnode, h.uri, h.blank, Cache.forall_put h.literal ⟨hkey, hn⟩, h.statement⟩

theorem addStatement (h : c.Coherent t) {s : Statement} (hs : t.HoldsStatement s) :
    (c.addStatement s).Coherent t := by
  unfold Caches.addStatement
  split
  · exact ⟨h.node, h.uri, h.blank, h.literal, Cache.forall_put h.statement ⟨rfl, hs⟩⟩
  · exact h

theorem clear (c : Caches) (t : Tables) : c.clear.Coherent t := by
  constructor <;> simp [Caches.clear]

theorem of_partOf {c' : Caches} (h : c'.Coherent t) (hpart : c.PartOf c') : c.Coherent t :=
  ⟨fun id n hn => h.node id n (hpart.node.found id n hn),
    fun uri n hn => h.uri uri n (hpart.uri.found uri n hn),
    fun label n hn => h.blank label n (hpart.blank.found label n hn),
    fun key n hn => h.literal key n (hpart.literal.found key n hn),
    fun id s hs => h.statement id s (hpart.statement.found id s hs)⟩

theorem make (config : CacheConfig) (t : Tables) : (Caches.make config).Coherent t := by
  constructor <;> simp [Caches.make, Cache.make, Cache.get?]

end Coherent

theorem get?_foldl_eraseStatement (c : Caches) (ids : List Int) (id : Int) (s : Statement)
    (h : (ids.foldl Caches.eraseStatement c).statement.get? id = some s) :
    id ∉ ids ∧ c.statement.get? id = some s := by
  induction ids generalizing c with
  | nil => exact ⟨List.not_mem_nil, h⟩
  | cons first rest ih =>
      obtain ⟨hrest, herased⟩ := ih (c.eraseStatement first) h
      obtain ⟨hne, hget⟩ := Cache.get?_of_erase herased
      exact ⟨by simp [hne, hrest], hget⟩

theorem foldl_eraseStatement (ids : List Int) (c : Caches) :
    ∃ statement, ids.foldl Caches.eraseStatement c = { c with statement } := by
  induction ids generalizing c with
  | nil => exact ⟨c.statement, rfl⟩
  | cons first rest ih =>
      obtain ⟨statement, hrest⟩ := ih (c.eraseStatement first)
      exact ⟨statement, hrest⟩

end Caches

theorem Workspace.pending_eq {w : Workspace} (h : w.conn.writing = true) :
    w.conn.pending = some w.view := by
  obtain ⟨t, ht⟩ := Option.isSome_iff_exists.mp h
  simp [Workspace.view, ht]

theorem Workspace.view_eq_committed {w : Workspace} (h : w.conn.writing = false) :
    w.view = w.database.committed := by
  have hnone : w.conn.pending = none := by simpa [Connection.writing] using h
  simp [Workspace.view, hnone]

/-- Whether caches agree with the committed tables, and what awaits publication with the tables of
the connection. A connection that does not write has nothing that awaits publication, and one that
does has noted which rows it has marked as deleted. -/
structure Workspace.Coherent (w : Workspace) : Prop where
  caches : w.store.caches.Coherent w.database.committed
  freshNodes : ∀ n ∈ w.conn.freshNodes, w.view.HoldsNode n
  freshStatements : ∀ s ∈ w.conn.freshStatements, w.view.HoldsStatement s
  idle : w.conn.writing = false → w.conn.freshNodes = [] ∧ w.conn.freshStatements = []
  touched : ∀ r ∈ w.database.committed.statements, ∀ r' ∈ w.view.statements, r'.id = r.id →
    r.live = true → r'.live = false → r.id ∈ w.conn.touched

end QuadStore
