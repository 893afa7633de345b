import QuadStore.Proofs.KnownNodes
import QuadStore.Proofs.NodeWork
import QuadStore.Proofs.Reopenings
import QuadStore.Proofs.ResourceIdentity
import QuadStore.Proofs.UncachedNodes

/-!
Resources that are told by their rows. Whoever else writes to the tables, a store finds
the URIs and blank nodes that it has cached in their rows, and reads the row of a
resource as that; it needs neither cached statements that agree with the tables nor a
counter that has passed their ids.
-/

namespace QuadStore

open Transaction

/-- Whether the row of a resource can be read. -/
structure NodeRow.ReadsResource (r : NodeRow) : Prop where
  offset : r.checkOffset = .ok ()
  created : r.created.check = .ok ()

namespace Tables

/-- Whether resources are told by their rows: ids are unique, no two resources are the same term,
and their rows can be read. -/
structure Tells (t : Tables) : Prop where
  ids : (t.nodes.map NodeRow.id).Nodup
  resources : ∀ r ∈ t.nodes, ∀ r' ∈ t.nodes, r.isResource = true → r.kind = r'.kind →
    r.lexical = r'.lexical → r = r'
  reads : ∀ r ∈ t.nodes, r.isResource = true → r.ReadsResource

theorem tells_empty : Tells {} := by
  constructor <;> simp

/-- Whether a node is in the one row that there is for its term. -/
def HasOne (t : Tables) (n : Node) : Prop :=
  ∃ r ∈ t.nodes, r.Holds n ∧ ∀ r' ∈ t.nodes, ∀ id, r'.Holds (n.withId id) → r' = r

variable {t t' : Tables} {n : Node} {r : NodeRow} {term : Term}

theorem Tells.of_eq (h : t.Tells) (hnodes : t'.nodes = t.nodes) : t'.Tells := by
  constructor <;> rw [hnodes]
  · exact h.ids
  · exact h.resources
  · exact h.reads

theorem Tells.hasOne (h : t.Tells) (hresource : n.term.isResource = true) (hn : t.HoldsNode n) :
    t.HasOne n := by
  obtain ⟨r, hr, hholds⟩ := hn
  refine ⟨r, hr, hholds, fun r' hr' id hholds' => ?_⟩
  have hsame : r.kind = r'.kind ∧ r.lexical = r'.lexical :=
    (hholds.term_eq_iff hholds' hresource hresource).mp rfl
  exact (h.resources r hr r' hr' (hholds.isResource.trans hresource) hsame.1 hsame.2).symm

theorem Tells.insertNode (h : t.Tells) {id : Int}
    (hinsert : t.insertNode? (.ofNode id n) = some t') :
    t'.Tells := by
  obtain ⟨rfl, -⟩ := insertNode?_eq_some hinsert
  have hsound : Sound { nodes := t.nodes } := ⟨h.ids, h.resources, .nil, by simp, by simp⟩
  have hinserted : insertNode? { nodes := t.nodes } (.ofNode id n) =
      some { nodes := t.nodes ++ [.ofNode id n] } := by
    unfold insertNode? at hinsert ⊢
    split at hinsert
    · cases hinsert
    · rw [if_neg (by assumption)]
  have hsound' := hsound.insertNode hinserted
  refine ⟨hsound'.nodeIds, hsound'.resources, fun r hr hresource => ?_⟩
  rcases List.mem_append.mp hr with hold | hadded
  · exact h.reads r hold hresource
  · obtain rfl := List.mem_singleton.mp hadded
    obtain ⟨id', term⟩ := n
    cases term with
    | uri | blank => exact ⟨rfl, rfl⟩
    | literal l =>
        cases (Action.holds_ofNode id ⟨id', .literal l⟩).isResource.symm.trans hresource

end Tables

/-- Whether the resources in the caches are in their rows. -/
structure Caches.Tells (c : Caches) (t : Tables) : Prop where
  uri : ∀ uri n, c.uri.get? uri = some n → n.term = .uri uri ∧ t.HoldsNode n
  blank : ∀ label n, c.blank.get? label = some n → n.term = .blank label ∧ t.HoldsNode n

namespace Caches.Tells

variable {c c' : Caches} {t t' : Tables} {n : Node}

theorem make (config : CacheConfig) (t : Tables) : (Caches.make config).Tells t :=
  ⟨(Coherent.make config t).uri, (Coherent.make config t).blank⟩

theorem clear (c : Caches) (t : Tables) : c.clear.Tells t :=
  ⟨(Coherent.clear c t).uri, (Coherent.clear c t).blank⟩

theorem of_partOf (h : c'.Tells t) (hpart : c.PartOf c') : c.Tells t :=
  ⟨fun uri n hn => h.uri uri n (hpart.uri.found uri n hn),
    fun label n hn => h.blank label n (hpart.blank.found label n hn)⟩

theorem of_eq (h : c.Tells t) (huri : c'.uri = c.uri)
    (hblank : c'.blank = c.blank) : c'.Tells t := by
  constructor
  · rw [huri]
    exact h.uri
  · rw [hblank]
    exact h.blank

theorem mono (h : c.Tells t) (hnodes : ∀ r ∈ t.nodes, r ∈ t'.nodes) : c.Tells t' :=
  ⟨fun uri n hn => (h.uri uri n hn).imp_right (·.mono hnodes),
    fun label n hn => (h.blank label n hn).imp_right (·.mono hnodes)⟩

theorem addNode (h : c.Tells t) (hn : t.HoldsNode n) : (c.addNode n).Tells t := by
  unfold Caches.addNode
  split
  · exact h
  · dsimp only
    split
    · rename_i hterm
      exact ⟨Cache.forall_put h.uri ⟨hterm, hn⟩, h.blank⟩
    · rename_i hterm
      exact ⟨h.uri, Cache.forall_put h.blank ⟨hterm, hn⟩⟩
    · exact ⟨h.uri, h.blank⟩

theorem addStatement (h : c.Tells t) (s : Statement) : (c.addStatement s).Tells t := by
  unfold Caches.addStatement
  split
  · exact ⟨h.uri, h.blank⟩
  · exact h

theorem eraseStatements (h : c.Tells t) (ids : List Int) :
    (ids.foldl Caches.eraseStatement c).Tells t := by
  obtain ⟨statement, heq⟩ := foldl_eraseStatement ids c
  rw [heq]
  exact ⟨h.uri, h.blank⟩

theorem foldl {α : Type} {f : Caches → α → Caches} {xs : List α}
    (hf : ∀ c, c.Tells t → ∀ x ∈ xs, (f c x).Tells t) (h : c.Tells t) : (xs.foldl f c).Tells t :=
  List.foldlRecOn (motive := (Caches.Tells · t)) xs f h hf

theorem publishTo (h : c.Tells t) {conn : Connection}
    (hfresh : ∀ n ∈ conn.freshNodes, t.HoldsNode n) :
    (conn.publishTo c).Tells t := by
  unfold Connection.publishTo
  refine foldl (fun c hc ns _ => hc.of_eq rfl rfl) ?_
  refine foldl (fun c hc ns _ => hc.of_eq rfl rfl) ?_
  refine foldl (fun c hc s _ => hc.addStatement s) ?_
  exact foldl (fun c hc n hn => hc.addNode (hfresh n hn)) (h.eraseStatements _)

theorem discardFrom (h : c.Tells t) (conn : Connection) : (conn.discardFrom c).Tells t :=
  (h.eraseStatements _).eraseStatements _

end Caches.Tells

/-- Whether resources are told by their rows in what a connection sees, and by what is
cached or awaits that. -/
structure Workspace.Tells (w : Workspace) : Prop where
  view : w.view.Tells
  nodes : ∀ r ∈ w.database.committed.nodes, r ∈ w.view.nodes
  caches : w.store.caches.Tells w.database.committed
  fresh : ∀ n ∈ w.conn.freshNodes, w.view.HoldsNode n

/-- What calls leave of that. -/
structure Telling (w w' : Workspace) : Prop where
  committed : w'.database.committed = w.database.committed
  tells : w.Tells → w'.Tells

namespace Telling

variable {w w' : Workspace}

instance : IsPreorder Workspace Telling where
  refl _ := ⟨rfl, id⟩
  trans _ _ _ h h' := ⟨h'.committed.trans h.committed, fun hw => h'.tells (h.tells hw)⟩

theorem of_nodes (hcommitted : w'.database.committed = w.database.committed)
    (hnodes : w'.view.nodes = w.view.nodes) (huri : w'.store.caches.uri = w.store.caches.uri)
    (hblank : w'.store.caches.blank = w.store.caches.blank)
    (hfresh : w'.conn.freshNodes = w.conn.freshNodes) : Telling w w' := by
  refine ⟨hcommitted, fun hw => ⟨hw.view.of_eq hnodes, ?_, ?_, ?_⟩⟩
  · rw [hcommitted, hnodes]
    exact hw.nodes
  · rw [hcommitted]
    exact hw.caches.of_eq huri hblank
  · rw [hfresh]
    exact fun n hn => (hw.fresh n hn).mono fun r hr => hnodes ▸ hr

theorem of_aside (h : Aside w w') : Telling w w' :=
  .of_nodes h.committed h.nodes h.uri h.blank h.freshNodes

theorem cacheNode {n : Node} (hn : w.view.HoldsNode n) :
    Telling w (finalState (Action.cacheNode n w)) := by
  simp only [Action.cacheNode]
  split
  · rw [bind_of_ok (a := (get : Action Workspace)) (s := w) rfl]
    split
    · refine ⟨rfl, fun hw => ⟨hw.view, hw.nodes, hw.caches, fun m hm => ?_⟩⟩
      rcases List.mem_append.mp hm with hold | hadded
      · exact hw.fresh m hold
      · rwa [List.mem_singleton.mp hadded]
    · rename_i hidle
      rw [Workspace.view_eq_committed (by simpa using hidle)] at hn
      exact ⟨rfl, fun hw => ⟨hw.view, hw.nodes, hw.caches.addNode hn, hw.fresh⟩⟩
  · exact refl w

theorem insertNode {t : Tables} {id : Int} {n : Node}
    (hinsert : w.view.insertNode? (.ofNode id n) = some t) :
    Telling w (finalState (Action.setTables t w)) := by
  have hadded : ∀ r ∈ w.view.nodes, r ∈ t.nodes := by
    obtain ⟨rfl, -⟩ := Tables.insertNode?_eq_some hinsert
    exact fun r hr => List.mem_append_left _ hr
  exact ⟨rfl, fun hw => ⟨hw.view.insertNode hinsert,
    fun r hr => hadded r (hw.nodes r hr), hw.caches,
    fun m hm => (hw.fresh m hm).mono hadded⟩⟩

theorem keepNode {n : Node} (hn : w.view.HoldsNode n) : Telling w (finalState (Action.modifyConn
    (fun c => { c with freshNodes := c.freshNodes ++ [n] }) w)) := by
  refine ⟨rfl, fun hw => ⟨hw.view, hw.nodes, hw.caches, fun m hm => ?_⟩⟩
  rcases List.mem_append.mp hm with hold | hadded
  · exact hw.fresh m hold
  · rwa [List.mem_singleton.mp hadded]

theorem storeNamespace (ns : Namespace) : Keeps Telling (Action.storeNamespace ns) := by
  refine (Action.beginWrite_aside.mono fun _ _ => of_aside).bind fun _ => ?_
  refine ((Action.nextId_aside _).mono fun _ _ => of_aside).bind fun id =>
    Action.keeps_get.bind_of ?_
  intro w v w₁ hget
  obtain ⟨rfl, rfl⟩ := Action.get_eq_ok_iff.mp hget
  refine finalState_bind (Action.keeps_ofData _ w) fun t w₁ hfound => ?_
  obtain ⟨hinsert, rfl⟩ := Action.ofData_eq_ok_iff.mp hfound
  obtain ⟨rfl, -⟩ := Tables.insertNamespace_eq_ok_iff.mp hinsert
  exact of_nodes rfl rfl rfl rfl rfl

theorem deleteNamespace (ns : Namespace) : Keeps Telling (Action.deleteNamespace ns) := by
  refine (Action.beginWrite_aside.mono fun _ _ => of_aside).bind fun _ =>
    (Action.keeps_view _).bind_of fun w t w₁ hview => ?_
  obtain ⟨rfl, rfl⟩ := Action.view_eq_ok_iff.mp hview
  exact of_nodes rfl rfl rfl rfl rfl

instance : AllowsWork Telling where
  aside := of_aside
  cacheNode := cacheNode
  insertNode _ := insertNode
  keepNode _ := keepNode
  storeNamespace := storeNamespace
  deleteNamespace := deleteNamespace

end Telling

/-! Finding and storing resources -/

/-- Whether no row has the id that the next new node is given. -/
def Workspace.NextFree (w : Workspace) : Prop :=
  w.store.counters.nodes + 1 ∉ w.view.nodes.map NodeRow.id

namespace Tables

variable {t : Tables} {n : Node} {id : Int} {r : NodeRow}

theorem rowOf?_ne_none (hresource : n.term.isResource = true) (h : t.HoldsNode (n.withId id)) :
    t.rowOf? n ≠ none := by
  obtain ⟨r, hr, -, hterm⟩ := h
  obtain ⟨id', term⟩ := n
  intro hnone
  cases term with
  | uri uri =>
      obtain ⟨hkind, hlexical⟩ := hterm
      exact List.find?_eq_none.mp hnone r hr (by simp [hkind, hlexical])
  | blank label =>
      obtain ⟨hkind, hlexical⟩ := hterm
      exact List.find?_eq_none.mp hnone r hr (by simp [hkind, hlexical])
  | literal l => cases hresource

theorem insertNode?_of_rowOf?_eq_none (hresource : n.term.isResource = true)
    (hrow : t.rowOf? n = none) :
    t.insertNode? (.ofNode id n) =
      if id ∈ t.nodes.map NodeRow.id then none
      else some { t with nodes := t.nodes ++ [.ofNode id n] } := by
  have hconflicts : ∀ r ∈ t.nodes, (NodeRow.ofNode id n).conflicts r = false := by
    intro r hr
    by_contra hconflict
    have hholds := Action.holds_ofNode id n
    rw [NodeRow.conflicts, if_pos (hholds.isResource.trans hresource), Bool.not_eq_false,
      Bool.and_eq_true, beq_iff_eq, beq_iff_eq] at hconflict
    suffices hheld : t.HoldsNode (n.withId r.id) from rowOf?_ne_none hresource hheld hrow
    refine ⟨r, hr, rfl, ?_⟩
    obtain ⟨id', term⟩ := n
    cases term with
    | uri uri => exact ⟨hconflict.1.symm, hconflict.2.symm⟩
    | blank label => exact ⟨hconflict.1.symm, hconflict.2.symm⟩
    | literal l => cases hresource
  have htaken : (t.nodes.any fun r => r.id == (NodeRow.ofNode id n).id ||
      (NodeRow.ofNode id n).conflicts r) = true ↔ id ∈ t.nodes.map NodeRow.id := by
    have hid : (NodeRow.ofNode id n).id = id := (Action.holds_ofNode id n).1
    rw [List.any_eq_true, List.mem_map, hid]
    refine exists_congr fun r => and_congr_right fun hr => ?_
    rw [hconflicts r hr, Bool.or_false, beq_iff_eq]
  unfold insertNode?
  exact if_congr htaken rfl rfl

end Tables

namespace Action

variable {w : Workspace} {n : Node} {r : NodeRow}

theorem decodeRow_resource (h : r.ReadsResource) (hholds : r.Holds n)
    (hresource : n.term.isResource = true) (fuel : Nat) : decodeRow (fuel + 1) r w = .ok n w := by
  have hkind : r.readKind = .ok n.kind ∧ n.kind.isLiteral = false ∧
      r.readTerm n.kind none = .ok n.term := by
    obtain ⟨id, term⟩ := n
    obtain ⟨-, hterm⟩ := hholds
    cases term with
    | uri uri =>
        obtain ⟨hkind, rfl⟩ := hterm
        exact ⟨by rw [NodeRow.readKind, hkind]; rfl, rfl, rfl⟩
    | blank label =>
        obtain ⟨hkind, rfl⟩ := hterm
        exact ⟨by rw [NodeRow.readKind, hkind]; rfl, rfl, rfl⟩
    | literal l => cases hresource
  obtain ⟨hkind, hliteral, hread⟩ := hkind
  have hdatatype : rowDatatype (decodeRow fuel) r n.kind = pure none := by
    unfold rowDatatype
    cases r.datatype with
    | none => rfl
    | some id => exact if_neg (by simp [hliteral])
  unfold decodeRow
  rw [bind_of_ok (ofData_eq_ok_iff.mpr ⟨h.offset, rfl⟩),
    bind_of_ok (ofData_eq_ok_iff.mpr ⟨hkind, rfl⟩), hdatatype,
    bind_of_ok (pure_eq_ok_iff.mpr ⟨rfl, rfl⟩),
    NodeRow.toNode_eq_ok_iff.mpr ⟨hread, h.created, hholds.1.symm⟩]
  rfl

theorem nodeOfRow_resource (hview : w.view.Tells) (hresource : n.term.isResource = true)
    (hr : r ∈ w.view.nodes) (hholds : r.Holds n) : nodeOfRow r w = .ok n w := by
  unfold nodeOfRow
  rw [bind_of_ok (a := view (·.nodes.length)) (s := w) rfl]
  exact decodeRow_resource
    (hview.reads r hr (hholds.isResource.trans hresource)) hholds hresource _

theorem loadNode_resource (hview : w.view.Tells) (hresource : n.term.isResource = true)
    (hrow : w.view.rowOf? n = some r) : loadNode n w = .ok (some (n.withId r.id)) w := by
  obtain ⟨hr, hholds⟩ := Tables.rowOf?_eq_some hrow
  have hread := nodeOfRow_resource (n := n.withId r.id) hview hresource hr hholds
  rw [loadNode_eq_rowOf?, hrow, nodeOfRow?, bind_of_ok hread]
  rfl

theorem storeNode_resource (hnew : n.isPersisted = false) (hresource : n.term.isResource = true)
    (hfree : w.database.locked = false ∨ w.conn.writing = true) (hrow : w.view.rowOf? n = none) :
    (w.NextFree → ∃ m w', storeNode n w = .ok m w') ∧
    (¬ w.NextFree → ∃ w', storeNode n w = .error (.data (.unreadableConflict n)) w' ∧
      w'.view = w.view ∧ w'.store.counters.nodes = w.store.counters.nodes + 1) := by
  obtain ⟨w₁, hbegin⟩ := beginWrite_of_free hfree
  have hview := (beginWrite_eq_ok hbegin).2
  have hstore := store_of_beginWrite hbegin
  have hcheck : checkDatatype n w = .ok () w := by
    obtain ⟨id, term⟩ := n
    cases term with
    | uri | blank => rfl
    | literal l => cases hresource
  obtain ⟨w₂, hnext, hview₂, hcounter⟩ : ∃ w₂, nextId .nodes w₁ =
      .ok (w.store.counters.nodes + 1) w₂ ∧
      w₂.view = w.view ∧ w₂.store.counters.nodes = w.store.counters.nodes + 1 := by
    rw [← hstore]
    exact ⟨_, rfl, hview, rfl⟩
  -- No row has the term, so a row that is in the way can only have the same id.
  have hinsert : view (·.insertNode? (.ofNode (w.store.counters.nodes + 1) n)) w₂ =
      .ok (if w.store.counters.nodes + 1 ∈ w.view.nodes.map NodeRow.id then none
        else some { w.view with
          nodes := w.view.nodes ++ [.ofNode (w.store.counters.nodes + 1) n] }) w₂ := by
    rw [← Tables.insertNode?_of_rowOf?_eq_none hresource hrow, ← hview₂]
    rfl
  by_cases hnextFree : w.NextFree
  · refine ⟨fun _ => ?_, fun htaken => absurd hnextFree htaken⟩
    rw [if_neg hnextFree] at hinsert
    unfold storeNode
    rw [if_neg (by simp [hnew]), bind_of_ok hcheck, bind_of_ok hbegin, bind_of_ok hnext,
      bind_of_ok hinsert]
    exact ⟨_, _, rfl⟩
  · refine ⟨fun hfree => absurd hfree hnextFree, fun _ => ⟨w₂, ?_, hview₂, hcounter⟩⟩
    rw [if_pos (not_not.mp hnextFree)] at hinsert
    have hload : loadNode n w₂ = .ok none w₂ := loadNode_eq_none (by rw [hview₂, hrow])
    unfold storeNode
    rw [if_neg (by simp [hnew]), bind_of_ok hcheck, bind_of_ok hbegin, bind_of_ok hnext,
      bind_of_ok hinsert]
    dsimp only
    rw [bind_of_ok hload]
    rfl

end Action

/-- How creating a resource ends: it is answered with its one row where its term has a row already
or the next id is not taken, and is refused where neither is so, when only the counter goes on. -/
structure Creation (term : Term) (w w' : Workspace) (answer : Except StoreError Node) : Prop where
  answered : (∃ id, w.view.HoldsNode ⟨id, term⟩) ∨ w.NextFree →
    ∃ n, answer = .ok n ∧ n.term = term ∧ w'.view.HasOne n
  refused : (∀ id, ¬ w.view.HoldsNode ⟨id, term⟩) → ¬ w.NextFree →
    answer = .error (.data (.unreadableConflict ⟨transientId, term⟩)) ∧ w'.view = w.view ∧
      w'.store.counters.nodes = w.store.counters.nodes + 1

namespace Creation

variable {w w' : Workspace} {term : Term} {a : Action Node} {n : Node}

theorem of_ok (hop : a w = .ok n w') (hterm : n.term = term) (hone : w'.view.HasOne n)
    (hcase : (∃ id, w.view.HoldsNode ⟨id, term⟩) ∨ w.NextFree) :
    Creation term w (finalState (a w)) (answerOf (a w)) := by
  rw [hop]
  refine ⟨fun _ => ⟨n, rfl, hterm, hone⟩, fun habsent htaken => ?_⟩
  rcases hcase with ⟨id, hholds⟩ | hfree
  · exact absurd hholds (habsent id)
  · exact absurd hfree htaken

theorem of_error (hop : a w = .error (.data (.unreadableConflict ⟨transientId, term⟩)) w')
    (hview : w'.view = w.view) (hcounter : w'.store.counters.nodes = w.store.counters.nodes + 1)
    (habsent : ∀ id, ¬ w.view.HoldsNode ⟨id, term⟩) (htaken : ¬ w.NextFree) :
    Creation term w (finalState (a w)) (answerOf (a w)) := by
  rw [hop]
  refine ⟨?_, fun _ _ => ⟨rfl, hview, hcounter⟩⟩
  rintro (⟨id, hholds⟩ | hfree)
  · exact absurd hholds (habsent id)
  · exact absurd hfree htaken

variable (hw : w.Tells) (hfree : w.database.locked = false ∨ w.conn.writing = true)

include hw hfree

theorem loadOrStore (hresource : term.isResource = true) :
    Creation term w (finalState (Action.loadOrStore ⟨transientId, term⟩ w))
      (answerOf (Action.loadOrStore ⟨transientId, term⟩ w)) := by
  have hnew : (⟨transientId, term⟩ : Node).isPersisted = false := rfl
  have answer_has_one : ∀ {m w'}, Action.loadOrStore ⟨transientId, term⟩ w = .ok m w' →
      m.term = term → w'.view.HasOne m := by
    intro m w' hop hterm
    have hholds := Action.loadOrStore_eq_ok hnew hop
    have hkept := Action.loadOrStore_keeps (R := Telling) ⟨transientId, term⟩ w
    rw [hop] at hkept
    obtain ⟨id, _⟩ := m
    obtain rfl : _ = term := hterm
    exact (hkept.tells hw).view.hasOne hresource hholds
  cases hrow : w.view.rowOf? ⟨transientId, term⟩ with
  | some r =>
      obtain ⟨hr, hholds⟩ := Tables.rowOf?_eq_some hrow
      obtain ⟨w', hcache⟩ := Action.cacheNode_eq_ok ⟨r.id, term⟩ w
      have hop : Action.loadOrStore ⟨transientId, term⟩ w = .ok ⟨r.id, term⟩ w' := by
        unfold Action.loadOrStore
        rw [bind_of_ok (Action.loadNode_resource hw.view hresource hrow)]
        exact bind_of_ok hcache
      exact of_ok hop rfl (answer_has_one hop rfl) (.inl ⟨r.id, r, hr, hholds⟩)
  | none =>
      have hop : Action.loadOrStore ⟨transientId, term⟩ w =
          Action.storeNode ⟨transientId, term⟩ w := by
        unfold Action.loadOrStore
        rw [bind_of_ok (Action.loadNode_eq_none hrow)]
      obtain ⟨hstored, hrefused⟩ := Action.storeNode_resource hnew hresource hfree hrow
      by_cases hnext : w.NextFree
      · obtain ⟨m, w', hstore⟩ := hstored hnext
        have hterm := (Action.storeNode_eq_ok hnew hstore).1
        exact of_ok (hop.trans hstore) hterm
          (answer_has_one (hop.trans hstore) hterm) (.inr hnext)
      · obtain ⟨w', hrefuse, hview, hcounter⟩ := hrefused hnext
        exact of_error (hop.trans hrefuse) hview hcounter (fun id hholds =>
          Tables.rowOf?_ne_none (n := ⟨transientId, term⟩) hresource hholds hrow) hnext

theorem cached {f : Caches → Option Node} (hcached : Action.Cached ⟨transientId, term⟩ f a)
    (hresource : term.isResource = true)
    (hfound : ∀ n, f w.store.caches = some n → n.term = term ∧ w.database.committed.HoldsNode n) :
    Creation term w (finalState (a w)) (answerOf (a w)) := by
  cases hcase : f w.store.caches with
  | none =>
      rw [hcached.miss w hcase]
      exact loadOrStore hw hfree hresource
  | some n =>
      obtain ⟨rfl, hholds⟩ := hfound n hcase
      have hholds := hholds.mono hw.nodes
      exact of_ok (hcached.hit w n hcase) rfl
        (hw.view.hasOne hresource hholds) (.inl ⟨n.id, hholds⟩)

theorem createUri (uri : String) : Creation (.uri uri) w (finalState (Action.createUri uri w))
    (answerOf (Action.createUri uri w)) :=
  cached hw hfree (Action.createUri_cached uri) rfl (hw.caches.uri uri)

theorem createBlank (label : String) :
    Creation (.blank label) w (finalState (Action.createBlank (some label) w))
      (answerOf (Action.createBlank (some label) w)) :=
  cached hw hfree (Action.createBlank_cached label) rfl (hw.caches.blank label)

omit hw hfree in
/-- An open transaction performs what an action does by itself. -/
theorem perform {x : Scope} (hopen : x.closed = false)
    (h : Creation term x.work (finalState (a x.work)) (answerOf (a x.work))) :
    Creation term x.work (finalState (perform a x)).work (answerOf (perform a x)) := by
  rw [Transaction.perform, whileOpen_of_open hopen]
  unfold work
  revert h
  cases a x.work <;> exact id

end Creation
end QuadStore
