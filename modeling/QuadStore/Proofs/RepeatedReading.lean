import QuadStore.Proofs.LegibleRows

namespace QuadStore

namespace NodeRow

variable {r : NodeRow} {kind : NodeKind} {datatype : Option UriResource} {n : Node}

theorem kind_of_toNode (h : r.toNode kind datatype = .ok n) : n.kind = kind := by
  have hterm := (toNode_eq_ok_iff.mp h).1
  obtain ⟨id, term⟩ := n
  cases kind with
  | uri | blank | string =>
      cases hterm
      rfl
  | int | double | boolean | date =>
      obtain ⟨v, hv⟩ := literal_of_bind hterm
      obtain rfl : term = _ := hv
      rfl

theorem Holds.eq_uri (h : r.Holds n) (hkind : r.kind = "uri") : n = ⟨r.id, .uri r.lexical⟩ := by
  obtain ⟨id, term⟩ := n
  obtain ⟨rfl, hterm⟩ := h
  cases term with
  | uri uri =>
      obtain ⟨-, rfl⟩ := hterm
      rfl
  | blank label => simp [hterm.1] at hkind
  | literal l =>
      have hliteral : r.isResource = false := hterm
      simp [NodeRow.isResource, hkind] at hliteral

end NodeRow

theorem Caches.get?_addNode (c : Caches) (n : Node) (id : Int) :
    (c.addNode n).node.get? id = c.node.get? id ∨ id = n.id ∧
    (c.addNode n).node.get? id = some n := by
  have hput : (c.node.put n.id n).get? id = c.node.get? id ∨
      id = n.id ∧ (c.node.put n.id n).get? id = some n := by
    rw [Cache.get?_put]
    split
    · rename_i hkey
      exact .inr ⟨hkey.1.symm, rfl⟩
    · exact .inl rfl
  unfold Caches.addNode
  split
  · exact .inl rfl
  · dsimp only
    split <;> exact hput

namespace Workspace

/-- The cached node with an id. -/
abbrev cachedNode? (w : Workspace) (id : Int) : Option Node :=
  w.store.caches.node.get? id

/-- Whether an id is looked up as that of a URI: it is in the row of one, which is
cached or can be read. -/
def Names (w : Workspace) (id : Int) : Prop :=
  ∃ d, w.view.nodeById? id = some d ∧ d.kind = "uri" ∧ (w.cachedNode? id ≠ none ∨ d.NamesUri)

/-- Whether a row is read as a node with what is cached. -/
structure ReadsRow (w : Workspace) (r : NodeRow) (n : Node) : Prop where
  offset : r.checkOffset = .ok ()
  kind : r.readKind = .ok n.kind
  datatype : n.isLiteral = true → ∀ id, r.datatype = some id → w.Names id
  node : r.toNode n.kind (w.view.datatypeOf r) = .ok n

/-- Whether an id is looked up as that of a node. -/
def Finds (w : Workspace) (id : Int) (n : Node) : Prop :=
  w.cachedNode? id = some n ∨
    w.cachedNode? id = none ∧ ∃ r, w.view.nodeById? id = some r ∧ w.ReadsRow r n

variable {w w' x : Workspace} {id : Int} {r : NodeRow} {n m : Node}

theorem Good.row_of_cached (h : w.Good) (hcached : w.cachedNode? id = some n) :
    ∃ r, w.view.nodeById? id = some r ∧ r.Holds n := by
  obtain ⟨rfl, hcommitted⟩ := h.coherent.caches.node id n hcached
  obtain ⟨r, hr, hholds⟩ := Action.holdsNode_of_committed h hcommitted
  exact ⟨r, hholds.1 ▸ h.sound.keyed.nodeById?_eq hr, hholds⟩

namespace ReadsRow

theorem holds (h : w.ReadsRow r n) : r.Holds n :=
  NodeRow.holds_of_toNode h.kind h.node

theorem eq (h : w.ReadsRow r n) (h' : w.ReadsRow r m) : n = m := by
  have hkind : n.kind = m.kind := Except.ok.inj (h.kind.symm.trans h'.kind)
  have hnode := h.node
  rw [hkind, h'.node] at hnode
  exact (Except.ok.inj hnode).symm

theorem namesUri {uri : String} (h : w.ReadsRow r ⟨id, .uri uri⟩) : r.NamesUri :=
  ⟨h.offset, h.kind, (NodeRow.toNode_eq_ok_iff.mp h.node).2.1⟩

theorem of_namesUri (h : r.NamesUri) : w.ReadsRow r ⟨r.id, .uri r.lexical⟩ :=
  ⟨h.offset, h.kind, by rintro ⟨⟩, NodeRow.toNode_eq_ok_iff.mpr ⟨rfl, h.created, rfl⟩⟩

theorem congr (h : w.ReadsRow r n) (hview : x.view = w.view)
    (hnames : ∀ id, w.Names id → x.Names id) :
    x.ReadsRow r n :=
  ⟨h.offset, h.kind, fun hliteral id hid => hnames id (h.datatype hliteral id hid),
    hview ▸ h.node⟩

end ReadsRow

namespace Finds

/-- The row of an id that is looked up holds what it is looked up as. -/
theorem exists_row (h : w.Finds id n) (hgood : w.Good) :
    ∃ r, w.view.nodeById? id = some r ∧ r.Holds n := by
  obtain hcached | ⟨-, r, hr, hreads⟩ := h
  · exact hgood.row_of_cached hcached
  · exact ⟨r, hr, hreads.holds⟩

theorem id_eq (h : w.Finds id n) (hgood : w.Good) : n.id = id := by
  obtain ⟨r, hr, hholds⟩ := h.exists_row hgood
  have hid : r.id = id := by simpa using List.find?_some hr
  exact hholds.1.symm.trans hid

theorem eq (h : w.Finds id n) (h' : w.Finds id m) : n = m := by
  obtain hcached | ⟨hmissing, r, hr, hreads⟩ := h <;>
    obtain hcached' | ⟨hmissing', r', hr', hreads'⟩ := h'
  · exact Option.some.inj (hcached.symm.trans hcached')
  · cases hcached.symm.trans hmissing'
  · cases hcached'.symm.trans hmissing
  · obtain rfl := Option.some.inj (hr.symm.trans hr')
    exact hreads.eq hreads'

end Finds

theorem Good.names_iff (h : w.Good) :
    w.Names id ↔ ∃ d, w.view.nodeById? id = some d ∧ w.Finds id ⟨d.id, .uri d.lexical⟩ := by
  constructor
  · rintro ⟨d, hd, hkind, hknown⟩
    refine ⟨d, hd, ?_⟩
    cases hcached : w.cachedNode? id with
    | some n =>
        obtain ⟨r, hr, hholds⟩ := h.row_of_cached hcached
        obtain rfl := Option.some.inj (hr.symm.trans hd)
        exact .inl (hholds.eq_uri hkind ▸ hcached)
    | none =>
        have huri : d.NamesUri := hknown.resolve_left (absurd hcached)
        exact .inr ⟨hcached, d, hd, .of_namesUri huri⟩
  · rintro ⟨d, hd, hfinds⟩
    obtain ⟨r, hr, -, hkind, -⟩ := hfinds.exists_row h
    obtain rfl := Option.some.inj (hr.symm.trans hd)
    refine ⟨r, hr, hkind, ?_⟩
    obtain hcached | ⟨-, r', hr', hreads⟩ := hfinds
    · exact .inl (by simp [hcached])
    · obtain rfl := Option.some.inj (hr.symm.trans hr')
      exact .inr hreads.namesUri

/-- Whether a workspace in order shows the same tables and looks up all
ids as another one does. -/
structure Steady (w x : Workspace) : Prop where
  good : x.Good
  view : x.view = w.view
  finds : ∀ id n, x.Finds id n ↔ w.Finds id n

namespace Steady

theorem refl (h : w.Good) : w.Steady w :=
  ⟨h, rfl, fun _ _ => .rfl⟩

theorem trans (h : w.Steady w') (h' : w'.Steady x) : w.Steady x :=
  ⟨h'.good, h'.view.trans h.view, fun id n => (h'.finds id n).trans (h.finds id n)⟩

theorem names_iff (h : w.Steady x) (hgood : w.Good) : x.Names id ↔ w.Names id := by
  simp only [h.good.names_iff, hgood.names_iff, h.view, h.finds]

theorem readsRow_iff (h : w.Steady x) (hgood : w.Good) : x.ReadsRow r n ↔ w.ReadsRow r n :=
  ⟨fun hr => hr.congr h.view.symm fun _ => (h.names_iff hgood).mp,
    fun hr => hr.congr h.view fun _ => (h.names_iff hgood).mpr⟩

end Steady
end Workspace

namespace Action

variable {w w' : Workspace} {id : Int} {r : NodeRow} {n : Node}

theorem cachedNode?_cacheNode (h : cacheNode n w = .ok () w') (id : Int) :
    w'.cachedNode? id = w.cachedNode? id ∨
      id = n.id ∧ w'.cachedNode? id = some n ∧ w.conn.writing = false := by
  revert h
  simp only [cacheNode]
  split
  · rw [bind_of_ok (a := (get : Action Workspace)) (s := w) rfl]
    split
    · rintro ⟨⟩
      exact .inl rfl
    · rename_i hidle
      rintro ⟨⟩
      refine (Caches.get?_addNode w.store.caches n id).imp_right fun hnew => ?_
      exact ⟨hnew.1, hnew.2, by simpa using hidle⟩
  · rintro ⟨⟩
    exact .inl rfl

theorem cacheNode_steady (hgood : w.Good) (h : w.Finds n.id n) :
    ∃ w', cacheNode n w = .ok () w' ∧ w.Steady w' := by
  obtain ⟨w', hop⟩ := cacheNode_eq_ok n w
  have hread : Reads w (finalState (cacheNode n w)) := by
    refine cacheNode_reads fun _ => ?_
    obtain ⟨r, hr, hholds⟩ := h.exists_row hgood
    exact ⟨r, List.mem_of_find?_eq_some hr, hholds⟩
  rw [hop] at hread
  have hview : w'.view = w.view := hread.view_eq
  have hcached := cachedNode?_cacheNode hop
  have hnames : ∀ id, w'.Names id ↔ w.Names id := by
    intro id
    unfold Workspace.Names
    rw [hview]
    obtain hsame | ⟨rfl, hnew, -⟩ := hcached id
    · rw [hsame]
    refine exists_congr fun d => and_congr_right fun hd => and_congr_right fun hkind => ?_
    refine iff_of_true (.inl (by simp [hnew])) ?_
    obtain hold | ⟨-, r, hr, hreads⟩ := h
    · exact .inl (by simp [hold])
    · obtain rfl := Option.some.inj (hr.symm.trans hd)
      rw [hreads.holds.eq_uri hkind] at hreads
      exact .inr hreads.namesUri
  refine ⟨w', hop, hread.silent.good hgood, hview, fun id m => ?_⟩
  obtain hsame | ⟨rfl, hnew, -⟩ := hcached id
  · have hreads : ∀ r, w'.ReadsRow r m ↔ w.ReadsRow r m := fun r =>
      ⟨fun hr => hr.congr hview.symm fun id => (hnames id).mp,
        fun hr => hr.congr hview fun id => (hnames id).mpr⟩
    simp only [Workspace.Finds, hsame, hview, hreads]
  · refine ⟨fun hm => ?_, fun hm => .inl (h.eq hm ▸ hnew)⟩
    obtain hcached | ⟨hmissing, -⟩ := hm
    · rwa [← Option.some.inj (hnew.symm.trans hcached)]
    · cases hnew.symm.trans hmissing

/-! What is looked up -/

section

variable {decode : NodeRow → Action Node}

theorem resolveWith_cached (h : w.cachedNode? id = some n) :
    resolveWith decode id w = .ok (some n) w := by
  have hcached : w.store.caches.node.get? id = some n := h
  unfold resolveWith
  rw [bind_of_ok (a := (get : Action Workspace)) (s := w) rfl, hcached]
  rfl

theorem resolveWith_missing (h : w.cachedNode? id = none) (hrow : w.view.nodeById? id = none) :
    resolveWith decode id w = .ok none w := by
  have hcached : w.store.caches.node.get? id = none := h
  have hview : view (·.nodeById? id) w = .ok none w := view_eq_ok_iff.mpr ⟨hrow, rfl⟩
  unfold resolveWith
  rw [bind_of_ok (a := (get : Action Workspace)) (s := w) rfl, hcached]
  dsimp only
  rw [bind_of_ok hview]
  rfl

theorem resolveWith_row (h : w.cachedNode? id = none) (hrow : w.view.nodeById? id = some r) :
    resolveWith decode id w = (do
      let n ← decode r
      cacheNode n
      pure (some n)) w := by
  have hcached : w.store.caches.node.get? id = none := h
  have hview : view (·.nodeById? id) w = .ok (some r) w := view_eq_ok_iff.mpr ⟨hrow, rfl⟩
  unfold resolveWith
  rw [bind_of_ok (a := (get : Action Workspace)) (s := w) rfl, hcached]
  dsimp only
  rw [bind_of_ok hview]

theorem resolveWith_found (hgood : w.Good) (h : w.Finds id n)
    (hdecode : ∀ r ∈ w.view.nodes, w.ReadsRow r n → ∃ w', decode r w = .ok n w' ∧ w.Steady w') :
    ∃ w', resolveWith decode id w = .ok (some n) w' ∧ w.Steady w' := by
  obtain hcached | ⟨hmissing, r, hr, hreads⟩ := h
  · exact ⟨w, resolveWith_cached hcached, .refl hgood⟩
  · obtain ⟨w₁, hdecoded, hsteady⟩ := hdecode r (List.mem_of_find?_eq_some hr) hreads
    have hid : n.id = id := by
      have hid : r.id = id := by simpa using List.find?_some hr
      exact hreads.holds.1.symm.trans hid
    subst hid
    have hfinds : w₁.Finds n.id n := (hsteady.finds _ _).mpr (.inr ⟨hmissing, r, hr, hreads⟩)
    obtain ⟨w₂, hcache, hsteady'⟩ := cacheNode_steady hsteady.good hfinds
    refine ⟨w₂, ?_, hsteady.trans hsteady'⟩
    rw [resolveWith_row hmissing hr, bind_of_ok hdecoded, bind_of_ok hcache]
    rfl

theorem resolveWith_eq_some (h : resolveWith decode id w = .ok (some n) w') :
    w.cachedNode? id = some n ∨ w.cachedNode? id = none ∧
      ∃ r w₁, w.view.nodeById? id = some r ∧ decode r w = .ok n w₁ := by
  cases hcached : w.cachedNode? id with
  | some m =>
      rw [resolveWith_cached hcached] at h
      cases h
      exact .inl rfl
  | none =>
      cases hrow : w.view.nodeById? id with
      | none =>
          rw [resolveWith_missing hcached hrow] at h
          cases h
      | some r =>
          rw [resolveWith_row hcached hrow] at h
          obtain ⟨m, w₁, hdecoded, h⟩ := bind_eq_ok_iff.mp h
          obtain ⟨_, w₂, -, h⟩ := bind_eq_ok_iff.mp h
          obtain ⟨hm, -⟩ := pure_eq_ok_iff.mp h
          cases hm
          exact .inr ⟨rfl, r, w₁, rfl, hdecoded⟩

theorem resolveWith_eq_none (h : resolveWith decode id w = .ok none w') :
    w.cachedNode? id = none ∧ w.view.nodeById? id = none := by
  cases hcached : w.cachedNode? id with
  | some m =>
      rw [resolveWith_cached hcached] at h
      cases h
  | none =>
      cases hrow : w.view.nodeById? id with
      | none => exact ⟨rfl, rfl⟩
      | some r =>
          rw [resolveWith_row hcached hrow] at h
          obtain ⟨m, w₁, -, h⟩ := bind_eq_ok_iff.mp h
          obtain ⟨_, w₂, -, h⟩ := bind_eq_ok_iff.mp h
          cases (pure_eq_ok_iff.mp h).1

end

theorem rowDatatype_found (hgood : w.Good) (h : w.ReadsRow r n) (fuel : Nat) :
    ∃ datatype w', rowDatatype (decodeRow (fuel + 1)) r n.kind w = .ok datatype w' ∧ w.Steady w' ∧
      (n.isLiteral = true → datatype = w.view.datatypeOf r) := by
  unfold rowDatatype
  cases hid : r.datatype with
  | none => exact ⟨none, w, rfl, .refl hgood, fun _ => by simp [Tables.datatypeOf, hid]⟩
  | some id =>
      dsimp only
      split
      · rename_i hliteral
        obtain ⟨d, hd, hfinds⟩ := hgood.names_iff.mp (h.datatype hliteral id hid)
        have hdecode : ∀ r' ∈ w.view.nodes, w.ReadsRow r' ⟨d.id, .uri d.lexical⟩ →
            ∃ w', decodeRow (fuel + 1) r' w = .ok ⟨d.id, .uri d.lexical⟩ w' ∧ w.Steady w' := by
          intro r' _ hreads
          have hread := decodeRow_of_namesUri (w := w) hreads.namesUri fuel
          rw [(Workspace.ReadsRow.of_namesUri hreads.namesUri).eq hreads] at hread
          exact ⟨w, hread, .refl hgood⟩
        obtain ⟨w', hresolved, hsteady⟩ := resolveWith_found hgood hfinds hdecode
        rw [bind_of_ok hresolved]
        exact ⟨_, w', rfl, hsteady, fun _ => by simp [Tables.datatypeOf, hid, hd]⟩
      · rename_i hresource
        exact ⟨none, w, rfl, .refl hgood, fun hliteral => absurd hliteral hresource⟩

theorem nodeOfRow_found (hgood : w.Good) (hr : r ∈ w.view.nodes) (h : w.ReadsRow r n) :
    ∃ w', nodeOfRow r w = .ok n w' ∧ w.Steady w' := by
  obtain ⟨fuel, hfuel⟩ := Nat.exists_eq_succ_of_ne_zero (List.length_pos_of_mem hr).ne'
  obtain ⟨datatype, w', hdatatype, hsteady, hread⟩ := rowDatatype_found hgood h fuel
  refine ⟨w', ?_, hsteady⟩
  have hnode : r.toNode n.kind datatype = .ok n := by
    cases hliteral : n.isLiteral with
    | true => rw [hread hliteral, h.node]
    | false =>
        obtain ⟨hterm, hrest⟩ := NodeRow.toNode_eq_ok_iff.mp h.node
        rw [NodeRow.readTerm_of_resource hliteral _ datatype] at hterm
        exact NodeRow.toNode_eq_ok_iff.mpr ⟨hterm, hrest⟩
  unfold nodeOfRow
  rw [bind_of_ok (view_eq_ok_iff.mpr ⟨hfuel, rfl⟩)]
  unfold decodeRow
  rw [bind_of_ok (ofData_eq_ok_iff.mpr ⟨h.offset, rfl⟩),
    bind_of_ok (ofData_eq_ok_iff.mpr ⟨h.kind, rfl⟩), bind_of_ok hdatatype]
  exact ofData_eq_ok_iff.mpr ⟨hnode, rfl⟩

theorem resolveNode_found (hgood : w.Good) (h : w.Finds id n) :
    ∃ w', resolveNode id w = .ok (some n) w' ∧ w.Steady w' :=
  resolveWith_found hgood h fun _ hr hreads => nodeOfRow_found hgood hr hreads

/-! What an answer says -/

theorem decodeRow_eq_ok {fuel : Nat} (h : decodeRow (fuel + 1) r w = .ok n w') :
    ∃ datatype, r.checkOffset = .ok () ∧ r.readKind = .ok n.kind ∧
      rowDatatype (decodeRow fuel) r n.kind w = .ok datatype w' ∧
      r.toNode n.kind datatype = .ok n := by
  obtain ⟨_, w₁, hcheck, h⟩ := bind_eq_ok_iff.mp h
  obtain ⟨hoffset, rfl⟩ := ofData_eq_ok_iff.mp hcheck
  obtain ⟨kind, w₂, hread, h⟩ := bind_eq_ok_iff.mp h
  obtain ⟨hkind, rfl⟩ := ofData_eq_ok_iff.mp hread
  obtain ⟨datatype, w₃, hdatatype, h⟩ := bind_eq_ok_iff.mp h
  obtain ⟨hnode, rfl⟩ := ofData_eq_ok_iff.mp h
  obtain rfl := NodeRow.kind_of_toNode hnode
  exact ⟨datatype, hoffset, hkind, hdatatype, hnode⟩

theorem namesUri_of_decodeRow {fuel : Nat} {uri : String}
    (h : decodeRow fuel r w = .ok ⟨id, .uri uri⟩ w') :
    r.NamesUri := by
  cases fuel with
  | zero => cases h
  | succ fuel =>
      obtain ⟨datatype, hoffset, hkind, -, hnode⟩ := decodeRow_eq_ok h
      exact ⟨hoffset, hkind, (NodeRow.toNode_eq_ok_iff.mp hnode).2.1⟩

theorem rowDatatype_eq_ok {fuel : Nat} {kind : NodeKind}
    {datatype : Option UriResource} (hgood : w.Good)
    (h : rowDatatype (decodeRow fuel) r kind w = .ok datatype w')
    (hliteral : kind.isLiteral = true) :
    (∀ id, r.datatype = some id → w.Names id) ∧ datatype = w.view.datatypeOf r := by
  unfold rowDatatype at h
  cases hid : r.datatype with
  | none =>
      rw [hid] at h
      obtain ⟨rfl, -⟩ := pure_eq_ok_iff.mp h
      exact ⟨by rintro id ⟨⟩, by simp [Tables.datatypeOf, hid]⟩
  | some id =>
      rw [hid] at h
      dsimp only at h
      simp only [if_pos hliteral] at h
      obtain ⟨found, w₁, hfound, h⟩ := bind_eq_ok_iff.mp h
      split at h
      · rename_i i uri
        obtain ⟨rfl, -⟩ := pure_eq_ok_iff.mp h
        have hfinds : ∃ d, w.view.nodeById? id = some d ∧ d.Holds ⟨i, .uri uri⟩ ∧
            (w.cachedNode? id ≠ none ∨ d.NamesUri) := by
          obtain hcached | ⟨-, d, w₂, hd, hdecoded⟩ := resolveWith_eq_some hfound
          · obtain ⟨d, hd, hholds⟩ := hgood.row_of_cached hcached
            exact ⟨d, hd, hholds, .inl (by simp [hcached])⟩
          · exact ⟨d, hd, holds_of_decodeRow hdecoded, .inr (namesUri_of_decodeRow hdecoded)⟩
        obtain ⟨d, hd, ⟨hid', hkind, hlexical⟩, hknown⟩ := hfinds
        refine ⟨?_, by simp [Tables.datatypeOf, hid, hd, hid', hlexical]⟩
        rintro _ ⟨⟩
        exact ⟨d, hd, hkind, hknown⟩
      · cases h

theorem readsRow_of_nodeOfRow (hgood : w.Good) (h : nodeOfRow r w = .ok n w') :
    w.ReadsRow r n := by
  obtain ⟨fuel, w₁, hview, h⟩ := bind_eq_ok_iff.mp h
  obtain ⟨-, rfl⟩ := view_eq_ok_iff.mp hview
  obtain ⟨datatype, hoffset, hkind, hdatatype, hnode⟩ := decodeRow_eq_ok h
  refine ⟨hoffset, hkind, fun hliteral => (rowDatatype_eq_ok hgood hdatatype hliteral).1, ?_⟩
  cases hliteral : n.isLiteral with
  | true => rwa [← (rowDatatype_eq_ok hgood hdatatype hliteral).2]
  | false =>
      obtain ⟨hterm, hrest⟩ := NodeRow.toNode_eq_ok_iff.mp hnode
      rw [NodeRow.readTerm_of_resource hliteral _ (w.view.datatypeOf r)] at hterm
      exact NodeRow.toNode_eq_ok_iff.mpr ⟨hterm, hrest⟩

theorem finds_of_resolveNode (hgood : w.Good) (h : resolveNode id w = .ok (some n) w') :
    w.Finds id n := by
  obtain hcached | ⟨hmissing, r, w₁, hr, hdecoded⟩ := resolveWith_eq_some h
  · exact .inl hcached
  · exact .inr ⟨hmissing, r, hr, readsRow_of_nodeOfRow hgood hdecoded⟩

/-! Reading again -/

section

variable {α β : Type} {I : Workspace → Prop}

/-- Whether an action that succeeds once while a condition holds always does,
and with the same answer. -/
def Repeats (I : Workspace → Prop) (a : Action α) : Prop :=
  ∀ w, I w → ∀ v w', a w = .ok v w' → Delivers I a (· = v)

theorem Delivers.eq_ok {a : Action α} {v u : α} (h : Delivers I a (· = v)) (hw : I w)
    (hop : a w = .ok u w') : u = v ∧ I w' := by
  obtain ⟨_, w₁, hop', hw₁, rfl⟩ := h w hw
  cases hop.symm.trans hop'
  exact ⟨rfl, hw₁⟩

theorem Delivers.mapM_forall₂ {f : α → Action β} {xs : List α} {ys : List β}
    (h : List.Forall₂ (fun x y => Delivers I (f x) (· = y)) xs ys) :
    Delivers I (xs.mapM f) (· = ys) := by
  induction h with
  | nil =>
      rw [List.mapM_nil]
      exact .pure rfl
  | cons hx _ ih =>
      rw [List.mapM_cons]
      refine hx.bind fun _ hy => ih.bind fun _ hys => ?_
      exact .pure (congrArg₂ List.cons hy hys)

namespace Repeats

theorem pure (v : α) : Repeats I (pure v : Action α) :=
  fun _ _ _ _ hop => .pure (pure_eq_ok_iff.mp hop).1

theorem throw (e : StoreError) : Repeats I (throw e : Action α) := by
  rintro w hw u w' ⟨⟩

theorem bind {a : Action α} {f : α → Action β} (h : Repeats I a) (hf : ∀ v, Repeats I (f v)) :
    Repeats I (a >>= f) := by
  intro w hw u w' hop
  obtain ⟨v, w₁, ha, hfv⟩ := bind_eq_ok_iff.mp hop
  have hdelivers := h w hw v w₁ ha
  refine hdelivers.bind ?_
  rintro _ rfl
  exact hf _ w₁ (hdelivers.eq_ok hw ha).2 u w' hfv

theorem ofData (x : Except DataFault α) : Repeats I (Action.ofData x) := by
  intro w hw u w' hop
  exact .ofData (ofData_eq_ok_iff.mp hop).1

theorem ofStatement (x : Except StatementFault α) : Repeats I (Action.ofStatement x) := by
  intro w hw u w' hop
  exact .ofStatement (ofStatement_eq_ok_iff.mp hop).1

theorem mapM_eq_ok {f : α → Action β} {xs : List α} {ys : List β}
    (hf : ∀ x, Repeats I (f x)) (hw : I w)
    (hop : xs.mapM f w = .ok ys w') :
    List.Forall₂ (fun x y => Delivers I (f x) (· = y)) xs ys := by
  induction xs generalizing w ys w' with
  | nil =>
      rw [List.mapM_nil] at hop
      obtain ⟨rfl, -⟩ := pure_eq_ok_iff.mp hop
      exact .nil
  | cons x rest ih =>
      rw [List.mapM_cons] at hop
      obtain ⟨y, w₁, hx, hop⟩ := bind_eq_ok_iff.mp hop
      obtain ⟨more, w₂, hrest, hop⟩ := bind_eq_ok_iff.mp hop
      obtain ⟨rfl, -⟩ := pure_eq_ok_iff.mp hop
      have hdelivers := hf x w hw y w₁ hx
      exact .cons hdelivers (ih (hdelivers.eq_ok hw hx).2 hrest)

end Repeats
end

/-! Nodes -/

theorem resolveNode_repeats (id : Int) : Repeats w.Steady (resolveNode id) := by
  intro x hx found x' hop y hy
  cases found with
  | some n =>
      have hfinds : y.Finds id n :=
        (hy.finds id n).mpr ((hx.finds id n).mp (finds_of_resolveNode hx.good hop))
      obtain ⟨y', hop', hsteady⟩ := resolveNode_found hy.good hfinds
      exact ⟨_, y', hop', hy.trans hsteady, rfl⟩
  | none =>
      have hrow : y.view.nodeById? id = none := by
        rw [hy.view, ← hx.view]
        exact (resolveWith_eq_none hop).2
      refine ⟨_, y, resolveWith_missing ?_ hrow, hy, rfl⟩
      by_contra hcached
      obtain ⟨n, hcached⟩ := Option.ne_none_iff_exists'.mp hcached
      obtain ⟨r, hr, -⟩ := hy.good.row_of_cached hcached
      cases hr.symm.trans hrow

theorem nodeOfRow_repeats (hgood : w.Good) (hr : r ∈ w.view.nodes) :
    Repeats w.Steady (nodeOfRow r) := by
  intro x hx n x' hop y hy
  have hreads : y.ReadsRow r n :=
    (hy.readsRow_iff hgood).mpr ((hx.readsRow_iff hgood).mp (readsRow_of_nodeOfRow hx.good hop))
  obtain ⟨y', hop', hsteady⟩ := nodeOfRow_found hy.good (hy.view ▸ hr) hreads
  exact ⟨_, y', hop', hy.trans hsteady, rfl⟩

theorem Repeats.view_bind {α β : Type} {f : Tables → α} {g : α → Action β}
    (h : Repeats w.Steady (g (f w.view))) : Repeats w.Steady (view f >>= g) := by
  intro x hx v x' hop
  have hview : ∀ y, w.Steady y → view f y = .ok (f w.view) y :=
    fun y hy => view_eq_ok_iff.mpr ⟨congrArg f hy.view, rfl⟩
  rw [bind_of_ok (hview x hx)] at hop
  intro y hy
  rw [bind_of_ok (hview y hy)]
  exact h x hx v x' hop y hy

theorem loadNode_repeats (hgood : w.Good) (n : Node) : Repeats w.Steady (loadNode n) := by
  have hload : loadNode n = (do nodeOfRow? (← view (·.rowOf? n))) := funext (loadNode_eq_rowOf? n)
  rw [hload]
  refine .view_bind ?_
  cases hrow : w.view.rowOf? n with
  | none => exact .pure _
  | some r => exact (nodeOfRow_repeats hgood (Tables.rowOf?_eq_some hrow).1).bind fun _ => .pure _

theorem nodeId_repeats (hgood : w.Good) (n : Node) : Repeats w.Steady (nodeId n) := by
  unfold nodeId
  split
  · exact .pure _
  · exact (loadNode_repeats hgood n).bind fun _ => .pure _

theorem requireNode_repeats (id : Int) : Repeats w.Steady (requireNode id) := by
  refine (resolveNode_repeats id).bind fun found => ?_
  cases found with
  | some n => exact .pure _
  | none => exact .throw _

theorem requireNode_eq_ok (hgood : w.Good) (h : requireNode id w = .ok n w') :
    w.Finds id n ∧ w.Steady w' := by
  refine ⟨?_, ((requireNode_repeats id w (.refl hgood) n w' h).eq_ok (.refl hgood) h).2⟩
  obtain ⟨found, w₁, hfound, h⟩ := bind_eq_ok_iff.mp h
  cases found with
  | none => cases h
  | some m =>
      obtain ⟨rfl, -⟩ := pure_eq_ok_iff.mp h
      exact finds_of_resolveNode hgood hfound

theorem requireNode_delivers (h : w.Finds id n) : Delivers w.Steady (requireNode id) (· = n) := by
  intro x hx
  obtain ⟨x', hop, hsteady⟩ := resolveNode_found hx.good ((hx.finds id n).mpr h)
  refine ⟨n, x', ?_, hx.trans hsteady, rfl⟩
  unfold requireNode
  rw [bind_of_ok hop]
  rfl

/-! Statements -/

theorem statementOfRow_repeats (r : StatementRow) : Repeats w.Steady (statementOfRow r) := by
  refine (requireNode_repeats _).bind fun subject => ?_
  refine (requireNode_repeats _).bind fun predicate => ?_
  refine (requireNode_repeats _).bind fun object => ?_
  refine (requireNode_repeats _).bind fun context => ?_
  dsimp only
  split
  · refine (resolveNode_repeats _).bind fun creator => ?_
    refine (Repeats.ofStatement _).bind fun t => ?_
    exact (Repeats.ofData _).bind fun _ => (Repeats.ofData _).bind fun _ => .pure _
  · refine Repeats.bind (.pure none) fun creator => ?_
    refine (Repeats.ofStatement _).bind fun t => ?_
    exact (Repeats.ofData _).bind fun _ => (Repeats.ofData _).bind fun _ => .pure _

theorem statementOfRow_finds (hgood : w.Good) {r : StatementRow} {t : Statement}
    (h : statementOfRow r w = .ok t w') :
    w.Finds r.subject t.subject ∧ w.Finds r.predicate t.predicate ∧ w.Finds r.object t.object ∧
      ∃ c, t.context = some c ∧ w.Finds r.context c := by
  obtain ⟨subject, w₁, hs, h⟩ := bind_eq_ok_iff.mp h
  obtain ⟨predicate, w₂, hp, h⟩ := bind_eq_ok_iff.mp h
  obtain ⟨object, w₃, ho, h⟩ := bind_eq_ok_iff.mp h
  obtain ⟨context, w₄, hc, h⟩ := bind_eq_ok_iff.mp h
  obtain ⟨hsubject, hsteady₁⟩ := requireNode_eq_ok hgood hs
  obtain ⟨hpredicate, hsteady₂⟩ := requireNode_eq_ok hsteady₁.good hp
  have hsteady₂ := hsteady₁.trans hsteady₂
  obtain ⟨hobject, hsteady₃⟩ := requireNode_eq_ok hsteady₂.good ho
  have hsteady₃ := hsteady₂.trans hsteady₃
  obtain ⟨hcontext, -⟩ := requireNode_eq_ok hsteady₃.good hc
  have hfound : w.Finds r.subject subject ∧ w.Finds r.predicate predicate ∧
      w.Finds r.object object ∧
      w.Finds r.context context :=
    ⟨hsubject, (hsteady₁.finds _ _).mp hpredicate, (hsteady₂.finds _ _).mp hobject,
      (hsteady₃.finds _ _).mp hcontext⟩
  cases hcreator : r.creator <;> rw [hcreator] at h
  all_goals
    obtain ⟨creator, w₅, -, h⟩ := bind_eq_ok_iff.mp h
    obtain ⟨made, w₆, hmade, h⟩ := bind_eq_ok_iff.mp h
    obtain ⟨_, w₇, -, h⟩ := bind_eq_ok_iff.mp h
    obtain ⟨_, w₈, -, h⟩ := bind_eq_ok_iff.mp h
    obtain ⟨rfl, -⟩ := pure_eq_ok_iff.mp h
    obtain rfl := make_eq_ok (ofStatement_eq_ok_iff.mp hmade).1
    exact ⟨hfound.1, hfound.2.1, hfound.2.2.1, context, rfl, hfound.2.2.2⟩

end Action
end QuadStore
