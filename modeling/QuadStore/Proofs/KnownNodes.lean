import QuadStore.Proofs.Working
import QuadStore.Proofs.WrittenTables

namespace QuadStore

/-- Whether a condition of workspaces that show the same tables allows reading nodes: nothing is
cached but what a row is read as, and more of that may be put into the caches. -/
structure Observes (t : Tables) (P : Workspace → Prop) : Prop where
  good : ∀ {w}, P w → w.Good
  view : ∀ {w}, P w → w.view = t
  cached : ∀ {w}, P w → ∀ id n, w.store.caches.node.get? id = some n →
    w.database.committed.Knows n
  cacheNode : ∀ {w n}, P w → t.Knows n → ∃ w', Action.cacheNode n w = .ok () w' ∧ P w'

namespace Observes

variable {t : Tables} {P : Workspace → Prop} {w : Workspace} {id : Int} {r : NodeRow} {n : Node}

theorem sound (hP : Observes t P) (h : P w) : t.Sound :=
  hP.view h ▸ (hP.good h).sound

theorem knows (hP : Observes t P) (h : P w) {m : Node}
    (hcached : w.store.caches.node.get? id = some m) : t.Knows m ∧ m.id = id := by
  refine ⟨?_, ((hP.good h).coherent.caches.node id m hcached).1⟩
  rw [← hP.view h]
  exact (hP.cached h id m hcached).mono (hP.good h).nodes (hP.good h).sound

end Observes

namespace Action

variable {t : Tables} {P : Workspace → Prop} {w : Workspace} {id : Int} {r : NodeRow} {n m : Node}

theorem decodeRow_of_namesUri (h : r.NamesUri) (fuel : Nat) :
    decodeRow (fuel + 1) r w = .ok ⟨r.id, .uri r.lexical⟩ w := by
  have hdatatype : rowDatatype (decodeRow fuel) r .uri = pure none := by
    unfold rowDatatype
    cases r.datatype <;> rfl
  have hnode : r.toNode .uri none = .ok ⟨r.id, .uri r.lexical⟩ :=
    NodeRow.toNode_eq_ok_iff.mpr ⟨rfl, h.created, rfl⟩
  unfold decodeRow
  rw [bind_of_ok (ofData_eq_ok_iff.mpr ⟨h.offset, rfl⟩),
    bind_of_ok (ofData_eq_ok_iff.mpr ⟨h.kind, rfl⟩), hdatatype,
    bind_of_ok (pure_eq_ok_iff.mpr ⟨rfl, rfl⟩), hnode]
  rfl

/-- Loading a node reads the row that it is found in. -/
theorem loadNode_eq_rowOf? (n : Node) (w : Workspace) :
    loadNode n w = nodeOfRow? (w.view.rowOf? n) w := by
  obtain ⟨id, term⟩ := n
  cases term with
  | uri uri => rfl
  | blank label => rfl
  | literal l =>
      obtain ⟨value, datatype⟩ := l
      cases datatype with
      | none => rfl
      | some datatype =>
          simp only [loadNode, Tables.rowOf?]
          split <;> rfl

theorem loadNode_eq_none (hrow : w.view.rowOf? n = none) : loadNode n w = .ok none w := by
  rw [loadNode_eq_rowOf?, hrow]
  rfl

section

variable (hP : Observes t P) (h : P w)

include hP h

theorem resolveWith_shown {decode : NodeRow → Action Node} (hfind : t.nodeById? id = some r)
    (hshows : t.Shows r n) (hdecode : ∃ w', decode r w = .ok n w' ∧ P w') :
    ∃ w', resolveWith decode id w = .ok (some n) w' ∧ P w' := by
  have hknows : t.Knows n := ⟨r, List.mem_of_find?_eq_some hfind, hshows⟩
  have hid : r.id = id := by simpa using List.find?_some hfind
  unfold resolveWith
  rw [bind_of_ok (a := (get : Action Workspace)) (s := w) rfl]
  cases hcached : w.store.caches.node.get? id with
  | some m =>
      obtain ⟨hm, hm_id⟩ := hP.knows h hcached
      rw [hm.eq hknows (hP.sound h) (by rw [hm_id, hshows.id, hid])]
      exact ⟨w, rfl, h⟩
  | none =>
      obtain ⟨w₁, hdecoded, h₁⟩ := hdecode
      obtain ⟨w₂, hcache, h₂⟩ := hP.cacheNode h₁ hknows
      have hview : view (·.nodeById? id) w = .ok (some r) w :=
        view_eq_ok_iff.mpr ⟨hP.view h ▸ hfind, rfl⟩
      refine ⟨w₂, ?_, h₂⟩
      dsimp only
      rw [bind_of_ok hview]
      dsimp only
      rw [bind_of_ok hdecoded, bind_of_ok hcache]
      rfl

theorem rowDatatype_shown (hshows : t.Shows r n) (fuel : Nat) :
    ∃ datatype w', rowDatatype (decodeRow (fuel + 1)) r n.kind w = .ok datatype w' ∧ P w' ∧
      (n.isLiteral = true → datatype = t.datatypeOf r) := by
  unfold rowDatatype
  cases hid : r.datatype with
  | none => exact ⟨none, w, rfl, h, fun _ => by simp [Tables.datatypeOf, hid]⟩
  | some id =>
      dsimp only
      split
      · rename_i hliteral
        obtain ⟨d, hd, huri⟩ := hshows.datatype hliteral id hid
        obtain ⟨w', hresolved, h'⟩ := resolveWith_shown hP h hd (Tables.shows_of_namesUri huri)
          ⟨w, decodeRow_of_namesUri huri fuel, h⟩
        rw [bind_of_ok hresolved]
        exact ⟨_, w', rfl, h', fun _ => by simp [Tables.datatypeOf, hid, hd]⟩
      · rename_i hresource
        exact ⟨none, w, rfl, h, fun hliteral => absurd hliteral hresource⟩

theorem nodeOfRow_shown (hr : r ∈ t.nodes) (hshows : t.Shows r n) :
    ∃ w', nodeOfRow r w = .ok n w' ∧ P w' := by
  obtain ⟨fuel, hfuel⟩ := Nat.exists_eq_succ_of_ne_zero (List.length_pos_of_mem hr).ne'
  obtain ⟨datatype, w', hdatatype, h', hread⟩ := rowDatatype_shown hP h hshows fuel
  refine ⟨w', ?_, h'⟩
  unfold nodeOfRow
  rw [bind_of_ok (view_eq_ok_iff.mpr ⟨hP.view h ▸ hfuel, rfl⟩)]
  unfold decodeRow
  rw [bind_of_ok (ofData_eq_ok_iff.mpr ⟨hshows.offset, rfl⟩),
    bind_of_ok (ofData_eq_ok_iff.mpr ⟨hshows.kind, rfl⟩), bind_of_ok hdatatype]
  refine ofData_eq_ok_iff.mpr ⟨NodeRow.toNode_eq_ok_iff.mpr ⟨?_, hshows.created, hshows.id⟩, rfl⟩
  cases hliteral : n.isLiteral with
  | true => rw [hread hliteral, hshows.term]
  | false => rw [NodeRow.readTerm_of_resource hliteral _ (t.datatypeOf r), hshows.term]

theorem resolveNode_shown (hfind : t.nodeById? id = some r) (hshows : t.Shows r n) :
    ∃ w', resolveNode id w = .ok (some n) w' ∧ P w' :=
  resolveWith_shown hP h hfind hshows
    (nodeOfRow_shown hP h (List.mem_of_find?_eq_some hfind) hshows)

theorem resolveNode_absent (hfind : t.nodeById? id = none) : resolveNode id w = .ok none w := by
  unfold resolveNode resolveWith
  rw [bind_of_ok (a := (get : Action Workspace)) (s := w) rfl]
  cases hcached : w.store.caches.node.get? id with
  | some m =>
      obtain ⟨hm, rfl⟩ := hP.knows h hcached
      obtain ⟨r, hr, -⟩ := hm.shows (hP.sound h)
      rw [hfind] at hr
      cases hr
  | none =>
      have hview : view (·.nodeById? id) w = .ok none w :=
        view_eq_ok_iff.mpr ⟨hP.view h ▸ hfind, rfl⟩
      dsimp only
      rw [bind_of_ok hview]
      rfl

theorem loadNode_shown (hrow : t.rowOf? n = some r) (hshows : t.Shows r m) :
    ∃ w', loadNode n w = .ok (some m) w' ∧ P w' := by
  obtain ⟨w', hread, h'⟩ := nodeOfRow_shown hP h (Tables.rowOf?_eq_some hrow).1 hshows
  refine ⟨w', ?_, h'⟩
  rw [loadNode_eq_rowOf?, hP.view h, hrow, nodeOfRow?, bind_of_ok hread]
  rfl

theorem loadNodeById_shown (hfind : t.nodeById? id = some r) (hshows : t.Shows r n) :
    ∃ w', loadNodeById id w = .ok (some n) w' ∧ P w' := by
  obtain ⟨w', hread, h'⟩ := nodeOfRow_shown hP h (List.mem_of_find?_eq_some hfind) hshows
  have hview : view (·.nodeById? id) w = .ok (some r) w :=
    view_eq_ok_iff.mpr ⟨hP.view h ▸ hfind, rfl⟩
  refine ⟨w', ?_, h'⟩
  unfold loadNodeById
  rw [bind_of_ok hview, nodeOfRow?, bind_of_ok hread]
  rfl

end

end Action
end QuadStore
