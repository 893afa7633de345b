import QuadStore.Proofs.Reading

namespace QuadStore

namespace Tables

/-- The row that holds the same term as a node. A literal whose datatype is
not stored is in no row. -/
def rowOf? (t : Tables) (n : Node) : Option NodeRow :=
  match n.term with
  | .uri uri => t.resource? "uri" uri
  | .blank label => t.resource? "bnode" label
  | .literal l =>
      match l.datatype with
      | some datatype =>
          if datatype.id < 0 then none else t.literal? l.content l.language (some datatype.id)
      | none => t.literal? l.content l.language none

/-- The id that a node is stored under: its own one, or that of the row of the same term. -/
def storedId? (t : Tables) (n : Node) : Option Int :=
  if n.isPersisted then some n.id else (t.rowOf? n).map NodeRow.id

theorem rowOf?_eq_some {t : Tables} {n : Node} {row : NodeRow} (h : t.rowOf? n = some row) :
    row ∈ t.nodes ∧ row.Holds (n.withId row.id) := by
  have hresource : ∀ {kind name : String}, t.resource? kind name = some row →
      row ∈ t.nodes ∧ row.kind = kind ∧ row.lexical = name := by
    intro kind name hfind
    have hspec := List.find?_some hfind
    simp only [Bool.and_eq_true, beq_iff_eq] at hspec
    exact ⟨List.mem_of_find?_eq_some hfind, hspec⟩
  obtain ⟨id, term⟩ := n
  cases term with
  | uri uri =>
      obtain ⟨hmem, hrow⟩ := hresource h
      exact ⟨hmem, rfl, hrow⟩
  | blank label =>
      obtain ⟨hmem, hrow⟩ := hresource h
      exact ⟨hmem, rfl, hrow⟩
  | literal l =>
      have hliteral : ∀ {content : String} {language : Option String} {datatype : Option Int},
          t.literal? content language datatype = some row →
            row ∈ t.nodes ∧ row.isResource = false := by
        intro content language datatype hfind
        have hspec := List.find?_some hfind
        simp only [Bool.and_eq_true, Bool.not_eq_true'] at hspec
        exact ⟨List.mem_of_find?_eq_some hfind, hspec.1.1.1⟩
      have hrow : row ∈ t.nodes ∧ row.isResource = false := by
        unfold rowOf? at h
        dsimp only at h
        split at h
        · split at h
          · cases h
          · exact hliteral h
        · exact hliteral h
      exact ⟨hrow.1, rfl, hrow.2⟩

end Tables

namespace Action

variable {w w' : Workspace}

theorem rel_of_nodeOfRow? {row : Option NodeRow} {n : Option Node}
    (h : nodeOfRow? row w = .ok n w') : Option.Rel NodeRow.Holds row n := by
  cases row with
  | none =>
      obtain ⟨rfl, -⟩ := pure_eq_ok_iff.mp h
      exact .none
  | some row =>
      obtain ⟨m, w₁, hm, h⟩ := bind_eq_ok_iff.mp h
      obtain ⟨rfl, -⟩ := pure_eq_ok_iff.mp h
      exact .some (holds_of_nodeOfRow hm)

theorem rel_of_loadRow {row : Tables → Option NodeRow} {n : Option Node}
    (h : (do nodeOfRow? (← view row) : Action (Option Node)) w = .ok n w') :
    Option.Rel NodeRow.Holds (row w.view) n := by
  obtain ⟨found, w₁, hv, h⟩ := bind_eq_ok_iff.mp h
  obtain ⟨rfl, rfl⟩ := view_eq_ok_iff.mp hv
  exact rel_of_nodeOfRow? h

/-- Loading a node answers the node of its row. -/
theorem rel_of_loadNode {n : Node} {found : Option Node} (h : loadNode n w = .ok found w') :
    Option.Rel NodeRow.Holds (w.view.rowOf? n) found := by
  obtain ⟨id, term⟩ := n
  cases term with
  | uri uri => exact rel_of_loadRow h
  | blank label => exact rel_of_loadRow h
  | literal l =>
      obtain ⟨value, datatype⟩ := l
      cases datatype with
      | none => exact rel_of_loadRow h
      | some datatype =>
          simp only [loadNode] at h
          simp only [Tables.rowOf?]
          split at h
          · obtain ⟨rfl, -⟩ := pure_eq_ok_iff.mp h
            rw [if_pos ‹_›]
            exact .none
          · rw [if_neg ‹_›]
            exact rel_of_loadRow h

theorem ids_of_loadNode {n : Node} {found : Option Node} (h : loadNode n w = .ok found w') :
    found.map Node.id = (w.view.rowOf? n).map NodeRow.id := by
  have hrel := rel_of_loadNode h
  revert hrel
  generalize w.view.rowOf? n = row
  rintro (hrow | _)
  · simp [hrow.1]
  · rfl

theorem holdsNode_of_loadNode {n m : Node} (h : loadNode n w = .ok (some m) w') :
    w.view.HoldsNode m ∧ w.view.HoldsNode (n.withId m.id) := by
  have hrel := rel_of_loadNode h
  cases hrow : w.view.rowOf? n with
  | none =>
      rw [hrow] at hrel
      cases hrel
  | some row =>
      rw [hrow] at hrel
      cases hrel with
      | some hholds =>
          obtain ⟨hmem, hrow⟩ := Tables.rowOf?_eq_some hrow
          exact ⟨⟨row, hmem, hholds⟩, ⟨row, hmem, hholds.1 ▸ hrow⟩⟩

theorem nodeId_eq {n : Node} {id : Option Int} (h : nodeId n w = .ok id w') :
    id = w.view.storedId? n := by
  unfold nodeId at h
  unfold Tables.storedId?
  split at h
  · obtain ⟨rfl, -⟩ := pure_eq_ok_iff.mp h
    simp_all
  · obtain ⟨found, w₁, hn, h⟩ := bind_eq_ok_iff.mp h
    obtain ⟨rfl, -⟩ := pure_eq_ok_iff.mp h
    simp_all [ids_of_loadNode hn]

theorem id_of_loadStatement (hkeyed : w.store.caches.Keyed) {id : Int} {found : Option Statement}
    (hrow : ∃ r ∈ w.view.statements, r.id = id) (h : loadStatement id w = .ok found w') :
    ∃ t, found = some t ∧ t.id = id := by
  obtain ⟨_, w₁, hget, h⟩ := bind_eq_ok_iff.mp h
  obtain ⟨rfl, rfl⟩ := get_eq_ok_iff.mp hget
  cases hcached : w.store.caches.statement.get? id with
  | some cached =>
      rw [hcached] at h
      obtain ⟨rfl, -⟩ := pure_eq_ok_iff.mp h
      exact ⟨cached, rfl, hkeyed.statement id cached hcached⟩
  | none =>
      rw [hcached] at h
      obtain ⟨row, w₂, hload, h⟩ := bind_eq_ok_iff.mp h
      obtain ⟨hfind, rfl⟩ := view_eq_ok_iff.mp hload
      cases row with
      | none =>
          obtain ⟨r, hr, hid⟩ := hrow
          have hnone := List.find?_eq_none.mp hfind r hr
          simp [hid] at hnone
      | some row =>
          obtain ⟨t, w₃, ht, h⟩ := bind_eq_ok_iff.mp h
          obtain ⟨_, w₄, -, h⟩ := bind_eq_ok_iff.mp h
          obtain ⟨rfl, -⟩ := pure_eq_ok_iff.mp h
          refine ⟨t, rfl, ?_⟩
          rw [(statementOfRow_eq_ok hkeyed ht).1]
          simpa using List.find?_some hfind

end Action
end QuadStore
