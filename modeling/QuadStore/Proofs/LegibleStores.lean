import QuadStore.Proofs.ClearedCaches
import QuadStore.Proofs.LegibleNodes
import QuadStore.Proofs.LegibleStatements
import QuadStore.Proofs.MissingNodes

namespace QuadStore

open Transaction

/-- Whether what happens leads to no row that cannot be read: the moments that are asked for have
years of four digits, and nodes with ids that are put into statements are in their rows. -/
def Event.Legible : Event → Prop
  | .call _ before _ c _ =>
      (∀ value ∈ c.values, value.InYears) ∧
      ∀ n ∈ c.stored, n.isPersisted = true → before.HoldsNode n
  | .begin | .clearCaches | .evict _ => True

/-- Whether all rows of some tables can be read. -/
structure Tables.AllLegible (t : Tables) : Prop where
  nodes : t.LegibleNodes
  statements : t.Legible

namespace OpenStore

variable {s s' : OpenStore} {log : List Event} {e : Event} {i j : Nat} {x : Scope}

/-- Whether all rows can be read, committed or not. -/
structure Legible (s : OpenStore) : Prop where
  good : s.Good
  tables : s.Everywhere Tables.AllLegible

theorem Legible.step (h : s.Legible) (hstep : s.Step e s')
    (hlegible : e.Legible) : s'.Legible := by
  refine ⟨h.good.step hstep, h.tables.step hstep ?_ ?_⟩
  · intro t t' hnodes hstatements _ ht
    exact ⟨ht.nodes.of_eq hnodes,
      ht.statements.of_statements (fun r hr => hnodes ▸ hr) hstatements⟩
  · rintro i before after c answer rfl hends x hx rfl ht
    have hgood := h.good.scopes i x hx
    exact ⟨Call.keepsLegible hends hlegible.1 hgood.work ht.nodes,
      Call.legible hends hgood ht.statements hlegible.2⟩

theorem Legible.run (h : s.Legible) (hrun : s.Run log s') (hlegible : ∀ e ∈ log, e.Legible) :
    s'.Legible :=
  h.good.run_preserves hrun hlegible (fun _ hstep he hs => hs.step hstep he) h

theorem legible_opened (config : Config) {tables : Tables} (hsound : tables.Sound)
    (hlegible : tables.AllLegible) (registryFile : RegistryFile) (labelStart : String) :
    (opened config tables registryFile labelStart).Legible := by
  refine ⟨good_opened config hsound registryFile labelStart, ⟨?_, ?_⟩, by rintro i x ⟨⟩⟩
  · exact hlegible.nodes.of_eq tables.nodes_prepare
  · exact hlegible.statements.of_statements (fun r hr => tables.nodes_prepare ▸ hr)
      tables.statements_prepare

section

variable (h : s.Legible) (hx : s.scope? i = some x)

include h hx

theorem Legible.sees : x.work.Sees x.work.view ∧
    x.work.view.LegibleNodes ∧ x.work.view.Sound := by
  have hgood := (h.good.scopes i x hx).work
  exact ⟨⟨hgood, rfl⟩, (h.tables.scopes i x hx).nodes, hgood.sound⟩

variable (hopen : x.closed = false)

include hopen

theorem Legible.lists (subject predicate object context : Option Node) (includeInferred : Bool) :
    (Call.list subject predicate object context includeInferred).failure? x = none := by
  obtain ⟨hsees, hnodes, hsound⟩ := h.sees hx
  have hlist := Action.listStatements_delivers
    (Action.resolves_legible hnodes.recorded hsound) hsound
    (h.tables.scopes i x hx).statements subject predicate object context includeInferred
  obtain ⟨found, y, hop, -⟩ := perform_delivers hlist hopen hsees
  exact Call.failure?_eq_none hop

theorem Legible.loads {id : Int} (hid : id ∈ x.work.view.nodeIds) :
    ∃ n y, perform (Action.loadNodeById id) x = .ok (some n) y ∧ n.id = id := by
  obtain ⟨hsees, hnodes, hsound⟩ := h.sees hx
  obtain ⟨found, y, hop, hfound⟩ := perform_delivers
    (Action.loadNodeById_delivers hnodes.recorded hsound id) hopen hsees
  obtain ⟨r, hr, hrid⟩ := List.mem_map.mp hid
  cases hrow : x.work.view.nodeById? id with
  | none =>
      have hnone := List.find?_eq_none.mp hrow r hr
      simp [hrid] at hnone
  | some r' =>
      have hrid' : r'.id = id := by simpa using List.find?_some hrow
      rw [hrow] at hfound
      obtain ⟨n, rfl, hn⟩ := Option.map_eq_some_iff.mp hfound
      exact ⟨n, y, hop, hn.trans hrid'⟩

end

section

variable {P : Tables → Prop}
variable (hmono : ∀ t t' : Tables, (∀ r ∈ t.nodes, r ∈ t'.nodes) → P t → P t')

include hmono

theorem Good.seen_run (hs : s.Good) (hx : s.scope? i = some x) (hseen : P x.work.view)
    (hrun : s.Run log s') :
    (∃ y, s'.scope? i = some y ∧ (y.closed = false → P y.work.view)) ∧
      (Event.HasCommitted log i → P s'.database.committed) := by
  induction hrun with
  | nil => exact ⟨⟨x, hx, fun _ => hseen⟩, by rintro ⟨e, ⟨⟩, -⟩⟩
  | snoc hrun hstep ih =>
      obtain ⟨⟨y, hy, hseen'⟩, hcommitted⟩ := ih
      have hgood := hs.run hrun
      constructor
      · obtain ⟨z, hz, hsees⟩ := hgood.sees_step hstep hy
        exact ⟨z, hz, fun hopen => hmono _ _ (hsees hopen).2 (hseen' (hsees hopen).1)⟩
      · intro hlog
        rcases Event.hasCommitted_snoc.mp hlog with hbefore | hnow
        · exact hmono _ _ (hgood.nodes_step hstep) (hcommitted hbefore)
        · obtain ⟨y', z, hy', rfl, hopen, hended⟩ := hstep.commits hnow
          obtain rfl := Option.some.inj (hy.symm.trans hy')
          exact hmono _ _ (fun r hr => hended.nodes ▸ hr) (hseen' hopen)

/-- What an open transaction sees of rows of nodes is seen later by itself, and by all when it has
committed. -/
theorem Good.seen_later (hs : s.Good) (hx : s.scope? i = some x) (hseen : P x.work.view)
    (hrun : s.Run log s') {y : Scope} (hy : s'.scope? j = some y) (hopen : y.closed = false)
    (hj : j = i ∨ Event.HasCommitted log i) : P y.work.view := by
  obtain ⟨⟨z, hz, hseen'⟩, hcommitted⟩ := hs.seen_run hmono hx hseen hrun
  rcases hj with rfl | hj
  · obtain rfl := Option.some.inj (hy.symm.trans hz)
    exact hseen' hopen
  · refine hmono s'.database.committed _ ?_ (hcommitted hj)
    rw [← database_of_scope? hy]
    exact ((hs.run hrun).scopes j y hy).work.nodes

end
end OpenStore
end QuadStore
