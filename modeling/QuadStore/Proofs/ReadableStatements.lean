import QuadStore.Proofs.LegibleStatements
import QuadStore.Proofs.LocatedNodes
import QuadStore.Proofs.ReadableRows
import QuadStore.Proofs.StatementIdentity

namespace QuadStore

open Transaction

namespace Tables

variable {t : Tables}

/-- Whether a statement has a context and all of its nodes are in their rows. -/
structure Presents (t : Tables) (u : Statement) : Prop where
  context : u.context ≠ none
  nodes : ∀ n ∈ u.nodes, t.Identifies n

end Tables

namespace Action

variable {t : Tables}

theorem listStatements_yields (hsound : t.Sound) (h : t.Legible)
    (subject predicate object context : Option Node)
    (includeInferred : Bool) :
    Yields t (listStatements subject predicate object context includeInferred) fun found =>
      ∀ u ∈ found, t.Presents u :=
  (listStatements_delivers resolves_readable hsound h subject predicate
    object context includeInferred).imp fun _ hfound u hu => ⟨(hfound u hu).1, (hfound u hu).2⟩

theorem listStatements_finds (hsound : t.Sound) (h : t.Legible) {k : StatementKey} {id : Int}
    (hlive : t.HasLive k id) {subject predicate object context : Option Node}
    (hmatch : k.MatchesNodes t subject predicate object context) :
    Yields t (listStatements subject predicate object context true) fun found =>
      ∃ u ∈ found, u.id = id ∧ u.key = k ∧ t.Presents u := by
  intro w hw
  obtain ⟨found, w', hop, hw', hnodes⟩ :=
    listStatements_yields hsound h subject predicate object context true w hw
  refine ⟨found, w', hop, hw', ?_⟩
  obtain ⟨rows, hrows, hmem, -⟩ := listStatements_eq_ok hw.good.coherent.caches.keyed hop
  rw [hw.view] at hmem
  obtain ⟨r, hr, hrlive, hkey, hid⟩ := hlive
  rw [← hkey] at hmatch
  obtain ⟨u, hu, huid, hukey⟩ :=
    exists_mem_of_forall₂ hrows ((hmem r).mpr ⟨hr, hrlive, hmatch, .inl rfl⟩)
  exact ⟨u, hu, huid.trans hid, hukey.trans hkey, hnodes u hu⟩

end Action

open LiteralValue (Readable)

/-- Whether a call can be answered without a row being written that cannot be read: the values of
new literals can be read back, and nodes that have ids already are in their rows. -/
def Call.ReadableIn (t : Tables) (c : Call) : Prop :=
  (∀ value ∈ c.values, value.Readable) ∧ ∀ n ∈ c.stored, n.isPersisted = true → t.Identifies n

/-- What is added has the ids of nodes that are asked for by the slots. -/
theorem Transaction.add_seats {x y : Scope} {t : Statement} {subject predicate object : Node}
    {context : Option Node} (hgood : x.work.Good) (h : x.work.Recorded Readable)
    (hreadable : (Call.add subject predicate object context).ReadableIn x.work.view)
    (hop : add subject predicate object context x = .ok t y) :
    ∃ uri, y.work.view.Seats subject predicate object (context.getD (.uri uri)) t.key := by
  obtain ⟨-, hop⟩ := whileOpen_eq_ok_iff.mp hop
  obtain ⟨t₁, x₁, hwork, hop⟩ := bind_eq_ok_iff.mp hop
  obtain ⟨w, hcreate, rfl⟩ := work_eq_ok_iff.mp hwork
  obtain ⟨hkept, uri, hseats⟩ := (Action.createStatement_seats hgood h
    (List.forall_mem_filterMap.mp hreadable.1) hreadable.2).of_ok hcreate
  obtain ⟨added, hkey, -, hstored, hstore, -⟩ := store_eq_ok hop
  have hworks := (Action.storeStatement_works t₁).ok hstore
  rw [← hkey] at hseats
  exact ⟨uri, hkept.recorded.view.seats_mono hseats hworks.nodes (hworks.good hkept.good).sound⟩

/-- Whether what happens leads to no row that cannot be read. -/
def Event.Readable : Event → Prop
  | .call _ before _ c _ => c.ReadableIn before
  | .begin | .clearCaches | .evict _ => True

namespace OpenStore

variable {s s' : OpenStore} {log : List Event} {e : Event}

/-- Whether all rows can be read, committed or not. -/
structure Readable (s : OpenStore) : Prop where
  good : s.Good
  recorded : s.Recorded LiteralValue.Readable
  legible : s.Everywhere Tables.Legible

theorem Readable.step (h : s.Readable) (hstep : s.Step e s')
    (hreadable : e.Readable) : s'.Readable := by
  refine ⟨h.good.step hstep, h.recorded.step h.good hstep ?_, h.legible.step hstep ?_ ?_⟩
  · cases e with
    | begin | clearCaches | evict => rintro value ⟨⟩
    | call number before after c answer => exact hreadable.1
  · exact fun t t' hnodes hstatements _ ht =>
      ht.of_statements (fun r hr => hnodes ▸ hr) hstatements
  · rintro i before after c answer rfl hends x hx rfl hlegible
    exact Call.legible hends (h.good.scopes i x hx) hlegible fun n hn hpersisted =>
      (hreadable.2 n hn hpersisted).holdsNode

theorem Readable.run (h : s.Readable) (hrun : s.Run log s') (hreadable : ∀ e ∈ log, e.Readable) :
    s'.Readable :=
  h.good.run_preserves hrun hreadable (fun _ hstep he hs => hs.step hstep he) h

theorem readable_opened (config : Config) {tables : Tables} (hsound : tables.Sound)
    (hrecorded : tables.Recorded LiteralValue.Readable) (hlegible : tables.Legible)
    (registryFile : RegistryFile) (labelStart : String) :
    (opened config tables registryFile labelStart).Readable := by
  refine ⟨good_opened config hsound registryFile labelStart,
    recorded_opened config hrecorded registryFile labelStart, ?_, by rintro i x ⟨⟩⟩
  exact hlegible.of_statements (fun r hr => tables.nodes_prepare ▸ hr) tables.statements_prepare

end OpenStore
end QuadStore
