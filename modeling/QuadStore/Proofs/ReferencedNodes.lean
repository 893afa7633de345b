import QuadStore.Proofs.SeenTables

namespace QuadStore

open Transaction

/-- The ids in the slots of a statement. -/
def StatementKey.slots (k : StatementKey) : List Int :=
  [k.subject, k.predicate, k.object, k.context]

namespace Tables

/-- The ids of the rows of nodes. -/
def nodeIds (t : Tables) : List Int :=
  t.nodes.map NodeRow.id

/-- Whether the slots of every row of statements have the ids of rows of nodes. -/
def Refers (t : Tables) : Prop :=
  ∀ r ∈ t.statements, ∀ id ∈ r.key.slots, id ∈ t.nodeIds

instance : DecidablePred Refers :=
  fun t => inferInstanceAs (Decidable (∀ r ∈ t.statements, ∀ id ∈ r.key.slots, id ∈ t.nodeIds))

variable {t t' : Tables} {n : Node} {id : Int}

theorem refers_empty : Refers {} := by
  rintro r ⟨⟩

theorem HoldsNode.mem_nodeIds (h : t.HoldsNode n) : n.id ∈ t.nodeIds := by
  obtain ⟨r, hr, hid, -⟩ := h
  exact List.mem_map.mpr ⟨r, hr, hid⟩

theorem mem_nodeIds_mono (hnodes : ∀ r ∈ t.nodes, r ∈ t'.nodes) (h : id ∈ t.nodeIds) :
    id ∈ t'.nodeIds :=
  List.map_subset _ hnodes h

theorem Refers.mono (h : t.Refers) (hnodes : ∀ r ∈ t.nodes, r ∈ t'.nodes)
    (hkeys : ∀ r' ∈ t'.statements, ∃ r ∈ t.statements, r'.key = r.key) : t'.Refers := by
  intro r' hr' id hid
  obtain ⟨r, hr, hkey⟩ := hkeys r' hr'
  rw [hkey] at hid
  exact mem_nodeIds_mono hnodes (h r hr id hid)

theorem Refers.of_statements (h : t.Refers) (hnodes : ∀ r ∈ t.nodes, r ∈ t'.nodes)
    (hstatements : t'.statements = t.statements) : t'.Refers :=
  h.mono hnodes fun r hr => ⟨r, hstatements ▸ hr, rfl⟩

theorem Refers.withDeleted (h : t.Refers) (ids : List Int) : (t.withDeleted ids).Refers := by
  refine h.mono (fun r hr => hr) fun r' hr' => ?_
  rcases mem_withDeleted_iff.mp hr' with ⟨hr, -⟩ | ⟨r, hr, -, -, rfl⟩
  · exact ⟨r', hr, rfl⟩
  · exact ⟨r, hr, rfl⟩

theorem Refers.withStatement (h : t.Refers) {row : StatementRow}
    (hrow : ∀ id ∈ row.key.slots, id ∈ t.nodeIds) : (t.withStatement row).Refers := by
  intro r hr
  rcases List.mem_append.mp hr with hr | hr
  · exact h r hr
  · rw [List.mem_singleton.mp hr]
    exact hrow

end Tables

namespace Action

variable {w w' : Workspace} {n m : Node} {t : Statement}

theorem resolveValue_stored {value : LiteralValue} {datatype : UriResource} (hgood : w.Good)
    (h : resolveValue value datatype w = .ok m w') : m.id ∈ w'.view.nodeIds := by
  obtain ⟨_, w₁, hget, h⟩ := bind_eq_ok_iff.mp h
  obtain ⟨rfl, rfl⟩ := get_eq_ok_iff.mp hget
  cases hcached : w.store.caches.literal.get? (Literal.key ⟨value, some datatype⟩) with
  | none =>
      rw [hcached] at h
      exact (loadOrStore_eq_ok rfl h).mem_nodeIds
  | some cached =>
      rw [hcached] at h
      obtain ⟨rfl, rfl⟩ := pure_eq_ok_iff.mp h
      exact (holdsNode_of_committed hgood
        (hgood.coherent.caches.literal _ _ hcached).2).mem_nodeIds

theorem createString_stored {content : String} {language : Option String} (hgood : w.Good)
    (h : createString content language w = .ok m w') : m.id ∈ w'.view.nodeIds := by
  obtain ⟨datatype, w₁, hdatatype, h⟩ := bind_eq_ok_iff.mp h
  exact resolveValue_stored (((createDatatype_silent _).ok hdatatype).good hgood) h

theorem resolveLiteral_stored {value : LiteralValue} {datatype : UriResource} (hgood : w.Good)
    (h : resolveLiteral value datatype w = .ok m w') : m.id ∈ w'.view.nodeIds := by
  unfold resolveLiteral at h
  split at h
  · split at h
    · exact createString_stored hgood h
    · exact resolveValue_stored hgood h
  · exact resolveValue_stored hgood h

theorem convert_stored (hgood : w.Good) (hknown : n.isPersisted = true → n.id ∈ w.view.nodeIds)
    (h : convert n w = .ok m w') : m.id ∈ w'.view.nodeIds := by
  unfold convert at h
  cases hnew : n.isPersisted with
  | true =>
      rw [if_pos hnew] at h
      obtain ⟨rfl, rfl⟩ := pure_eq_ok_iff.mp h
      exact hknown hnew
  | false =>
      rw [if_neg (by simp [hnew])] at h
      obtain ⟨id, term⟩ := n
      cases term with
      | uri uri => exact (createUri_eq_ok hgood h).2.mem_nodeIds
      | blank label => exact (createBlank_eq_ok hgood h).2.mem_nodeIds
      | literal l =>
          obtain ⟨datatype, w₁, hdatatype, h⟩ := bind_eq_ok_iff.mp h
          exact resolveLiteral_stored (((createDatatype_silent _).ok hdatatype).good hgood) h

theorem createStatement_stored {subject predicate object : Node} {context : Option Node}
    (hgood : w.Good) (hknown : ∀ n ∈ [subject, predicate, object] ++ context.toList,
      n.isPersisted = true → n.id ∈ w.view.nodeIds)
    (h : createStatement subject predicate object context w = .ok t w') :
    ∀ id ∈ t.key.slots, id ∈ w'.view.nodeIds := by
  have ⟨s, p, o, c, w₁, hsilent, hsubject, hpredicate, hobject, hcontext, hmade⟩ :=
    createStatement_made (I := Silent w) (P := fun w _ id => id ∈ w.view.nodeIds)
      w.store.config.defaultContext (refl w) (fun n hn w₁ m w₂ h₁ hm => ?_)
      (fun w₁ m w₂ h₁ hm => ?_) h
  · obtain ⟨hkey, hidentified⟩ := identifyMade_eq_ok (hsilent.good hgood) hmade
    have hnodes := hidentified.quiet.nodes
    simp only [hkey, StatementKey.slots, List.forall_mem_cons, List.not_mem_nil, false_imp_iff,
      implies_true, and_true]
    exact ⟨Tables.mem_nodeIds_mono hnodes hsubject, Tables.mem_nodeIds_mono hnodes hpredicate,
      Tables.mem_nodeIds_mono hnodes hobject, Tables.mem_nodeIds_mono hnodes hcontext⟩
  · have hsilent := (convert_silent n).ok hm
    refine ⟨IsTrans.trans _ _ _ h₁ hsilent, convert_stored (h₁.good hgood) (fun hnew => ?_) hm,
      fun _ _ => Tables.mem_nodeIds_mono hsilent.nodes⟩
    exact Tables.mem_nodeIds_mono h₁.nodes (hknown n hn hnew)
  · have hsilent := (createUri_silent _).ok hm
    exact ⟨IsTrans.trans _ _ _ h₁ hsilent, (createUri_eq_ok (h₁.good hgood) hm).2.mem_nodeIds,
      fun _ _ => Tables.mem_nodeIds_mono hsilent.nodes⟩

end Action

namespace Call

/-- The nodes that a call puts into a statement that it stores. -/
def stored : Call → List Node
  | .add s p o c | .addInferred s p o c => [s, p, o] ++ c.toList
  | _ => []

end Call

namespace Transaction

variable {x y : Scope} {t : Statement} {subject predicate object : Node} {context : Option Node}

theorem addMade_refers (mark : Statement → Statement)
    (hmark : ∀ t, (mark t).key = t.key ∧ (mark t).id = t.id) (hgood : x.work.Good)
    (hrefers : x.work.view.Refers) (hknown : ∀ n ∈ [subject, predicate, object] ++ context.toList,
      n.isPersisted = true → n.id ∈ x.work.view.nodeIds)
    (h : addMade subject predicate object context mark x = .ok t y) : y.work.view.Refers := by
  obtain ⟨t₁, x₁, hwork, h⟩ := bind_eq_ok_iff.mp h
  obtain ⟨w, hcreate, rfl⟩ := work_eq_ok_iff.mp hwork
  have hquiet := (Action.createStatement_quiet subject predicate object context).ok hcreate
  have hslots := Action.createStatement_stored hgood hknown hcreate
  have hrefers' : w.view.Refers := hrefers.of_statements hquiet.nodes hquiet.statements
  obtain ⟨added, hkey, -, hstored, -⟩ := store_eq_ok h
  cases hstored with
  | found hview hrow =>
      rw [hview]
      exact hrefers'
  | added hview hnew hfresh hid =>
      rw [hview]
      refine hrefers'.withStatement ?_
      rw [StatementRow.key_ofStatement, hkey, (hmark t₁).1]
      exact hslots

theorem add_refers (hgood : x.work.Good) (hrefers : x.work.view.Refers)
    (hknown : ∀ n ∈ (Call.add subject predicate object context).stored,
      n.isPersisted = true → n.id ∈ x.work.view.nodeIds)
    (h : add subject predicate object context x = .ok t y) : y.work.view.Refers := by
  obtain ⟨-, h⟩ := whileOpen_eq_ok_iff.mp h
  exact addMade_refers (fun t => t) (fun _ => ⟨rfl, rfl⟩) hgood hrefers hknown h

theorem addInferred_refers (hgood : x.work.Good) (hrefers : x.work.view.Refers)
    (hknown : ∀ n ∈ (Call.addInferred subject predicate object context).stored,
      n.isPersisted = true → n.id ∈ x.work.view.nodeIds)
    (h : addInferred subject predicate object context x = .ok t y) : y.work.view.Refers := by
  obtain ⟨hopen, -⟩ := whileOpen_eq_ok_iff.mp h
  rcases addInferred_cases hopen with ⟨e, w, -, -, hadd⟩ | ⟨c, w, hcontext, hadd⟩
  · cases hadd.symm.trans h
  · rw [hadd] at h
    have hsilent := hcontext.silent
    refine addMade_refers (fun t => { t with inferred := true }) (fun _ => ⟨rfl, rfl⟩)
      (hsilent.good hgood) (hrefers.of_statements hsilent.nodes hsilent.statements) ?_ h
    refine hcontext.forall_mem (fun n hn hpersisted => ?_) fun uri hcreate _ => ?_
    · exact Tables.mem_nodeIds_mono hsilent.nodes (hknown n hn hpersisted)
    · exact (Action.createUri_eq_ok hgood hcreate).2.mem_nodeIds

theorem remove_view {subject predicate object context : Option Node} {count : Nat} (hs : x.Good)
    (h : remove subject predicate object context x = .ok count y) :
    ∃ ids, y.work.view = x.work.view.withDeleted ids := by
  obtain ⟨-, h⟩ := whileOpen_eq_ok_iff.mp h
  obtain ⟨found, x₁, hwork, h⟩ := bind_eq_ok_iff.mp h
  obtain ⟨w, hlist, rfl⟩ := work_eq_ok_iff.mp hwork
  obtain ⟨removals, x₂, hremovals, h⟩ := bind_eq_ok_iff.mp h
  obtain ⟨-, rfl⟩ := pure_eq_ok_iff.mp h
  have hview : w.view = x.work.view :=
    ((Action.listStatements_reads subject predicate object context true).ok hlist).view_eq
  rcases removals_cases (listed_eq hs.work hlist).1 { x with work := w } with
    ⟨removals', x₃, hremoved, hview'⟩ | ⟨e, x₃, hfailed, -⟩
  · rw [hremoved] at hremovals
    cases hremovals
    exact ⟨_, hview'.trans (congrArg (Tables.withDeleted · _) hview)⟩
  · rw [hfailed] at hremovals
    cases hremovals

end Transaction

theorem Call.keepsRows {P : Tables → Prop} {c : Call} {x : Scope}
    (hends : c.ends = false) (hs : x.Good)
    (hsame : ∀ t t' : Tables, (∀ r ∈ t.nodes, r ∈ t'.nodes) →
      t'.statements = t.statements → P t → P t')
    (hdeleted : ∀ t ids, P t → P (t.withDeleted ids)) (h : P x.work.view)
    (hadd : ∀ {s p o context t y}, c = .add s p o context →
      Transaction.add s p o context x = .ok t y → P y.work.view)
    (hinferred : ∀ {s p o context t y}, c = .addInferred s p o context →
      Transaction.addInferred s p o context x = .ok t y → P y.work.view) :
    P (finalState (c.run x)).work.view := by
  have hnodes := (Call.advances hends x).works.nodes
  cases hchanges : c.changesStatements with
  | false => exact hsame _ _ hnodes (Call.silent hends hchanges x).work.statements h
  | true =>
      cases c with
      | statement s p o c =>
          exact hsame _ _ hnodes
            (keeps_perform (Action.createStatement_quiet s p o c) x).work.statements h
      | add s p o c =>
          rw [Call.run] at hnodes ⊢
          cases hop : Transaction.add s p o c x with
          | ok t y => exact hadd rfl hop
          | error e y =>
              rw [hop] at hnodes
              exact hsame _ _ hnodes (add_error hs.work hop).statements h
      | addInferred s p o c =>
          rw [Call.run] at hnodes ⊢
          cases hop : Transaction.addInferred s p o c x with
          | ok t y => exact hinferred rfl hop
          | error e y =>
              rw [hop] at hnodes
              exact hsame _ _ hnodes (addInferred_error hs.work hop).statements h
      | remove s p o c =>
          rw [Call.run] at hnodes ⊢
          cases hop : Transaction.remove s p o c x with
          | ok count y =>
              obtain ⟨ids, hview⟩ := remove_view hs hop
              show P y.work.view
              rw [hview]
              exact hdeleted _ ids h
          | error e y =>
              rw [hop] at hnodes
              exact hsame _ _ hnodes (remove_error hs hop) h
      | _ => cases hchanges

theorem Call.refers {c : Call} {x : Scope} (hends : c.ends = false) (hs : x.Good)
    (hrefers : x.work.view.Refers)
    (hknown : ∀ n ∈ c.stored, n.isPersisted = true → n.id ∈ x.work.view.nodeIds) :
    (finalState (c.run x)).work.view.Refers := by
  refine Call.keepsRows hends hs (fun _ _ hnodes hsame ht => ht.of_statements hnodes hsame)
    (fun _ ids ht => ht.withDeleted ids) hrefers ?_ ?_
  · rintro s p o context t y rfl hop
    exact add_refers hs.work hrefers hknown hop
  · rintro s p o context t y rfl hop
    exact addInferred_refers hs.work hrefers hknown hop

/-- Whether every node with an id that is put into a statement has a row
that its transaction sees. -/
def Event.Grounded : Event → Prop
  | .call _ before _ c _ => ∀ n ∈ c.stored, n.isPersisted = true → n.id ∈ before.nodeIds
  | _ => True

instance : DecidablePred Event.Grounded
  | .begin | .clearCaches | .evict _ => isTrue trivial
  | .call _ before _ c _ =>
      inferInstanceAs (Decidable (∀ n ∈ c.stored, n.isPersisted = true → n.id ∈ before.nodeIds))

namespace OpenStore

variable {s s' : OpenStore} {log : List Event}

/-- All rows of statements, committed or not, go on referring to rows of nodes. -/
theorem refers_run (hgood : s.Good) (hs : s.Everywhere Tables.Refers) (h : s.Run log s')
    (hgrounded : ∀ e ∈ log, e.Grounded) : s'.Everywhere Tables.Refers := by
  refine hgood.run_preserves h hgrounded (fun hgood hstep he hs => ?_) hs
  refine hs.step hstep (fun t t' hnodes hstatements _ ht => ?_) ?_
  · exact ht.of_statements (fun r hr => hnodes ▸ hr) hstatements
  · rintro i before after c answer rfl hends x hx rfl hrefers
    exact Call.refers hends (hgood.scopes i x hx) hrefers he

variable {config : Config} {tables : Tables} {registryFile : RegistryFile} {labelStart : String}

theorem refers_opened (h : tables.Refers) :
    (opened config tables registryFile labelStart).Everywhere Tables.Refers := by
  refine ⟨h.of_statements (fun r hr => ?_) tables.statements_prepare, by rintro i x ⟨⟩⟩
  exact tables.nodes_prepare ▸ hr

end OpenStore
end QuadStore
