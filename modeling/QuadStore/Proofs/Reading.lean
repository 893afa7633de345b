import QuadStore.Connection.Queries
import QuadStore.Proofs.Bindings
import QuadStore.Proofs.Outcome

namespace QuadStore

/-- The second workspace differs from the first one at most in what caches and lists of fresh
nodes and statements hold. -/
def Caching (w w' : Workspace) : Prop :=
  ∃ caches nodes statements, w' = { w with
    store := { w.store with caches }
    conn := { w.conn with freshNodes := nodes, freshStatements := statements } }

instance : IsPreorder Workspace Caching where
  refl w := ⟨w.store.caches, w.conn.freshNodes, w.conn.freshStatements, rfl⟩
  trans _ _ _ := by
    rintro ⟨_, _, _, rfl⟩ ⟨_, _, _, rfl⟩
    exact ⟨_, _, _, rfl⟩

/-- What reading leaves of a workspace: all but the caches, which stay in line with the tables. -/
structure Reads (w w' : Workspace) : Prop where
  caching : Caching w w'
  keyed : w.store.caches.Keyed → w'.store.caches.Keyed
  coherent : w.Coherent → w'.Coherent
  binds : Binds w w'

namespace Reads

instance : IsPreorder Workspace Reads where
  refl w := ⟨refl w, id, id, refl w⟩
  trans _ _ _ h h' := ⟨IsTrans.trans _ _ _ h.caching h'.caching, fun hw => h'.keyed (h.keyed hw),
    fun hw => h'.coherent (h.coherent hw), IsTrans.trans _ _ _ h.binds h'.binds⟩

variable {w w' : Workspace}

theorem view_eq (h : Reads w w') : w'.view = w.view := by
  obtain ⟨_, _, _, rfl⟩ := h.caching
  rfl

end Reads

/-- What a relation allows that everything keeps to which only reads nodes. -/
class AllowsNodes (R : Workspace → Workspace → Prop) : Prop extends IsPreorder Workspace R where
  resolveNode : ∀ id, Keeps R (Action.resolveNode id)
  loadNode : ∀ n, Keeps R (Action.loadNode n)

/-- What a relation allows that everything keeps to which only reads nodes and statements. -/
class AllowsReading (R : Workspace → Workspace → Prop) : Prop extends AllowsNodes R where
  loadStatement : ∀ id, Keeps R (Action.loadStatement id)

namespace NodeRow

theorem literal_of_bind {α : Type} {x : Except DataFault α} {f : α → Literal} {term : Term}
    (h : (do pure (.literal (f (← x)))) = Except.ok term) : ∃ v, term = .literal (f v) := by
  cases x with
  | error fault => cases h
  | ok v => exact ⟨_, (Except.ok.inj h).symm⟩

theorem holds_of_toNode {row : NodeRow} {kind : NodeKind}
    {datatype : Option UriResource} {n : Node}
    (hkind : row.readKind = .ok kind) (h : row.toNode kind datatype = .ok n) : row.Holds n := by
  have kind_eq : row.kind = kind.name := by
    unfold readKind at hkind
    split at hkind
    · rename_i found hfound
      obtain rfl := Except.ok.inj hkind
      have hname := List.find?_some hfound
      simpa using (beq_iff_eq.mp hname).symm
    · cases hkind
  unfold toNode at h
  cases hterm : row.readTerm kind datatype with
  | error fault =>
      rw [hterm] at h
      cases h
  | ok term =>
  rw [hterm] at h
  cases hcheck : row.created.check with
  | error fault =>
      simp only [hcheck] at h
      cases h
  | ok u =>
  simp only [hcheck] at h
  obtain rfl := Except.ok.inj h
  refine ⟨rfl, ?_⟩
  cases kind with
  | uri =>
      obtain rfl := Except.ok.inj hterm
      exact ⟨kind_eq, rfl⟩
  | blank =>
      obtain rfl := Except.ok.inj hterm
      exact ⟨kind_eq, rfl⟩
  | string =>
      obtain rfl := Except.ok.inj hterm
      show row.isResource = false
      rw [isResource, kind_eq]
      rfl
  | int | double | boolean | date =>
      obtain ⟨v, rfl⟩ := literal_of_bind hterm
      show row.isResource = false
      rw [isResource, kind_eq]
      rfl

end NodeRow

namespace Action

variable {w w' : Workspace}

theorem cacheNode_binds (n : Node) : Keeps Binds (cacheNode n) := by
  intro w
  simp only [cacheNode]
  split
  · rw [bind_of_ok (a := (get : Action Workspace)) (s := w) rfl]
    split
    · exact .of_same rfl rfl rfl ⟨rfl, rfl⟩ rfl rfl id
    · exact .of_same rfl rfl rfl (Caches.sameBindings_addNode _ n) rfl rfl id
  · exact refl w

/-- Caching a node always succeeds. -/
theorem cacheNode_eq_ok (n : Node) (w : Workspace) : ∃ w', cacheNode n w = .ok () w' := by
  simp only [cacheNode]
  split
  · rw [bind_of_ok (a := (get : Action Workspace)) (s := w) rfl]
    split <;> exact ⟨_, rfl⟩
  · exact ⟨_, rfl⟩

theorem cacheNode_reads {n : Node} (hn : w.Coherent → w.view.HoldsNode n) :
    Reads w (finalState (cacheNode n w)) := by
  have hbinds := cacheNode_binds n w
  revert hbinds
  simp only [cacheNode]
  split
  · rw [bind_of_ok (a := (get : Action Workspace)) (s := w) rfl]
    split
    · rename_i hwriting
      refine fun hbinds =>
        ⟨⟨w.store.caches, w.conn.freshNodes ++ [n], w.conn.freshStatements, rfl⟩,
        id, fun h => { h with freshNodes := ?_, idle := fun hidle => ?_ }, hbinds⟩
      · intro m hm
        rcases List.mem_append.mp hm with hm | hm
        · exact h.freshNodes m hm
        · rw [List.mem_singleton.mp hm]
          exact hn h
      · cases hwriting.symm.trans hidle
    · rename_i hidle
      refine fun hbinds => ⟨⟨w.store.caches.addNode n, w.conn.freshNodes, w.conn.freshStatements,
        rfl⟩, fun h => h.addNode n, fun h => { h with caches := h.caches.addNode ?_ }, hbinds⟩
      rw [← Workspace.view_eq_committed (by simpa using hidle)]
      exact hn h
  · exact fun _ => refl w

theorem cacheStatement_caching (s : Statement) : Keeps Caching (cacheStatement s) := by
  intro w
  simp only [cacheStatement]
  rw [bind_of_ok (a := (get : Action Workspace)) (s := w) rfl]
  split
  · exact ⟨w.store.caches, w.conn.freshNodes, w.conn.freshStatements ++ [s], rfl⟩
  · exact ⟨w.store.caches.addStatement s, w.conn.freshNodes, w.conn.freshStatements, rfl⟩

theorem cacheStatement_binds (s : Statement) : Keeps Binds (cacheStatement s) := by
  intro w
  simp only [cacheStatement]
  rw [bind_of_ok (a := (get : Action Workspace)) (s := w) rfl]
  split
  · exact .of_same rfl rfl rfl ⟨rfl, rfl⟩ rfl rfl id
  · exact .of_same rfl rfl rfl (Caches.sameBindings_addStatement _ s) rfl rfl id

theorem cacheStatement_reads {s : Statement} (hs : w.view.HoldsStatement s) :
    Reads w (finalState (cacheStatement s w)) := by
  refine ⟨cacheStatement_caching s w, ?_, ?_, cacheStatement_binds s w⟩ <;>
    simp only [cacheStatement] <;>
    rw [bind_of_ok (a := (get : Action Workspace)) (s := w) rfl]
  · split
    · exact id
    · exact fun h => h.addStatement s
  · split
    · rename_i hwriting
      refine fun h => { h with freshStatements := ?_, idle := fun hidle => ?_ }
      · intro u hu
        rcases List.mem_append.mp hu with hu | hu
        · exact h.freshStatements u hu
        · rwa [List.mem_singleton.mp hu]
      · cases hwriting.symm.trans hidle
    · rename_i hidle
      refine fun h => { h with caches := h.caches.addStatement ?_ }
      rwa [← Workspace.view_eq_committed (by simpa using hidle)]

theorem resolveWith_reads {decode : NodeRow → Action Node} (h : ∀ row, Keeps Reads (decode row))
    (hdecode : ∀ row w n w', decode row w = .ok n w' → row.Holds n) (id : Int) :
    Keeps Reads (resolveWith decode id) := by
  refine keeps_get.bind fun w => ?_
  split
  · exact .pure _
  refine (keeps_view _).bind_of fun w row w₁ hview => ?_
  obtain ⟨hfind, rfl⟩ := view_eq_ok_iff.mp hview
  cases row with
  | none => exact Keeps.pure _ w
  | some row =>
      refine finalState_bind (h row w) fun n w₁ hn => ?_
      refine finalState_bind (cacheNode_reads fun _ => ?_) fun _ w₂ _ => Keeps.pure _ w₂
      rw [((h row).ok hn).view_eq]
      exact ⟨row, List.mem_of_find?_eq_some hfind, hdecode row w n w₁ hn⟩

theorem holds_of_decodeRow {fuel : Nat} {row : NodeRow} {n : Node}
    (h : decodeRow fuel row w = .ok n w') : row.Holds n := by
  cases fuel with
  | zero => cases h
  | succ fuel =>
      obtain ⟨_, w₁, -, h⟩ := bind_eq_ok_iff.mp h
      obtain ⟨kind, w₂, hkind, h⟩ := bind_eq_ok_iff.mp h
      obtain ⟨datatype, w₃, -, h⟩ := bind_eq_ok_iff.mp h
      exact NodeRow.holds_of_toNode (ofData_eq_ok_iff.mp hkind).1 (ofData_eq_ok_iff.mp h).1

theorem decodeRow_reads (fuel : Nat) (row : NodeRow) : Keeps Reads (decodeRow fuel row) := by
  induction fuel generalizing row with
  | zero => exact .throw _
  | succ fuel ih =>
      refine (keeps_ofData _).bind fun _ => ?_
      refine (keeps_ofData _).bind fun kind => ?_
      refine Keeps.bind ?_ fun datatype => keeps_ofData _
      unfold rowDatatype
      split
      · split
        · refine (resolveWith_reads ih (fun _ _ _ _ => holds_of_decodeRow) _).bind fun found => ?_
          split
          · exact .pure _
          · exact .throw _
        · exact .pure _
      · exact .pure _

theorem nodeOfRow_reads (row : NodeRow) : Keeps Reads (nodeOfRow row) :=
  (keeps_view _).bind fun _ => decodeRow_reads _ row

theorem holds_of_nodeOfRow {row : NodeRow} {n : Node} (h : nodeOfRow row w = .ok n w') :
    row.Holds n := by
  obtain ⟨_, w₁, -, h⟩ := bind_eq_ok_iff.mp h
  exact holds_of_decodeRow h

theorem nodeOfRow?_reads (row : Option NodeRow) : Keeps Reads (nodeOfRow? row) := by
  cases row with
  | none => exact .pure _
  | some row => exact (nodeOfRow_reads row).bind fun _ => .pure _

theorem resolveNode_reads (id : Int) : Keeps Reads (resolveNode id) :=
  resolveWith_reads nodeOfRow_reads (fun _ _ _ _ => holds_of_nodeOfRow) id

theorem loadNode_reads (n : Node) : Keeps Reads (loadNode n) := by
  unfold loadNode
  split
  · exact (keeps_view _).bind nodeOfRow?_reads
  · exact (keeps_view _).bind nodeOfRow?_reads
  · split
    · refine .ite (.pure _) ?_
      exact (keeps_view _).bind nodeOfRow?_reads
    · exact (keeps_view _).bind nodeOfRow?_reads

instance : AllowsNodes Reads where
  resolveNode := resolveNode_reads
  loadNode := loadNode_reads

theorem attempt_keeps {R : Workspace → Workspace → Prop} {a : Action α} (h : Keeps R a) :
    Keeps R (attempt a) := by
  intro w
  have hw := h w
  unfold attempt
  split <;> simp_all

theorem attempt_eq_ok {a : Action α} {v : α} (h : attempt a w = .ok (.ok v) w') :
    a w = .ok v w' := by
  unfold attempt at h
  split at h <;> simp_all

section

variable {R : Workspace → Workspace → Prop} [AllowsNodes R]

theorem nodeId_keeps (n : Node) : Keeps R (nodeId n) := by
  refine .ite (.pure _) ?_
  exact (AllowsNodes.loadNode n).bind fun _ => .pure _

theorem requireNode_keeps (id : Int) : Keeps R (requireNode id) := by
  refine (AllowsNodes.resolveNode id).bind fun n => ?_
  split
  · exact .pure _
  · exact .throw _

theorem statementOfRow_keeps (row : StatementRow) : Keeps R (statementOfRow row) := by
  refine (requireNode_keeps _).bind fun subject => ?_
  refine (requireNode_keeps _).bind fun predicate => ?_
  refine (requireNode_keeps _).bind fun object => ?_
  refine (requireNode_keeps _).bind fun context => ?_
  dsimp only
  split
  · refine (AllowsNodes.resolveNode _).bind fun creator => ?_
    refine (keeps_ofStatement _).bind fun t => ?_
    exact (keeps_ofData _).bind fun _ => (keeps_ofData _).bind fun _ => .pure _
  · refine Keeps.bind (.pure none) fun creator => ?_
    refine (keeps_ofStatement _).bind fun t => ?_
    exact (keeps_ofData _).bind fun _ => (keeps_ofData _).bind fun _ => .pure _

theorem slotIds_keeps (slots : List (Option Node)) : Keeps R (slotIds slots) := by
  induction slots with
  | nil => exact .pure _
  | cons slot rest ih =>
      cases slot with
      | none => exact ih.bind fun _ => .pure _
      | some n =>
          refine (nodeId_keeps n).bind fun id => ?_
          split
          · exact ih.bind fun _ => .pure _
          · exact .pure _

theorem listStatements_keeps (subject predicate object context : Option Node)
    (includeInferred : Bool) :
    Keeps R (listStatements subject predicate object context includeInferred) := by
  refine (slotIds_keeps _).bind fun ids => ?_
  split
  · exact .pure _
  · refine (keeps_view _).bind fun rows => ?_
    exact .mapM fun row _ => statementOfRow_keeps row

theorem listContexts_keeps : Keeps R listContexts :=
  (keeps_view _).bind fun _ => .mapM fun id _ => requireNode_keeps id

theorem countStatements_keeps (context : Option Node) : Keeps R (countStatements context) := by
  unfold countStatements
  split
  · exact keeps_view _
  · refine (nodeId_keeps _).bind fun id => ?_
    split
    · exact .pure _
    · exact keeps_view _

theorem resolveTerm_keeps (term : PatternTerm) : Keeps R (resolveTerm term) := by
  cases term with
  | var name => exact .pure _
  | value n => exact (nodeId_keeps n).bind fun _ => .pure _

theorem resolvePattern_keeps (index : Nat) (p : Pattern) : Keeps R (resolvePattern index p) := by
  refine (resolveTerm_keeps _).bind fun subject => ?_
  refine (resolveTerm_keeps _).bind fun predicate => ?_
  refine (resolveTerm_keeps _).bind fun object => ?_
  split
  · split
    · exact .pure _
    · exact (resolveTerm_keeps _).bind fun _ => .pure _
  · exact .pure _

theorem collect_keeps {f : α → Action (Option β)} (hf : ∀ x, Keeps R (f x)) (xs : List α) :
    Keeps R (collect f xs) := by
  induction xs with
  | nil => exact .pure _
  | cons x rest ih =>
      refine (hf x).bind fun y => ?_
      split
      · exact ih.bind fun _ => .pure _
      · exact .pure _

theorem resolveValueOf_keeps (entry : String × Node) : Keeps R (resolveValueOf entry) :=
  (nodeId_keeps _).bind fun _ => .pure _

theorem resolveQuery_keeps (q : PatternQuery) : Keeps R (resolveQuery q) := by
  refine (collect_keeps (fun _ => resolvePattern_keeps _ _) _).bind fun patterns => ?_
  split
  · refine (collect_keeps resolveValueOf_keeps _).bind fun bindings => ?_
    split
    · refine (collect_keeps resolveValueOf_keeps _).bind fun sameValues => ?_
      split
      · exact .pure _
      · exact .pure _
    · exact .pure _
  · exact .pure _

theorem reorderPatterns_keeps (q : ResolvedQuery) : Keeps R (reorderPatterns q) :=
  .ite (.pure _) ((attempt_keeps (.mapM fun _ _ => keeps_view _)).bind fun _ => .pure _)

theorem prepareQuery_keeps (q : PatternQuery) (reorder : Bool) :
    Keeps R (prepareQuery q reorder) := by
  refine (keeps_ofExcept _).bind fun _ => ?_
  refine (resolveQuery_keeps q).bind fun resolved => ?_
  split
  · refine .ite ?_ (.pure _)
    rw [map_eq_pure_bind]
    exact (reorderPatterns_keeps _).bind fun _ => .pure _
  · exact .pure _

theorem evaluate_keeps (q : PatternQuery) (reorder : Bool) : Keeps R (evaluate q reorder) := by
  refine (prepareQuery_keeps q reorder).bind fun resolved => ?_
  split
  · exact .pure _
  · refine keeps_get.bind fun w => ?_
    exact (keeps_ofData _).bind fun _ => .pure _

theorem resolveBinding_keeps (entry : String × Int) : Keeps R (resolveBinding entry) := by
  refine (AllowsNodes.resolveNode _).bind fun n => ?_
  split
  · exact .pure _
  · exact .throw _

end

section

variable {R : Workspace → Workspace → Prop} [AllowsReading R]

theorem materialize_keeps (r : QueryResults) (row : List Int) : Keeps R (materialize r row) := by
  refine Keeps.bind (.mapM fun entry _ => resolveBinding_keeps entry) fun bindings => ?_
  refine Keeps.bind (.mapM fun id _ => AllowsReading.loadStatement id) fun found => ?_
  exact .pure _

theorem fetch_keeps (count : Nat) (r : QueryResults) : Keeps R (fetch count r) :=
  Keeps.bind (.mapM fun row _ => attempt_keeps (materialize_keeps r row)) fun _ => .pure _

end

theorem nodeId_reads (n : Node) : Keeps Reads (nodeId n) :=
  nodeId_keeps n

theorem requireNode_reads (id : Int) : Keeps Reads (requireNode id) :=
  requireNode_keeps id

theorem statementOfRow_reads (row : StatementRow) : Keeps Reads (statementOfRow row) :=
  statementOfRow_keeps row

theorem id_of_resolveNode (hkeyed : w.store.caches.Keyed) {id : Int} {n : Node}
    (h : resolveNode id w = .ok (some n) w') : n.id = id := by
  obtain ⟨_, w₁, hget, h⟩ := bind_eq_ok_iff.mp h
  obtain ⟨rfl, rfl⟩ := get_eq_ok_iff.mp hget
  cases hcached : w.store.caches.node.get? id with
  | some cached =>
      rw [hcached] at h
      obtain ⟨heq, -⟩ := pure_eq_ok_iff.mp h
      obtain rfl := Option.some.inj heq
      exact hkeyed.node id _ hcached
  | none =>
      rw [hcached] at h
      obtain ⟨found, w₂, hrow, h⟩ := bind_eq_ok_iff.mp h
      obtain ⟨hfind, rfl⟩ := view_eq_ok_iff.mp hrow
      cases found with
      | none => cases h
      | some row =>
          obtain ⟨n', w₃, hn, h⟩ := bind_eq_ok_iff.mp h
          obtain ⟨_, w₄, -, h⟩ := bind_eq_ok_iff.mp h
          obtain ⟨heq, -⟩ := pure_eq_ok_iff.mp h
          obtain rfl := Option.some.inj heq
          rw [← (holds_of_nodeOfRow hn).1]
          simpa using List.find?_some hfind

theorem id_of_requireNode (hkeyed : w.store.caches.Keyed) {id : Int} {n : Node}
    (h : requireNode id w = .ok n w') : n.id = id := by
  obtain ⟨found, w₁, hfound, h⟩ := bind_eq_ok_iff.mp h
  cases found with
  | none => cases h
  | some m =>
      obtain ⟨rfl, -⟩ := pure_eq_ok_iff.mp h
      exact id_of_resolveNode hkeyed hfound

theorem make_eq_ok {subject predicate object : Node} {context : Option Node} {t : Statement}
    (h : Statement.make subject predicate object context = .ok t) :
    t = {
      id := transientId, subject, predicate, object, context, creator := none, deleted := false,
      deletionTimed := false, inferred := false, isNew := false } := by
  unfold Statement.make at h
  cases hcheck : checkSlots subject predicate context with
  | error fault =>
      rw [hcheck] at h
      cases h
  | ok u =>
      rw [hcheck] at h
      exact (Except.ok.inj h).symm

theorem statementOfRow_eq_ok (hkeyed : w.store.caches.Keyed) {row : StatementRow} {t : Statement}
    (h : statementOfRow row w = .ok t w') :
    t.id = row.id ∧ t.key = row.key ∧ t.inferred = row.isInferred ∧ t.deleted = !row.live := by
  obtain ⟨subject, w₁, hs, h⟩ := bind_eq_ok_iff.mp h
  obtain ⟨predicate, w₂, hp, h⟩ := bind_eq_ok_iff.mp h
  obtain ⟨object, w₃, ho, h⟩ := bind_eq_ok_iff.mp h
  obtain ⟨context, w₄, hc, h⟩ := bind_eq_ok_iff.mp h
  have hk₁ := ((requireNode_reads _).ok hs).keyed hkeyed
  have hk₂ := ((requireNode_reads _).ok hp).keyed hk₁
  have hk₃ := ((requireNode_reads _).ok ho).keyed hk₂
  have hkey : (⟨subject.id, predicate.id, object.id, context.id⟩ : StatementKey) = row.key := by
    rw [id_of_requireNode hkeyed hs, id_of_requireNode hk₁ hp, id_of_requireNode hk₂ ho,
      id_of_requireNode hk₃ hc]
    rfl
  cases hcreator : row.creator <;> rw [hcreator] at h
  all_goals
    obtain ⟨creator, w₅, -, h⟩ := bind_eq_ok_iff.mp h
    obtain ⟨made, w₆, hmade, h⟩ := bind_eq_ok_iff.mp h
    obtain ⟨_, w₇, -, h⟩ := bind_eq_ok_iff.mp h
    obtain ⟨_, w₈, -, h⟩ := bind_eq_ok_iff.mp h
    obtain ⟨rfl, -⟩ := pure_eq_ok_iff.mp h
    obtain rfl := make_eq_ok (ofStatement_eq_ok_iff.mp hmade).1
    exact ⟨rfl, hkey, rfl, rfl⟩

theorem loadStatement_reads (id : Int) : Keeps Reads (loadStatement id) := by
  refine keeps_get.bind fun w => ?_
  split
  · exact .pure _
  refine (keeps_view _).bind_of fun w row w₁ hview => ?_
  obtain ⟨hfind, rfl⟩ := view_eq_ok_iff.mp hview
  cases row with
  | none => exact Keeps.pure _ w
  | some row =>
      by_cases hkeyed : w.store.caches.Keyed
      · refine finalState_bind (statementOfRow_reads row w) fun s w₁ hs => ?_
        refine finalState_bind (cacheStatement_reads ?_) fun _ w₂ _ => Keeps.pure _ w₂
        obtain ⟨hid, hkey, hinferred, hdeleted⟩ := statementOfRow_eq_ok hkeyed hs
        rw [((statementOfRow_reads row).ok hs).view_eq]
        refine ⟨row, List.mem_of_find?_eq_some hfind, hid.symm, hkey.symm, hinferred.symm, ?_⟩
        simp [hdeleted]
      -- The caches have to say nothing about the nodes of the row then.
      · refine ⟨?_, fun h => absurd h hkeyed, fun h => absurd h.caches.keyed hkeyed, ?_⟩
        · refine finalState_bind (statementOfRow_reads row w).caching fun s w₁ hs => ?_
          exact (cacheStatement_caching s).bind (fun _ => .pure _) w₁
        · refine finalState_bind (statementOfRow_reads row w).binds fun s w₁ hs => ?_
          exact (cacheStatement_binds s).bind (fun _ => .pure _) w₁

instance : AllowsReading Reads where
  loadStatement := loadStatement_reads

theorem slotIds_reads (slots : List (Option Node)) : Keeps Reads (slotIds slots) :=
  slotIds_keeps slots

theorem listStatements_reads (subject predicate object context : Option Node)
    (includeInferred : Bool) :
    Keeps Reads (listStatements subject predicate object context includeInferred) :=
  listStatements_keeps subject predicate object context includeInferred

theorem listContexts_reads : Keeps Reads listContexts :=
  listContexts_keeps

theorem countStatements_reads (context : Option Node) : Keeps Reads (countStatements context) :=
  countStatements_keeps context

theorem loadNamespace_reads {row : Tables → Option NamespaceRow}
    (hrow : ∀ t r, row t = some r → r ∈ t.namespaces) (cached : Caches → Option Namespace) :
    Keeps Reads (loadNamespace cached row) := by
  refine keeps_get.bind fun _ => ?_
  split
  · exact .pure _
  refine (keeps_view _).bind_of fun w found w₁ hview => ?_
  obtain ⟨hfind, rfl⟩ := view_eq_ok_iff.mp hview
  cases found with
  | none => exact Keeps.pure _ w
  | some r =>
      refine finalState_bind (keeps_ofData _ w) fun ns w₁ hns => ?_
      obtain ⟨hread, rfl⟩ := ofData_eq_ok_iff.mp hns
      rw [bind_of_ok (a := (get : Action Workspace)) (s := w) rfl]
      split
      · rename_i hidle
        refine finalState_bind (a := modifyCaches _) ?_ fun _ w₁ _ => Keeps.pure _ w₁
        have hview := w.view_eq_committed (by simpa using hidle)
        have hholds : w.view.HoldsNamespace ns :=
          ⟨r, hrow _ _ hfind, NamespaceRow.holds_of_toNamespace hread⟩
        refine ⟨⟨w.store.caches.addNamespace ns, w.conn.freshNodes, w.conn.freshStatements, rfl⟩,
          fun h => ⟨h.node, h.statement⟩, fun h => { h with caches := ?_ },
          ⟨le_refl _, fun _ hr => .inl hr, id, fun h => { h with caches := ?_ },
            fun _ h => h.addNamespace hholds⟩⟩
        · exact ⟨h.caches.node, h.caches.uri, h.caches.blank,
            h.caches.literal, h.caches.statement⟩
        · exact h.caches.addNamespace (hview ▸ hholds)
      · exact Keeps.pure _ w

theorem loadNamespaceByLabel_reads (label : String) : Keeps Reads (loadNamespaceByLabel label) :=
  loadNamespace_reads (fun _ _ => List.mem_of_find?_eq_some) _

theorem loadNamespaceByUri_reads (uri : String) : Keeps Reads (loadNamespaceByUri uri) :=
  loadNamespace_reads (fun _ _ => List.mem_of_find?_eq_some) _

theorem knows_of_loadNamespace {cached : Caches → Option Namespace}
    {row : Tables → Option NamespaceRow}
    (hcached : ∀ c t ns, Caches.Bound c t → cached c = some ns → t.HoldsNamespace ns)
    (hrow : ∀ t r, row t = some r → r ∈ t.namespaces) {ns : Namespace}
    (h : loadNamespace cached row w = .ok (some ns) w') : w'.KnowsNamespace ns := by
  have hreads := (loadNamespace_reads hrow cached).ok h
  obtain ⟨_, w₁, hget, h⟩ := bind_eq_ok_iff.mp h
  obtain ⟨rfl, rfl⟩ := get_eq_ok_iff.mp hget
  cases hfound : cached w.store.caches with
  | some found =>
      rw [hfound] at h
      obtain ⟨heq, rfl⟩ := pure_eq_ok_iff.mp h
      obtain rfl := Option.some.inj heq
      exact ⟨fun hcaches => .inl (hcached _ _ _ hcaches hfound),
        fun hcaches => hcached _ _ _ hcaches hfound⟩
  | none =>
      rw [hfound] at h
      obtain ⟨r, w₂, hview, h⟩ := bind_eq_ok_iff.mp h
      obtain ⟨hfind, rfl⟩ := view_eq_ok_iff.mp hview
      cases r with
      | none => cases h
      | some r =>
          obtain ⟨ns', w₃, hns, h⟩ := bind_eq_ok_iff.mp h
          obtain ⟨hread, rfl⟩ := ofData_eq_ok_iff.mp hns
          have hsame : ns' = ns := by
            obtain ⟨_, w₄, hget, h⟩ := bind_eq_ok_iff.mp h
            split at h
            · obtain ⟨_, w₅, -, h⟩ := bind_eq_ok_iff.mp h
              exact Option.some.inj (pure_eq_ok_iff.mp h).1
            · exact Option.some.inj (pure_eq_ok_iff.mp h).1
          have hholds : w'.view.HoldsNamespace ns := by
            refine ⟨r, ?_, hsame ▸ NamespaceRow.holds_of_toNamespace hread⟩
            rw [hreads.view_eq]
            exact hrow _ _ hfind
          exact ⟨fun _ => .inr hholds, fun _ => hholds⟩

theorem knows_of_loadNamespaceByLabel {label : String} {ns : Namespace}
    (h : loadNamespaceByLabel label w = .ok (some ns) w') : w'.KnowsNamespace ns :=
  knows_of_loadNamespace (fun _ _ _ hc hget => (hc.label _ _ hget).2)
    (fun _ _ => List.mem_of_find?_eq_some) h

theorem knows_of_loadNamespaceByUri {uri : String} {ns : Namespace}
    (h : loadNamespaceByUri uri w = .ok (some ns) w') : w'.KnowsNamespace ns :=
  knows_of_loadNamespace (fun _ _ _ hc hget => (hc.uri _ _ hget).2)
    (fun _ _ => List.mem_of_find?_eq_some) h

theorem listNamespaces_reads : Keeps Reads listNamespaces :=
  (keeps_view _).bind fun _ => .mapM fun _ _ => keeps_ofData _

theorem resolveTerm_reads (term : PatternTerm) : Keeps Reads (resolveTerm term) :=
  resolveTerm_keeps term

theorem resolvePattern_reads (index : Nat) (p : Pattern) : Keeps Reads (resolvePattern index p) :=
  resolvePattern_keeps index p

theorem collect_reads {f : α → Action (Option β)} (hf : ∀ x, Keeps Reads (f x)) (xs : List α) :
    Keeps Reads (collect f xs) :=
  collect_keeps hf xs

theorem resolveValueOf_reads (entry : String × Node) : Keeps Reads (resolveValueOf entry) :=
  resolveValueOf_keeps entry

theorem prepareQuery_reads (q : PatternQuery) (reorder : Bool) :
    Keeps Reads (prepareQuery q reorder) :=
  prepareQuery_keeps q reorder

theorem evaluate_reads (q : PatternQuery) (reorder : Bool) : Keeps Reads (evaluate q reorder) :=
  evaluate_keeps q reorder

theorem resolveBinding_reads (entry : String × Int) : Keeps Reads (resolveBinding entry) :=
  resolveBinding_keeps entry

theorem materialize_reads (r : QueryResults) (row : List Int) : Keeps Reads (materialize r row) :=
  materialize_keeps r row

theorem fetch_reads (count : Nat) (r : QueryResults) : Keeps Reads (fetch count r) :=
  fetch_keeps count r

end Action
end QuadStore
