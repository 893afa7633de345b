import QuadStore.Proofs.RecordedWork

/-!
Calls by the steps that they are made of. Whatever a transaction is asked for that does not end it
takes a few steps that have to do with nodes or with bindings of prefixes, and others that leave
both alone; what all of these steps keep is kept by every such call.
-/

namespace QuadStore

open Transaction

/-- What a step leaves that has to do neither with nodes nor with rows of bindings. -/
structure Aside (w w' : Workspace) : Prop where
  committed : w'.database.committed = w.database.committed
  nodes : w'.view.nodes = w.view.nodes
  namespaces : w'.view.namespaces = w.view.namespaces
  sequences : w'.view.sequences = w.view.sequences
  uri : w'.store.caches.uri = w.store.caches.uri
  blank : w'.store.caches.blank = w.store.caches.blank
  freshNodes : w'.conn.freshNodes = w.conn.freshNodes

instance : IsPreorder Workspace Aside where
  refl _ := ⟨rfl, rfl, rfl, rfl, rfl, rfl, rfl⟩
  trans _ _ _ h h' := ⟨h'.committed.trans h.committed, h'.nodes.trans h.nodes,
    h'.namespaces.trans h.namespaces, h'.sequences.trans h.sequences, h'.uri.trans h.uri,
    h'.blank.trans h.blank, h'.freshNodes.trans h.freshNodes⟩

/-- What a step leaves that has to do with no nodes either, but may take ids for them: the caches
of nodes, too, and a counter that has not gone back. -/
structure Beside (w w' : Workspace) : Prop extends Aside w w' where
  node : w'.store.caches.node = w.store.caches.node
  literal : w'.store.caches.literal = w.store.caches.literal
  counter : w.store.counters.nodes ≤ w'.store.counters.nodes

instance : IsPreorder Workspace Beside where
  refl w := ⟨refl w, rfl, rfl, le_refl _⟩
  trans _ _ _ h h' := ⟨IsTrans.trans _ _ _ h.toAside h'.toAside, h'.node.trans h.node,
    h'.literal.trans h.literal, le_trans h.counter h'.counter⟩

theorem Beside.of_same {w w' : Workspace} (h : Aside w w')
    (hcaches : w'.store.caches = w.store.caches)
    (hcounter : w.store.counters.nodes ≤ w'.store.counters.nodes) : Beside w w' :=
  ⟨h, by rw [hcaches], by rw [hcaches], hcounter⟩

/-- What a step leaves that has to do with no statements either: their rows, and the copies of
them that are cached or await publication. -/
structure Apart (w w' : Workspace) : Prop extends Beside w w' where
  statements : w'.view.statements = w.view.statements
  statement : w'.store.caches.statement = w.store.caches.statement
  freshStatements : w'.conn.freshStatements = w.conn.freshStatements

instance : IsPreorder Workspace Apart where
  refl w := ⟨refl w, rfl, rfl, rfl⟩
  trans _ _ _ h h' := ⟨IsTrans.trans _ _ _ h.toBeside h'.toBeside,
    h'.statements.trans h.statements,
    h'.statement.trans h.statement, h'.freshStatements.trans h.freshStatements⟩

theorem Apart.of_same {w w' : Workspace} (h : Aside w w')
    (hstatements : w'.view.statements = w.view.statements)
    (hfresh : w'.conn.freshStatements = w.conn.freshStatements)
    (hcaches : w'.store.caches = w.store.caches)
    (hcounter : w.store.counters.nodes ≤ w'.store.counters.nodes) : Apart w w' :=
  ⟨.of_same h hcaches hcounter, hstatements, by rw [hcaches], hfresh⟩

/-- What a relation allows that does not ask what a node of a row says when it is cached. -/
class AllowsCaching (R : Workspace → Workspace → Prop) : Prop extends IsPreorder Workspace R where
  cacheNode : ∀ {w n}, w.view.HoldsNode n → R w (finalState (Action.cacheNode n w))

/-- What a relation allows that everything keeps to which stores nodes: also adding the row of a
node, and noting a node that is seen. -/
class AllowsStoring (R : Workspace → Workspace → Prop) : Prop extends AllowsCaching R where
  apart : ∀ {w w'}, Apart w w' → R w w'
  insertNode : ∀ {w t id n}, w.conn.writing = true → w.view.insertNode? (.ofNode id n) = some t →
    R w (finalState (Action.setTables t w))
  keepNode : ∀ {w n}, w.conn.writing = true → w.view.HoldsNode n →
    R w (finalState (Action.modifyConn (fun c => { c with freshNodes := c.freshNodes ++ [n] }) w))

/-- What a relation allows that every call keeps to which neither stores nodes nor adds statements
nor ends its transaction. -/
class AllowsSteps (R : Workspace → Workspace → Prop) : Prop extends AllowsReading R where
  apart : ∀ {w w'}, Apart w w' → R w w'
  deleteStatement : ∀ t, Keeps R (Action.deleteStatement t)
  storeNamespace : ∀ ns, Keeps R (Action.storeNamespace ns)
  deleteNamespace : ∀ ns, Keeps R (Action.deleteNamespace ns)

/-- What a relation allows that adding statements keeps to as well. -/
class AllowsAdding (R : Workspace → Workspace → Prop) : Prop extends AllowsSteps R where
  storeIdentified : ∀ t, Keeps R (Action.storeIdentified t)

/-- What a relation allows that does not look at statements: reading nodes, steps that have to do
neither with nodes nor with bindings, and storing and deleting bindings. -/
class AllowsBeside (R : Workspace → Workspace → Prop) : Prop extends AllowsNodes R where
  beside : ∀ {w w'}, Beside w w' → R w w'
  storeNamespace : ∀ ns, Keeps R (Action.storeNamespace ns)
  deleteNamespace : ∀ ns, Keeps R (Action.deleteNamespace ns)

/-- What a relation allows that does not look at the caches of nodes either. -/
class AllowsAside (R : Workspace → Workspace → Prop) : Prop extends AllowsCaching R where
  aside : ∀ {w w'}, Aside w w' → R w w'
  storeNamespace : ∀ ns, Keeps R (Action.storeNamespace ns)
  deleteNamespace : ∀ ns, Keeps R (Action.deleteNamespace ns)

/-- What a relation allows that every call keeps to which does not end its transaction, and that
does not look at statements. -/
class AllowsWork (R : Workspace → Workspace → Prop) : Prop extends AllowsAside R where
  insertNode : ∀ {w t id n}, w.conn.writing = true → w.view.insertNode? (.ofNode id n) = some t →
    R w (finalState (Action.setTables t w))
  keepNode : ∀ {w n}, w.conn.writing = true → w.view.HoldsNode n →
    R w (finalState (Action.modifyConn (fun c => { c with freshNodes := c.freshNodes ++ [n] }) w))

namespace Action

variable {w w' : Workspace}

/-! Steps that leave nodes, statements and bindings alone -/

theorem beginWrite_apart : Keeps Apart beginWrite := by
  intro w
  unfold beginWrite
  rw [bind_of_ok (a := (get : Action Workspace)) (s := w) rfl]
  dsimp only
  split
  · rename_i hidle
    split
    · exact refl w
    · have hview : w.view = w.database.committed :=
        Workspace.view_eq_committed (by simpa using hidle)
      refine .of_same ⟨rfl, ?_, ?_, ?_, rfl, rfl, rfl⟩ ?_ rfl rfl (le_refl _) <;>
      · rw [hview]
        rfl
  · exact refl w

theorem nextId_apart (s : Sequence) : Keeps Apart (nextId s) := by
  intro w
  refine .of_same ⟨rfl, rfl, rfl, rfl, rfl, rfl, rfl⟩ rfl rfl rfl ?_
  show w.store.counters.nodes ≤ (w.store.counters.next s).nodes
  cases s with
  | nodes => exact Int.le_add_one (le_refl _)
  | statements | namespaces | transactions => exact le_refl _

theorem freshLabel_apart : Keeps Apart freshLabel :=
  fun _ => .of_same ⟨rfl, rfl, rfl, rfl, rfl, rfl, rfl⟩ rfl rfl rfl (le_refl _)

theorem modifyRegistry_apart (f : Registry → RegistryFile → Registry × RegistryFile) :
    Keeps Apart (modifyRegistry f) :=
  fun _ => .of_same ⟨rfl, rfl, rfl, rfl, rfl, rfl, rfl⟩ rfl rfl rfl (le_refl _)

theorem loadNamespace_apart (cached : Caches → Option Namespace)
    (row : Tables → Option NamespaceRow) :
    Keeps Apart (loadNamespace cached row) := by
  refine keeps_get.bind fun _ => ?_
  split
  · exact .pure _
  refine (keeps_view _).bind fun found => ?_
  cases found with
  | none => exact .pure _
  | some r =>
      refine (keeps_ofData _).bind fun ns => keeps_get.bind fun w => ?_
      have add_apart : Keeps Apart (modifyCaches (·.addNamespace ns)) :=
        fun w => ⟨⟨⟨rfl, rfl, rfl, rfl, rfl, rfl, rfl⟩, rfl, rfl, le_refl _⟩, rfl, rfl, rfl⟩
      split
      · exact add_apart.bind fun _ => .pure _
      · exact Keeps.bind (R := Apart) (.pure _) fun _ => .pure _

theorem listNamespaces_apart : Keeps Apart listNamespaces :=
  (keeps_view _).bind fun _ => .mapM fun _ _ => keeps_ofData _

/-! Steps that leave nodes and bindings alone -/

theorem beginWrite_beside : Keeps Beside beginWrite :=
  beginWrite_apart.mono fun _ _ => Apart.toBeside

theorem nextId_beside (s : Sequence) : Keeps Beside (nextId s) :=
  (nextId_apart s).mono fun _ _ => Apart.toBeside

theorem freshLabel_beside : Keeps Beside freshLabel :=
  freshLabel_apart.mono fun _ _ => Apart.toBeside

theorem cacheStatement_beside (t : Statement) : Keeps Beside (cacheStatement t) := by
  intro w
  simp only [cacheStatement]
  rw [bind_of_ok (a := (get : Action Workspace)) (s := w) rfl]
  split
  · exact .of_same ⟨rfl, rfl, rfl, rfl, rfl, rfl, rfl⟩ rfl (le_refl _)
  · have hadded (c : Caches) : (c.addStatement t).node = c.node ∧ (c.addStatement t).uri = c.uri ∧
        (c.addStatement t).blank = c.blank ∧ (c.addStatement t).literal = c.literal := by
      unfold Caches.addStatement
      split <;> exact ⟨rfl, rfl, rfl, rfl⟩
    obtain ⟨hnode, huri, hblank, hliteral⟩ := hadded w.store.caches
    exact ⟨⟨rfl, rfl, rfl, rfl, huri, hblank, rfl⟩, hnode, hliteral, le_refl _⟩

theorem insertRow_beside (t : Statement) : Keeps Beside (insertRow t) := by
  refine (keeps_view _).bind_of fun w tables w₁ hview => ?_
  obtain ⟨hinsert, rfl⟩ := view_eq_ok_iff.mp hview
  have set_beside : ∀ {tables : Tables} {w : Workspace}, tables.nodes = w.view.nodes →
      tables.namespaces = w.view.namespaces → tables.sequences = w.view.sequences →
        Beside w (finalState (setTables tables w)) := fun hnodes hnamespaces hsequences =>
    .of_same ⟨rfl, hnodes, hnamespaces, hsequences, rfl, rfl, rfl⟩ rfl (le_refl _)
  cases tables with
  | some tables =>
      obtain ⟨rfl, -⟩ := Tables.insertStatement?_eq_some hinsert
      exact finalState_bind (set_beside rfl rfl rfl) fun _ w₁ _ => Keeps.pure _ w₁
  | none =>
      refine (keeps_view _).bind (fun used => ?_) w
      refine Keeps.bind
        (fun w => .of_same ⟨rfl, rfl, rfl, rfl, rfl, rfl, rfl⟩ rfl (le_refl _)) fun _ =>
          keeps_get.bind fun w' => ?_
      refine (keeps_view _).bind_of fun w tables w₁ hview => ?_
      obtain ⟨htables, rfl⟩ := view_eq_ok_iff.mp hview
      refine finalState_bind (set_beside ?_ ?_ ?_) fun _ w₁ _ =>
        Keeps.pure _ w₁ <;> rw [← htables]

theorem deleteStatement_beside (t : Statement) : Keeps Beside (deleteStatement t) := by
  intro w
  by_cases hid : 0 ≤ t.id
  · cases hbegin : beginWrite w with
    | error e w₁ =>
        rw [deleteStatement_error hid hbegin]
        exact beginWrite_beside.error hbegin
    | ok u w₁ =>
        obtain ⟨t', removed, hop, -⟩ := deleteStatement_eq hid hbegin
        rw [hop]
        exact IsTrans.trans _ _ _ (beginWrite_beside.ok hbegin)
          (.of_same ⟨rfl, rfl, rfl, rfl, rfl, rfl, rfl⟩ rfl (le_refl _))
  · unfold deleteStatement
    rw [if_pos (by omega)]
    exact refl w

theorem beginWrite_aside : Keeps Aside beginWrite :=
  beginWrite_beside.mono fun _ _ => Beside.toAside

theorem nextId_aside (s : Sequence) : Keeps Aside (nextId s) :=
  (nextId_beside s).mono fun _ _ => Beside.toAside

theorem freshLabel_aside : Keeps Aside freshLabel :=
  freshLabel_beside.mono fun _ _ => Beside.toAside

/-! Reading nodes -/

section

variable {R : Workspace → Workspace → Prop} [AllowsCaching R]

theorem resolveWith_keeps {decode : NodeRow → Action Node}
    (hreads : ∀ row, Keeps Reads (decode row))
    (h : ∀ row, Keeps R (decode row))
    (hdecode : ∀ row w n w', decode row w = .ok n w' → row.Holds n)
    (id : Int) : Keeps R (resolveWith decode id) := by
  refine keeps_get.bind fun w => ?_
  split
  · exact .pure _
  refine (keeps_view _).bind_of fun w row w₁ hview => ?_
  obtain ⟨hfind, rfl⟩ := view_eq_ok_iff.mp hview
  cases row with
  | none => exact Keeps.pure _ w
  | some row =>
      refine finalState_bind (h row w) fun n w₁ hn => ?_
      refine finalState_bind (AllowsCaching.cacheNode ?_) fun _ w₂ _ => Keeps.pure _ w₂
      rw [((hreads row).ok hn).view_eq]
      exact ⟨row, List.mem_of_find?_eq_some hfind, hdecode row w n w₁ hn⟩

theorem decodeRow_keeps (fuel : Nat) (row : NodeRow) : Keeps R (decodeRow fuel row) := by
  induction fuel generalizing row with
  | zero => exact .throw _
  | succ fuel ih =>
      refine (keeps_ofData _).bind fun _ => (keeps_ofData _).bind fun kind => ?_
      refine Keeps.bind ?_ fun datatype => keeps_ofData _
      unfold rowDatatype
      split
      · split
        · refine (resolveWith_keeps (decodeRow_reads fuel) ih
            (fun _ _ _ _ => holds_of_decodeRow) _).bind
            fun found => ?_
          split
          · exact .pure _
          · exact .throw _
        · exact .pure _
      · exact .pure _

theorem nodeOfRow_keeps (row : NodeRow) : Keeps R (nodeOfRow row) :=
  (keeps_view _).bind fun _ => decodeRow_keeps _ row

theorem loadNode_keeps (n : Node) : Keeps R (loadNode n) := by
  intro w
  rw [loadNode_eq_rowOf?]
  cases w.view.rowOf? n with
  | none => exact refl w
  | some row => exact (nodeOfRow_keeps row).bind (fun _ => .pure _) w

instance : AllowsNodes R where
  resolveNode := resolveWith_keeps nodeOfRow_reads nodeOfRow_keeps fun _ _ _ _ =>
    holds_of_nodeOfRow
  loadNode := loadNode_keeps

end

section

variable {R : Workspace → Workspace → Prop}

instance [AllowsAside R] : AllowsBeside R where
  beside h := AllowsAside.aside h.toAside
  storeNamespace := AllowsAside.storeNamespace
  deleteNamespace := AllowsAside.deleteNamespace

instance [AllowsWork R] : AllowsStoring R where
  apart h := AllowsAside.aside h.toAside
  insertNode := AllowsWork.insertNode
  keepNode := AllowsWork.keepNode

end

/-! Statements that are not looked at -/

section

variable {R : Workspace → Workspace → Prop} [AllowsBeside R]

theorem keeps_of_beside {α : Type} {a : Action α} (h : Keeps Beside a) : Keeps R a :=
  h.mono fun _ _ => AllowsBeside.beside

theorem loadStatement_keeps (id : Int) : Keeps R (loadStatement id) := by
  refine keeps_get.bind fun w => ?_
  split
  · exact .pure _
  refine (keeps_view _).bind fun row => ?_
  cases row with
  | none => exact .pure _
  | some row =>
      refine Keeps.bind (R := R) (statementOfRow_keeps row) fun t => ?_
      exact (keeps_of_beside (cacheStatement_beside t)).bind fun _ => .pure _

theorem storeIdentified_keeps (t : Statement) : Keeps R (storeIdentified t) := by
  refine (keeps_of_beside beginWrite_beside).bind fun _ => (keeps_view _).bind fun live => ?_
  cases live with
  | some existing =>
      refine (loadStatement_keeps existing).bind fun stored => ?_
      split <;> exact .pure _
  | none =>
      refine (keeps_of_beside (insertRow_beside t)).bind fun t => ?_
      refine Keeps.bind (keeps_of_beside fun w => ?_) fun _ => .pure _
      exact .of_same ⟨rfl, rfl, rfl, rfl, rfl, rfl, rfl⟩ rfl (le_refl _)

instance : AllowsAdding R where
  loadStatement := loadStatement_keeps
  apart h := AllowsBeside.beside h.toBeside
  deleteStatement t := keeps_of_beside (deleteStatement_beside t)
  storeNamespace := AllowsBeside.storeNamespace
  deleteNamespace := AllowsBeside.deleteNamespace
  storeIdentified := storeIdentified_keeps

end

/-! Statements and bindings of prefixes -/

section

variable {R : Workspace → Workspace → Prop} [AllowsSteps R]

theorem keeps_of_apart {α : Type} {a : Action α} (h : Keeps Apart a) : Keeps R a :=
  h.mono fun _ _ => AllowsSteps.apart

theorem registerId_keeps (key : StatementKey) (id : Int) : Keeps R (registerId key id) :=
  keeps_get.bind fun _ => keeps_of_apart (modifyRegistry_apart _)

theorem identifyShared_keeps (t : Statement) : Keeps R (identifyShared t) := by
  refine Keeps.bind (R := R) (keeps_get.bind fun _ => .pure _) fun registered => ?_
  split
  · exact (registerId_keeps _ _).bind fun _ => .pure _
  · refine (keeps_view _).bind fun live => ?_
    split
    · exact (AllowsReading.loadStatement _).bind fun _ => .pure _
    · exact (keeps_of_apart (nextId_apart _)).bind fun id =>
        (registerId_keeps _ _).bind fun _ => .pure _

theorem identify_keeps (t : Statement) : Keeps R (identify t) := by
  refine Keeps.bind (R := R) ?_ fun _ => ?_
  · unfold checkStorable
    split
    · exact .throw _
    · exact .ite (.throw _) (.pure _)
  · exact .ite ((keeps_of_apart (nextId_apart _)).bind fun _ => .pure _) (.pure _)

theorem removeStatement_keeps (t : Statement) : Keeps R (removeStatement t) :=
  (AllowsSteps.deleteStatement t).bind fun _ =>
    (keeps_of_apart (modifyRegistry_apart _)).bind fun _ => .pure _

theorem createStatement_keeps_of {subject predicate object : Node} {context : Option Node}
    (hconvert : ∀ n ∈ [subject, predicate, object] ++ context.toList, Keeps R (convert n))
    (huri : ∀ uri, Keeps R (createUri uri)) :
    Keeps R (createStatement subject predicate object context) := by
  have identify_keeps : ∀ s p o c, Keeps R (do
      identifyShared (← ofStatement (Statement.make s p o (some c))) : Action Statement) :=
    fun _ _ _ _ => (keeps_ofStatement _).bind fun _ => identifyShared_keeps _
  refine (keeps_ofStatement _).bind fun _ => ?_
  refine (hconvert subject (by simp)).bind fun _ => ?_
  refine (hconvert predicate (by simp)).bind fun _ => ?_
  refine (hconvert object (by simp)).bind fun _ => ?_
  cases context with
  | some c => exact (hconvert c (by simp)).bind fun _ => identify_keeps _ _ _ _
  | none => exact keeps_get.bind fun w => (huri _).bind fun _ => identify_keeps _ _ _ _

theorem rebindUri_keeps (label uri : String) : Keeps R (do
    match ← loadNamespaceByUri uri with
    | some ns => Functor.discard (deleteNamespace ns)
    | none => pure ()
    storeNamespace (.make label uri) : Action Namespace) := by
  refine (keeps_of_apart (loadNamespace_apart _ _)).bind fun found => ?_
  cases found with
  | some ns =>
      refine Keeps.bind (R := R) ?_ fun _ => AllowsSteps.storeNamespace _
      exact (AllowsSteps.deleteNamespace ns).bind fun _ => .pure _
  | none => exact AllowsSteps.storeNamespace _

end

theorem storeStatement_keeps {R : Workspace → Workspace → Prop} [AllowsAdding R] (t : Statement) :
    Keeps R (storeStatement t) :=
  (identify_keeps t).bind AllowsAdding.storeIdentified

/-! Storing nodes -/

section

variable {R : Workspace → Workspace → Prop} [AllowsStoring R]

theorem storing_of_apart {α : Type} {a : Action α} (h : Keeps Apart a) : Keeps R a :=
  h.mono fun _ _ => AllowsStoring.apart

theorem storeNode_keeps (n : Node) : Keeps R (storeNode n) := by
  unfold storeNode
  refine .ite (.pure _) ?_
  refine Keeps.bind ?_ fun _ => ?_
  · unfold checkDatatype
    split
    · exact .ite (.throw _) (.pure _)
    · exact .pure _
  refine (storing_of_apart beginWrite_apart).bind_of fun w _ w₁ hbegin => ?_
  have hwriting := (beginWrite_eq_ok hbegin).1
  refine finalState_bind (storing_of_apart (nextId_apart .nodes) w₁) fun id w₂ hnext => ?_
  replace hwriting : w₂.conn.writing = true := by
    cases hnext
    exact hwriting
  refine finalState_bind (keeps_view _ w₂) fun tables w₃ hview => ?_
  obtain ⟨hinsert, rfl⟩ := view_eq_ok_iff.mp hview
  have keep_stored : ∀ {stored : Node} {w : Workspace}, w.conn.writing = true →
      w.view.HoldsNode stored → R w (finalState ((do
        let stored ← (pure stored : Action Node)
        modifyConn fun c => { c with freshNodes := c.freshNodes ++ [stored] }
        pure stored) w)) := by
    intro stored w hwriting hholds
    rw [bind_of_ok (a := (pure stored : Action Node)) (s := w) rfl]
    exact finalState_bind (AllowsStoring.keepNode hwriting hholds) fun _ w₁ _ => Keeps.pure _ w₁
  cases tables with
  | some tables =>
      obtain ⟨rfl, -⟩ := Tables.insertNode?_eq_some hinsert
      refine finalState_bind (AllowsStoring.insertNode hwriting hinsert) ?_
      rintro _ w₃ ⟨⟩
      exact keep_stored rfl ⟨.ofNode id n, List.mem_append_right _ (by simp), holds_ofNode id n⟩
  | none =>
      refine finalState_bind (loadNode_keeps n w₂) fun existing w₃ hload => ?_
      have hreads := (loadNode_reads n).ok hload
      cases existing with
      | some existing =>
          refine keep_stored (hreads.silent.writing hwriting) ?_
          rw [hreads.view_eq]
          exact (holdsNode_of_loadNode hload).2
      | none => exact refl w₃

theorem loadOrStore_keeps (n : Node) : Keeps R (loadOrStore n) := by
  refine (loadNode_keeps n).bind_of fun w found w₁ hload => ?_
  cases found with
  | none => exact storeNode_keeps n w₁
  | some stored =>
      refine finalState_bind (AllowsCaching.cacheNode ?_) fun _ w₂ _ => Keeps.pure _ w₂
      rw [((loadNode_reads n).ok hload).view_eq]
      exact (holdsNode_of_loadNode hload).1

theorem createUri_keeps (uri : String) : Keeps R (createUri uri) := by
  refine keeps_get.bind fun w => ?_
  split
  · exact .pure _
  · exact loadOrStore_keeps _

theorem createBlank_keeps (label : Option String) : Keeps R (createBlank label) := by
  have load_blank : ∀ label : String, Keeps R (createBlank (some label)) := by
    intro label
    refine Keeps.bind (Keeps.pure label) fun label => keeps_get.bind fun w => ?_
    split
    · exact .pure _
    · exact loadOrStore_keeps _
  cases label with
  | some label => exact load_blank label
  | none => exact (storing_of_apart freshLabel_apart).bind fun label => load_blank label

theorem createDatatype_keeps (uri : String) : Keeps R (createDatatype uri) := by
  refine (createUri_keeps uri).bind fun n => ?_
  split
  · exact .pure _
  · exact .throw _

theorem resolveValue_keeps (value : LiteralValue) (datatype : UriResource) :
    Keeps R (resolveValue value datatype) := by
  refine keeps_get.bind fun w => ?_
  split
  · exact .pure _
  · exact loadOrStore_keeps _

theorem createString_keeps (content : String) (language : Option String) :
    Keeps R (createString content language) :=
  (createDatatype_keeps _).bind fun _ => resolveValue_keeps _ _

theorem resolveLiteral_keeps (value : LiteralValue) (datatype : UriResource) :
    Keeps R (resolveLiteral value datatype) := by
  unfold resolveLiteral
  split
  · exact .ite (createString_keeps _ _) (resolveValue_keeps _ _)
  · exact resolveValue_keeps _ _

theorem createLiteral_keeps (value : LiteralValue) : Keeps R (createLiteral value) := by
  unfold createLiteral
  split
  · exact createString_keeps _ _
  · exact (createDatatype_keeps _).bind fun _ => resolveLiteral_keeps _ _

theorem createTyped_keeps (content datatype : String) :
    Keeps R (createTyped content datatype) := by
  unfold createTyped
  split
  · exact (createDatatype_keeps _).bind fun _ => resolveLiteral_keeps _ _
  · exact createString_keeps _ _

theorem convert_keeps (n : Node) : Keeps R (convert n) := by
  unfold convert
  refine .ite (.pure _) ?_
  split
  · exact createUri_keeps _
  · exact createBlank_keeps _
  · exact (createDatatype_keeps _).bind fun _ => resolveLiteral_keeps _ _

theorem createStatement_keeps [AllowsSteps R] (subject predicate object : Node)
    (context : Option Node) :
    Keeps R (createStatement subject predicate object context) :=
  createStatement_keeps_of (fun n _ => convert_keeps n) createUri_keeps

end
end Action

/-! Calls -/

namespace Transaction

variable {R : Workspace → Workspace → Prop}

theorem store_keeps [AllowsAdding R] (t : Statement) : Keeps (WorkChanges R) (store t) := by
  refine (work_changes (Action.storeStatement_keeps t)).bind fun stored => ?_
  have account : Keeps (WorkChanges R) (modifyChanges (·.add stored.1)) := fun x => refl x.work
  dsimp only
  split
  · exact account.bind fun _ => .pure _
  · exact Keeps.bind (R := WorkChanges R) (.pure _) fun _ => .pure _

/-- Adding a statement keeps to what converting its nodes keeps to. -/
theorem addMade_keeps_of [AllowsAdding R]
    {subject predicate object : Node} {context : Option Node}
    (hconvert : ∀ n ∈ [subject, predicate, object] ++ context.toList, Keeps R (Action.convert n))
    (huri : ∀ uri, Keeps R (Action.createUri uri)) (mark : Statement → Statement) :
    Keeps (WorkChanges R) (addMade subject predicate object context mark) :=
  (work_changes (Action.createStatement_keeps_of hconvert huri)).bind fun _ => store_keeps _

section

variable [AllowsSteps R]

theorem removeOne_keeps (t : Statement) : Keeps (WorkChanges R) (removeOne t) := by
  refine (work_changes (Action.removeStatement_keeps t)).bind fun removed => ?_
  have account : Keeps (WorkChanges R) (modifyChanges (·.remove removed.1)) :=
    fun x => refl x.work
  dsimp only
  split
  · exact account.bind fun _ => .pure _
  · exact Keeps.bind (R := WorkChanges R) (.pure _) fun _ => .pure _

theorem setNamespace_keeps (label uri : String) :
    Keeps (WorkChanges R) (setNamespace label uri) := by
  refine perform_changes
    ((Action.keeps_of_apart (Action.loadNamespace_apart _ _)).bind fun found => ?_)
  cases found with
  | some ns =>
      refine .ite (.pure _) (Keeps.bind (R := R) ?_ fun _ => Action.rebindUri_keeps label uri)
      exact (AllowsSteps.deleteNamespace ns).bind fun _ => .pure _
  | none => exact Action.rebindUri_keeps label uri

theorem removeNamespace_keeps (label : String) :
    Keeps (WorkChanges R) (removeNamespace label) := by
  refine perform_changes
    ((Action.keeps_of_apart (Action.loadNamespace_apart _ _)).bind fun found => ?_)
  cases found with
  | some ns => exact AllowsSteps.deleteNamespace ns
  | none => exact .pure _

end

theorem addInferred_keeps [AllowsStoring R] [AllowsAdding R] (subject predicate object : Node)
    (context : Option Node) :
    Keeps (WorkChanges R) (addInferred subject predicate object context) :=
  fun _ => addInferred_leaves (work_changes (keeps_inferredContext Action.createUri_keeps))
    fun _ _ _ => addMade_keeps_of (fun n _ => Action.convert_keeps n) Action.createUri_keeps _ _

end Transaction

namespace Call

variable {R : Workspace → Workspace → Prop} {c : Call}

/-- Whether a call may have nodes to store. -/
def storesNodes : Call → Bool
  | .uri _ | .blank _ | .literal _ | .string _ _ | .typed _ _ => true
  | .statement _ _ _ _ | .add _ _ _ _ | .addInferred _ _ _ _ => true
  | _ => false

theorem keeps_aside [AllowsSteps R] (hends : c.ends = false) (hstores : c.storesNodes = false) :
    Keeps (WorkChanges R) c.run := by
  cases c with
  | remove s p o c =>
      refine keeps_whileOpen
        ((work_changes (Action.listStatements_keeps _ _ _ _ _)).bind fun found => ?_)
      exact (Keeps.mapM fun t _ => removeOne_keeps t).bind fun _ => .pure _
  | list s p o c inferred => exact perform_changes (Action.listStatements_keeps _ _ _ _ _)
  | contains s p o c =>
      refine keeps_whileOpen ((work_changes (Action.attempt_keeps
        (Action.listStatements_keeps _ _ _ _ _))).bind fun found => ?_)
      cases found with
      | ok found => exact .pure _
      | error e => exact .ite (.pure _) (.throw _)
  | size context => exact perform_changes (Action.countStatements_keeps _)
  | contexts => exact perform_changes Action.listContexts_keeps
  | query q => exact perform_changes (Action.keeps_get.bind fun _ => Action.evaluate_keeps _ _)
  | fetch count results => exact perform_changes (Action.fetch_keeps count results)
  | namespaceByLabel label =>
      exact perform_changes (Action.keeps_of_apart (Action.loadNamespace_apart _ _))
  | namespaceByUri uri =>
      exact perform_changes (Action.keeps_of_apart (Action.loadNamespace_apart _ _))
  | setNamespace label uri => exact setNamespace_keeps label uri
  | removeNamespace label => exact removeNamespace_keeps label
  | namespaces => exact perform_changes (Action.keeps_of_apart Action.listNamespaces_apart)
  | commit | rollback | drop => cases hends
  | _ => cases hstores

/-- Whether a call may add a statement. -/
def adds : Call → Bool
  | .add _ _ _ _ | .addInferred _ _ _ _ => true
  | _ => false

theorem keeps_steps [AllowsStoring R] [AllowsSteps R] (hends : c.ends = false)
    (hadds : c.adds = false) :
    Keeps (WorkChanges R) c.run := by
  cases hstores : c.storesNodes with
  | false => exact keeps_aside hends hstores
  | true =>
      cases c with
      | uri uri => exact perform_changes (Action.createUri_keeps uri)
      | blank label => exact perform_changes (Action.createBlank_keeps label)
      | literal value => exact perform_changes (Action.createLiteral_keeps value)
      | string content language =>
          exact perform_changes (Action.createString_keeps content language)
      | typed content datatype =>
          exact perform_changes (Action.createTyped_keeps content datatype)
      | statement s p o c => exact perform_changes (Action.createStatement_keeps s p o c)
      | add | addInferred => cases hadds
      | _ => cases hstores

theorem keeps [AllowsStoring R] [AllowsAdding R] (hends : c.ends = false) :
    Keeps (WorkChanges R) c.run := by
  cases hadds : c.adds with
  | false => exact keeps_steps hends hadds
  | true =>
      cases c with
      | add s p o c =>
          exact keeps_whileOpen (addMade_keeps_of (fun n _ => Action.convert_keeps n)
            Action.createUri_keeps fun t => t)
      | addInferred s p o c => exact addInferred_keeps s p o c
      | _ => cases hadds

end Call
end QuadStore
