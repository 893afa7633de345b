import QuadStore.Connection.Values
import QuadStore.Proofs.RegistryIndex
import QuadStore.Proofs.StoredIds

/-!
Operations of a connection that write. None of them touches the committed tables: the
first write takes the lock, if it is free, and what is written stays with the
connection until it ends writing.
-/

namespace QuadStore

/-- Whether a store goes on making up labels where another one has been. -/
structure Store.Labelling (s s' : Store) : Prop where
  start : s'.labelStart = s.labelStart
  count : s.labelCount ≤ s'.labelCount

instance : IsPreorder Store Store.Labelling where
  refl _ := ⟨rfl, le_refl _⟩
  trans _ _ _ h h' := ⟨h'.start.trans h.start, le_trans h.count h'.count⟩

/-- What every operation short of a commit or a rollback leaves of a workspace. -/
structure Works (w w' : Workspace) : Prop where
  committed : w'.database.committed = w.database.committed
  transaction : w'.conn.transaction = w.conn.transaction
  config : w'.store.config = w.store.config
  events : w'.store.events = w.store.events
  labelling : w.store.Labelling w'.store
  transactionCounter : w'.store.counters.transactions = w.store.counters.transactions
  statementCounter : w.store.counters.statements ≤ w'.store.counters.statements
  lock : w'.conn.writing = w.conn.writing ∧ w'.database.locked = w.database.locked ∨
    w.conn.writing = false ∧ w.database.locked = false ∧
      w'.conn.writing = true ∧ w'.database.locked = true
  nodes : ∀ r ∈ w.view.nodes, r ∈ w'.view.nodes
  evolves : w.view.Evolves w'.view
  sound : 0 ≤ w.store.counters.statements → w.view.Sound → w'.view.Sound
  coherent : w.Coherent → w'.Coherent
  binds : Binds w w'
  edits : w.store.registry.Edits w'.store.registry

/-- Whether the tables of a connection are as a store writes them, come from the committed ones,
and are in line with the caches. -/
structure Workspace.Good (w : Workspace) : Prop where
  counter : 0 ≤ w.store.counters.statements
  sound : w.view.Sound
  nodes : ∀ r ∈ w.database.committed.nodes, r ∈ w.view.nodes
  evolves : w.database.committed.Evolves w.view
  coherent : w.Coherent

/-- What operations leave that write no statements. -/
structure Quiet (w w' : Workspace) : Prop extends Works w w' where
  statements : w'.view.statements = w.view.statements

/-- What operations leave that have to do with nodes and namespaces only. -/
structure Silent (w w' : Workspace) : Prop extends Quiet w w' where
  registry : w'.store.registry = w.store.registry
  registryFile : w'.registryFile = w.registryFile
  statementCounter_eq : w'.store.counters.statements = w.store.counters.statements

namespace Works

instance : IsPreorder Workspace Works where
  refl w := ⟨rfl, rfl, rfl, rfl, ⟨rfl, le_refl _⟩, rfl, le_refl _, .inl ⟨rfl, rfl⟩,
    fun _ h => h, refl _, fun _ h => h, id, refl w, refl _⟩
  trans w w' w'' h h' := by
    refine ⟨h'.committed.trans h.committed, h'.transaction.trans h.transaction,
      h'.config.trans h.config, h'.events.trans h.events,
        IsTrans.trans _ _ _ h.labelling h'.labelling,
      h'.transactionCounter.trans h.transactionCounter,
      le_trans h.statementCounter h'.statementCounter, ?_, fun r hr => h'.nodes r (h.nodes r hr),
      IsTrans.trans _ _ _ h.evolves h'.evolves, fun hcounter hsound => ?_,
      fun hw => h'.coherent (h.coherent hw), IsTrans.trans _ _ _ h.binds h'.binds,
      IsTrans.trans _ _ _ h.edits h'.edits⟩
    · rcases h.lock with ⟨hwriting, hlocked⟩ | ⟨hwriting, hlocked, hwriting', hlocked'⟩
      · rw [← hwriting, ← hlocked]
        exact h'.lock
      · right
        rcases h'.lock with ⟨hsame, hsame'⟩ | ⟨hfree, -⟩
        · exact ⟨hwriting, hlocked, hsame.trans hwriting', hsame'.trans hlocked'⟩
        · rw [hwriting'] at hfree
          cases hfree
    · exact h'.sound (le_trans hcounter h.statementCounter) (h.sound hcounter hsound)

variable {w w' : Workspace}

theorem writing (h : Works w w') (hw : w.conn.writing = true) : w'.conn.writing = true := by
  rcases h.lock with ⟨hwriting, -⟩ | ⟨hwriting, -⟩
  · rw [hwriting, hw]
  · rw [hw] at hwriting
    cases hwriting

theorem good (h : Works w w') (hw : w.Good) : w'.Good where
  counter := le_trans hw.counter h.statementCounter
  sound := h.sound hw.counter hw.sound
  nodes r hr := h.nodes r (hw.nodes r (h.committed ▸ hr))
  evolves := h.committed ▸ IsTrans.trans _ _ _ hw.evolves h.evolves
  coherent := h.coherent hw.coherent

end Works

instance : IsPreorder Workspace Quiet where
  refl w := ⟨refl w, rfl⟩
  trans w w' w'' h h' :=
    ⟨IsTrans.trans w w' w'' h.toWorks h'.toWorks, h'.statements.trans h.statements⟩

instance : IsPreorder Workspace Silent where
  refl w := ⟨refl w, rfl, rfl, rfl⟩
  trans w w' w'' h h' :=
    ⟨IsTrans.trans w w' w'' h.toQuiet h'.toQuiet, h'.registry.trans h.registry,
      h'.registryFile.trans h.registryFile, h'.statementCounter_eq.trans h.statementCounter_eq⟩

theorem Reads.silent {w w' : Workspace} (h : Reads w w') : Silent w w' := by
  have hcoherent := h.coherent
  have hbinds := h.binds
  obtain ⟨caches, nodes, statements, rfl⟩ := h.caching
  exact ⟨⟨⟨rfl, rfl, rfl, rfl, ⟨rfl, le_refl _⟩, rfl, le_refl _, .inl ⟨rfl, rfl⟩,
    fun _ h => h, refl _, fun _ h => h, hcoherent, hbinds, .refl⟩, rfl⟩, rfl, rfl, rfl⟩

/-- What a connection that holds the lock leaves of a workspace. -/
def WhileWriting (R : Workspace → Workspace → Prop) (w w' : Workspace) : Prop :=
  w.conn.writing = true → R w w'

instance : IsPreorder Workspace (WhileWriting Silent) where
  refl w _ := refl w
  trans w w' w'' h h' hw := IsTrans.trans w w' w'' (h hw) (h' ((h hw).writing hw))

variable {α : Type}

theorem Keeps.silent {a : Action α} (h : Keeps Reads a) : Keeps Silent a :=
  h.mono fun _ _ => Reads.silent

theorem Keeps.quiet {a : Action α} (h : Keeps Silent a) : Keeps Quiet a :=
  h.mono fun _ _ hw => hw.toQuiet

theorem Keeps.works {a : Action α} (h : Keeps Quiet a) : Keeps Works a :=
  h.mono fun _ _ hw => hw.toWorks

theorem Keeps.whileWriting {R : Workspace → Workspace → Prop} {a : Action α} (h : Keeps R a) :
    Keeps (WhileWriting R) a :=
  h.mono fun _ _ hw _ => hw

namespace Action

variable {w w' : Workspace}

/-- Taking the lock changes nothing that the connection sees. -/
theorem beginWrite_eq_ok {u : Unit} (h : beginWrite w = .ok u w') :
    w'.conn.writing = true ∧ w'.view = w.view := by
  unfold beginWrite at h
  obtain ⟨_, w₁, hget, h⟩ := bind_eq_ok_iff.mp h
  obtain ⟨rfl, rfl⟩ := get_eq_ok_iff.mp hget
  dsimp only at h
  split at h
  · rename_i hidle
    split at h
    · cases h
    · cases h
      exact ⟨rfl, (Workspace.view_eq_committed (by simpa using hidle)).symm⟩
  · rename_i hwriting
    obtain ⟨-, rfl⟩ := pure_eq_ok_iff.mp h
    exact ⟨by simpa using hwriting, rfl⟩

theorem beginWrite_of_free (hfree : w.database.locked = false ∨ w.conn.writing = true) :
    ∃ w', beginWrite w = .ok () w' := by
  unfold beginWrite
  rw [bind_of_ok (a := (get : Action Workspace)) (s := w) rfl]
  dsimp only
  split
  · rename_i hidle
    rw [hfree.resolve_right (by simpa using hidle)]
    exact ⟨_, rfl⟩
  · exact ⟨_, rfl⟩

theorem store_of_beginWrite {u : Unit} (h : beginWrite w = .ok u w') : w'.store = w.store := by
  unfold beginWrite at h
  obtain ⟨_, w₁, hget, h⟩ := bind_eq_ok_iff.mp h
  obtain ⟨rfl, rfl⟩ := get_eq_ok_iff.mp hget
  dsimp only at h
  split at h
  · split at h <;> cases h
    rfl
  · obtain ⟨-, rfl⟩ := pure_eq_ok_iff.mp h
    rfl

theorem beginWrite_silent : Keeps Silent beginWrite := by
  intro w
  unfold beginWrite
  rw [bind_of_ok (a := (get : Action Workspace)) (s := w) rfl]
  dsimp only
  split
  · rename_i hidle
    split
    · exact refl w
    · rename_i hfree
      have hview : w.view = w.database.committed :=
        Workspace.view_eq_committed (by simpa using hidle)
      have hidle' : w.conn.writing = false := by simpa using hidle
      refine ⟨⟨⟨rfl, rfl, rfl, rfl, ⟨rfl, le_refl _⟩, rfl, le_refl _,
        .inr ⟨hidle', ?_, rfl, rfl⟩, ?_, ?_, ?_,
        fun h => ⟨h.caches, ?_, ?_, fun h => ?_, ?_⟩,
          .of_same rfl ?_ rfl ⟨rfl, rfl⟩ rfl rfl ?_, .refl⟩,
        ?_⟩, rfl, rfl, rfl⟩
      · simpa using hfree
      · rw [hview]
        exact fun _ h => h
      · rw [hview]
        exact refl _
      · rw [hview]
        exact fun _ h => h
      · exact hview ▸ h.freshNodes
      · exact hview ▸ h.freshStatements
      · cases h
      · exact hview ▸ h.touched
      · rw [hview]
        rfl
      · rintro ⟨⟩
      · rw [hview]
        rfl
  · exact refl w

theorem nextId_quiet (s : Sequence) (hs : s ≠ .transactions) : Keeps Quiet (nextId s) := by
  intro w
  have hcounter : w.store.counters.statements ≤ (w.store.counters.next s).statements := by
    cases s <;> simp only [Counters.next, Counters.set, Counters.current] <;> omega
  have hnamespaces : w.store.counters.namespaces ≤ (w.store.counters.next s).namespaces := by
    cases s <;> simp only [Counters.next, Counters.set, Counters.current] <;> omega
  refine ⟨⟨rfl, rfl, rfl, rfl, ⟨rfl, le_refl _⟩, ?_, hcounter, .inl ⟨rfl, rfl⟩,
    fun _ h => h, refl _, fun _ h => h,
    fun h => ⟨h.caches, h.freshNodes, h.freshStatements, h.idle, h.touched⟩,
    ⟨hnamespaces, fun _ hr => .inl hr, fun h => h, fun h => { h with
      committedIds := fun r hr => le_trans (h.committedIds r hr) hnamespaces
      viewIds := fun r hr => le_trans (h.viewIds r hr) hnamespaces }, fun _ h => h⟩, .refl⟩, rfl⟩
  cases s
  · rfl
  · rfl
  · rfl
  · exact absurd rfl hs

theorem nextId_silent (s : Sequence) (hs : s ≠ .transactions) (hs' : s ≠ .statements) :
    Keeps Silent (nextId s) := by
  intro w
  refine ⟨nextId_quiet s hs w, rfl, rfl, ?_⟩
  cases s
  · rfl
  · exact absurd rfl hs'
  · rfl
  · rfl

theorem setTables_silent {t : Tables} (hw : w.conn.writing = true)
    (hnodes : ∀ r ∈ w.view.nodes, r ∈ t.nodes) (hstatements : t.statements = w.view.statements)
    (hnamespaces : t.namespaces = w.view.namespaces) (hsound : w.view.Sound → t.Sound) :
    Silent w (finalState (setTables t w)) := by
  refine ⟨⟨⟨rfl, rfl, rfl, rfl, ⟨rfl, le_refl _⟩, rfl, le_refl _, .inl ⟨hw.symm, rfl⟩,
    hnodes, .of_eq hstatements, fun _ => hsound, fun h => ⟨h.caches, ?_, ?_, fun h => ?_, ?_⟩,
    .of_same rfl hnamespaces rfl ⟨rfl, rfl⟩ rfl rfl ?_, .refl⟩, hstatements⟩, rfl, rfl, rfl⟩
  · intro n hn
    obtain ⟨r, hr, hholds⟩ := h.freshNodes n hn
    exact ⟨r, hnodes r hr, hholds⟩
  · intro s hs
    obtain ⟨r, hr, hholds⟩ := h.freshStatements s hs
    exact ⟨r, hstatements ▸ hr, hholds⟩
  · cases h
  · intro r hr r' hr'
    exact h.touched r hr r' (hstatements ▸ hr')
  · rintro ⟨⟩

theorem keepNode_silent {n : Node} (hw : w.conn.writing = true) (hn : w.view.HoldsNode n) :
    Silent w (finalState
      (modifyConn (fun c => { c with freshNodes := c.freshNodes ++ [n] }) w)) := by
  refine ⟨⟨⟨rfl, rfl, rfl, rfl, ⟨rfl, le_refl _⟩, rfl, le_refl _, .inl ⟨rfl, rfl⟩,
    fun _ h => h, refl _, fun _ h => h,
    fun h => ⟨h.caches, ?_, h.freshStatements, fun hidle => ?_, h.touched⟩,
    .of_same rfl rfl rfl ⟨rfl, rfl⟩ rfl rfl id, .refl⟩, rfl⟩, rfl, rfl, rfl⟩
  · intro m hm
    rcases List.mem_append.mp hm with hm | hm
    · exact h.freshNodes m hm
    · rwa [List.mem_singleton.mp hm]
  · cases hw.symm.trans hidle

theorem holds_ofNode (id : Int) (n : Node) : (NodeRow.ofNode id n).Holds (n.withId id) := by
  obtain ⟨id', term⟩ := n
  cases term with
  | uri uri => exact ⟨rfl, rfl, rfl⟩
  | blank label => exact ⟨rfl, rfl, rfl⟩
  | literal l =>
      obtain ⟨value, datatype⟩ := l
      cases value <;> exact ⟨rfl, rfl⟩

theorem storeNode_silent (n : Node) : Keeps Silent (storeNode n) := by
  unfold storeNode
  refine .ite (.pure _) ?_
  refine Keeps.bind ?_ fun _ => ?_
  · unfold checkDatatype
    split
    · exact .ite (.throw _) (.pure _)
    · exact .pure _
  refine beginWrite_silent.bind_of fun w _ w₁ hbegin => ?_
  refine Keeps.bind (R := WhileWriting Silent) ?_ (fun id => ?_) w₁ (beginWrite_eq_ok hbegin).1
  · exact (nextId_silent .nodes (by simp) (by simp)).whileWriting
  intro w hwriting
  have keep_stored : ∀ {stored : Node} {w : Workspace}, w.conn.writing = true →
      w.view.HoldsNode stored → Silent w (finalState ((do
        let stored ← (pure stored : Action Node)
        modifyConn fun c => { c with freshNodes := c.freshNodes ++ [stored] }
        pure stored) w)) := by
    intro stored w hwriting hholds
    rw [bind_of_ok (a := (pure stored : Action Node)) (s := w) rfl]
    exact finalState_bind (keepNode_silent hwriting hholds) fun _ w₁ _ => Keeps.pure _ w₁
  refine finalState_bind (keeps_view _ w) fun tables w₁ hview => ?_
  obtain ⟨hinsert, rfl⟩ := view_eq_ok_iff.mp hview
  cases tables with
  | some tables =>
      obtain ⟨htables, -⟩ := Tables.insertNode?_eq_some hinsert
      have hnodes : tables.nodes = w.view.nodes ++ [.ofNode id n] := by rw [htables]
      refine finalState_bind (a := setTables tables) (setTables_silent hwriting ?_ ?_ ?_ ?_) ?_
      · intro r hr
        rw [hnodes]
        exact List.mem_append_left _ hr
      · rw [htables]
      · rw [htables]
      · exact fun hsound => hsound.insertNode hinsert
      · rintro _ w₁ hset
        cases hset
        refine keep_stored rfl ⟨.ofNode id n, ?_, holds_ofNode id n⟩
        change NodeRow.ofNode id n ∈ tables.nodes
        simp [hnodes]
  | none =>
      refine finalState_bind ((loadNode_reads n).silent w) fun existing w₁ hload => ?_
      have hsilent := (loadNode_reads n).ok hload
      cases existing with
      | some existing =>
          refine keep_stored (hsilent.silent.writing hwriting) ?_
          rw [hsilent.view_eq]
          exact (holdsNode_of_loadNode hload).2
      | none => exact refl w₁

theorem loadOrStore_silent (n : Node) : Keeps Silent (loadOrStore n) := by
  refine (loadNode_reads n).silent.bind_of fun w found w₁ hload => ?_
  cases found with
  | none => exact storeNode_silent n w₁
  | some stored =>
      refine finalState_bind (cacheNode_reads fun _ => ?_).silent fun _ w₂ _ => Keeps.pure _ w₂
      rw [((loadNode_reads n).ok hload).view_eq]
      exact (holdsNode_of_loadNode hload).1

theorem createUri_silent (uri : String) : Keeps Silent (createUri uri) := by
  refine keeps_get.bind fun w => ?_
  split
  · exact .pure _
  · exact loadOrStore_silent _

theorem freshLabel_silent : Keeps Silent freshLabel := by
  refine keeps_get.bind fun w => ?_
  refine Keeps.bind (fun w => ?_) fun _ => .pure _
  exact ⟨⟨⟨rfl, rfl, rfl, rfl, ⟨rfl, Nat.le_succ _⟩, rfl, le_refl _,
    .inl ⟨rfl, rfl⟩, fun _ h => h, refl _,
    fun _ h => h, fun h => ⟨h.caches, h.freshNodes, h.freshStatements, h.idle, h.touched⟩,
    .of_same rfl rfl rfl ⟨rfl, rfl⟩ rfl rfl id, .refl⟩, rfl⟩, rfl, rfl, rfl⟩

theorem createBlank_silent (label : Option String) : Keeps Silent (createBlank label) := by
  have load_blank : ∀ label : String, Keeps Silent (createBlank (some label)) := by
    intro label
    refine Keeps.bind (Keeps.pure label) fun label => keeps_get.bind fun w => ?_
    split
    · exact .pure _
    · exact loadOrStore_silent _
  cases label with
  | some label => exact load_blank label
  | none =>
      exact freshLabel_silent.bind fun label => load_blank label

theorem createDatatype_silent (uri : String) : Keeps Silent (createDatatype uri) := by
  refine (createUri_silent uri).bind fun n => ?_
  split
  · exact .pure _
  · exact .throw _

theorem resolveValue_silent (value : LiteralValue) (datatype : UriResource) :
    Keeps Silent (resolveValue value datatype) := by
  refine keeps_get.bind fun w => ?_
  split
  · exact .pure _
  · exact loadOrStore_silent _

theorem createString_silent (content : String) (language : Option String) :
    Keeps Silent (createString content language) :=
  (createDatatype_silent _).bind fun _ => resolveValue_silent _ _

theorem resolveLiteral_silent (value : LiteralValue) (datatype : UriResource) :
    Keeps Silent (resolveLiteral value datatype) := by
  unfold resolveLiteral
  split
  · exact .ite (createString_silent _ _) (resolveValue_silent _ _)
  · exact resolveValue_silent _ _

theorem createLiteral_silent (value : LiteralValue) : Keeps Silent (createLiteral value) := by
  unfold createLiteral
  split
  · exact createString_silent _ _
  · exact (createDatatype_silent _).bind fun _ => resolveLiteral_silent _ _

theorem createTyped_silent (content datatype : String) :
    Keeps Silent (createTyped content datatype) := by
  unfold createTyped
  split
  · exact (createDatatype_silent _).bind fun _ => resolveLiteral_silent _ _
  · exact createString_silent _ _

theorem convert_silent (n : Node) : Keeps Silent (convert n) := by
  unfold convert
  refine .ite (.pure _) ?_
  split
  · exact createUri_silent _
  · exact createBlank_silent _
  · exact (createDatatype_silent _).bind fun _ => resolveLiteral_silent _ _

/-! Adding and removing bindings -/

theorem silent_of_binds (hw : w.conn.writing = true) (counter : Int)
    {namespaces : List NamespaceRow} {fresh removed : List Namespace} {caches : Caches}
    (hcaches : ∀ t, w.store.caches.Coherent t → caches.Coherent t)
    (hw' : w' = { w with
      store := { w.store with caches, counters := w.store.counters.set counter .namespaces }
      conn := { w.conn with
        pending := some { w.view with namespaces }
        freshNamespaces := fresh
        removedNamespaces := removed } }) (hbinds : Binds w w') : Silent w w' := by
  subst hw'
  exact ⟨⟨⟨rfl, rfl, rfl, rfl, ⟨rfl, le_refl _⟩, rfl, le_refl _,
    .inl ⟨hw.symm, rfl⟩, fun _ h => h, .of_eq rfl,
    fun _ hsound => hsound.of_eq rfl rfl,
    fun h => ⟨hcaches _ h.caches, h.freshNodes, h.freshStatements, (by rintro ⟨⟩), h.touched⟩,
    hbinds, .refl⟩, rfl⟩, rfl, rfl, rfl⟩

/-- The workspace after a connection has added a binding. -/
def withNamespace (w : Workspace) (ns : Namespace) : Workspace :=
  let id := w.store.counters.namespaces + 1
  { w with
    store := { w.store with counters := w.store.counters.set id .namespaces }
    conn := { w.conn with
      pending := some { w.view with
        namespaces := w.view.namespaces ++ [⟨id, ns.label, ns.uri, .clock⟩] }
      freshNamespaces := w.conn.freshNamespaces ++ [{ ns with id }] } }

theorem withNamespace_silent (hw : w.conn.writing = true) {ns : Namespace} {t : Tables}
    (hinsert : w.view.insertNamespace
      ⟨w.store.counters.namespaces + 1, ns.label, ns.uri, .clock⟩ = .ok t) :
    Silent w (withNamespace w ns) := by
  have hview : (withNamespace w ns).view = t := (Tables.insertNamespace_eq_ok hinsert).1.symm
  refine silent_of_binds hw _ (fun _ h => h) rfl ⟨Int.le_add_one (le_refl _), ?_, fun h => ?_,
    fun h => ?_, fun _ h => h.mono fun other ⟨r, hr, hholds⟩ =>
      ⟨r, List.mem_append_left _ hr, hholds⟩⟩
  · intro r hr
    rcases List.mem_append.mp hr with hr | hr
    · exact .inl hr
    · rw [List.mem_singleton.mp hr]
      exact .inr (Int.lt_add_one_of_le (le_refl _))
  · rw [hview]
    exact h.insert hinsert rfl
  refine ⟨h.caches, h.committed, ?_, fun r hr => Int.le_add_one (h.committedIds r hr), ?_, ?_, ?_,
    (by rintro ⟨⟩)⟩
  · rw [hview]
    exact h.view.insert hinsert
  · intro r hr
    rcases List.mem_append.mp hr with hr | hr
    · exact Int.le_add_one (h.viewIds r hr)
    · rw [List.mem_singleton.mp hr]
      exact le_refl _
  · intro other hother
    rcases List.mem_append.mp hother with hother | hother
    · obtain ⟨r, hr, hholds⟩ := h.fresh other hother
      exact ⟨r, List.mem_append_left _ hr, hholds⟩
    · rw [List.mem_singleton.mp hother]
      exact ⟨_, List.mem_append_right _ (List.mem_singleton_self _), rfl, rfl, rfl⟩
  · exact fun r hr hgone => h.removed r hr fun hmem => hgone (List.mem_append_left _ hmem)

theorem storeNamespace_silent (ns : Namespace) : Keeps Silent (storeNamespace ns) := by
  refine beginWrite_silent.bind_of fun _ _ w hbegin => ?_
  obtain ⟨hwriting, -⟩ := beginWrite_eq_ok hbegin
  let counted := finalState (nextId .namespaces w)
  have hcounted : Silent w counted := nextId_silent .namespaces (by simp) (by simp) w
  have hcount : nextId .namespaces w = .ok (w.store.counters.namespaces + 1) counted := rfl
  rw [bind_of_ok hcount, bind_of_ok (a := (get : Action Workspace)) (s := counted) rfl]
  change Silent w (finalState ((ofData (w.view.insertNamespace _) >>= _) counted))
  cases hinsert : w.view.insertNamespace
      ⟨w.store.counters.namespaces + 1, ns.label, ns.uri, .clock⟩ with
  | error fault => exact hcounted
  | ok t =>
      have hstored := withNamespace_silent hwriting hinsert
      obtain ⟨rfl, -⟩ := Tables.insertNamespace_eq_ok hinsert
      exact hstored

/-- The workspace after a connection has removed the binding of a prefix. -/
def withoutNamespace (w : Workspace) (ns : Namespace) : Workspace :=
  { w with
    store := { w.store with caches := w.store.caches.eraseNamespace ns }
    conn := { w.conn with
      pending := some (w.view.withoutBinding ns.label)
      freshNamespaces := w.conn.freshNamespaces.filter fun other => other.label ≠ ns.label
      removedNamespaces := w.conn.removedNamespaces ++ [ns] } }

theorem withoutNamespace_silent (hw : w.conn.writing = true) {ns : Namespace}
    (hns : w.KnowsNamespace ns) : Silent w (withoutNamespace w ns) := by
  refine silent_of_binds hw w.store.counters.namespaces ?_ rfl
    ⟨le_refl _, ?_, fun h => h.without ns.label, fun h => ?_,
      fun hone h => h.without hone (hns.seen h)⟩
  · exact fun t h => ⟨h.node, h.uri, h.blank, h.literal, h.statement⟩
  · exact fun r hr => .inl (Tables.mem_withoutBinding_iff.mp hr).1
  refine ⟨h.caches.eraseNamespace ns, h.committed, h.view.without _, h.committedIds,
    fun r hr => h.viewIds r (Tables.mem_withoutBinding_iff.mp hr).1, ?_, ?_, (by rintro ⟨⟩)⟩
  · intro other hother
    obtain ⟨hother, hne⟩ := List.mem_filter.mp hother
    obtain ⟨r, hr, hholds⟩ := h.fresh other hother
    refine ⟨r, Tables.mem_withoutBinding_iff.mpr ⟨hr, ?_⟩, hholds⟩
    rw [hholds.label]
    simpa using hne
  · intro r hr hgone
    by_cases hmem : r ∈ w.view.namespaces
    · have hlabel : r.label = ns.label := by
        by_contra hne
        exact hgone (Tables.mem_withoutBinding_iff.mpr ⟨hmem, hne⟩)
      have huri : ns.uri = r.uri := by
        rcases hns.held h.caches with ⟨r', hr', hholds⟩ | ⟨r', hr', hholds⟩
        · rw [h.committed r hr r' hr' (hlabel.trans hholds.label.symm), hholds.uri]
        · rw [h.view r hmem r' hr' (hlabel.trans hholds.label.symm), hholds.uri]
      exact ⟨ns, List.mem_append_right _ (List.mem_singleton_self _), hlabel.symm, huri⟩
    · obtain ⟨other, hother, hsame⟩ := h.removed r hr hmem
      exact ⟨other, List.mem_append_left _ hother, hsame⟩

theorem deleteNamespace_silent {ns : Namespace} (hns : w.KnowsNamespace ns) :
    Silent w (finalState (deleteNamespace ns w)) := by
  refine finalState_bind (beginWrite_silent w) fun _ w₁ hbegin => ?_
  obtain ⟨hwriting, hview⟩ := beginWrite_eq_ok hbegin
  have hdeleted : Silent w₁ (withoutNamespace w₁ ns) := by
    have hcommitted := (beginWrite_silent.ok hbegin).committed
    refine withoutNamespace_silent hwriting ⟨?_, ?_⟩ <;> rw [hview, store_of_beginWrite hbegin]
    · rw [hcommitted]
      exact hns.held
    · exact hns.seen
  have hkept : (w₁.view.namespaces.partition fun row => row.label == ns.label).2 =
      (w₁.view.withoutBinding ns.label).namespaces := by
    rw [List.partition_eq_filter_filter]
    rfl
  rw [bind_of_ok (a := view id) (s := w₁) rfl]
  dsimp only [id]
  rw [hkept]
  exact hdeleted

/-! Registering ids -/

theorem modifyRegistry_quiet {f : Registry → RegistryFile → Registry × RegistryFile}
    (hf : ∀ r rows, Registry.Edits r (f r rows).1) : Keeps Quiet (modifyRegistry f) :=
  fun _ =>
    ⟨⟨rfl, rfl, rfl, rfl, ⟨rfl, le_refl _⟩, rfl, le_refl _, .inl ⟨rfl, rfl⟩,
      fun _ h => h, refl _, fun _ h => h,
      fun h => ⟨h.caches, h.freshNodes, h.freshStatements, h.idle, h.touched⟩,
      .of_same rfl rfl rfl ⟨rfl, rfl⟩ rfl rfl id, hf _ _⟩, rfl⟩

theorem registeredId_reads (key : StatementKey) : Keeps Reads (registeredId key) :=
  keeps_get.bind fun _ => .pure _

theorem registerId_quiet (key : StatementKey) (id : Int) : Keeps Quiet (registerId key id) :=
  keeps_get.bind fun w => modifyRegistry_quiet fun _ rows =>
    .register .refl rows key w.conn.transaction id

theorem unregister_quiet (key : StatementKey) : Keeps Quiet (unregister key) :=
  modifyRegistry_quiet fun _ rows => .delete .refl rows key

theorem identifyShared_quiet (t : Statement) : Keeps Quiet (identifyShared t) := by
  refine (registeredId_reads _).silent.quiet.bind fun registered => ?_
  split
  · exact (registerId_quiet _ _).bind fun _ => .pure _
  · refine (keeps_view _).bind fun live => ?_
    split
    · exact (loadStatement_reads _).silent.quiet.bind fun _ => .pure _
    · refine (nextId_quiet .statements (by simp)).bind fun id => ?_
      exact (registerId_quiet _ _).bind fun _ => .pure _

theorem createStatement_quiet (subject predicate object : Node) (context : Option Node) :
    Keeps Quiet (createStatement subject predicate object context) := by
  have identify_quiet : ∀ s p o c, Keeps Quiet (do
      identifyShared (← ofStatement (Statement.make s p o (some c))) : Action Statement) :=
    fun _ _ _ _ => (keeps_ofStatement _).bind fun _ => identifyShared_quiet _
  refine (keeps_ofStatement _).bind fun _ => ?_
  refine (convert_silent _).quiet.bind fun _ => ?_
  refine (convert_silent _).quiet.bind fun _ => ?_
  refine (convert_silent _).quiet.bind fun _ => ?_
  cases context with
  | some c => exact (convert_silent c).quiet.bind fun _ => identify_quiet _ _ _ _
  | none =>
      refine keeps_get.bind fun w => ?_
      exact (createUri_silent _).quiet.bind fun _ => identify_quiet _ _ _ _

end Action
end QuadStore
