import Mathlib.Order.BooleanAlgebra.Set
import QuadStore.Proofs.Account
import QuadStore.Proofs.Identification
import QuadStore.Proofs.Listing

namespace QuadStore.Transaction

variable {α β : Type} {s s' : Scope}

/-! How operations are made of work through the connection -/

theorem work_of_ok {a : Action α} {v : α} {w : Workspace} (h : a s.work = .ok v w) :
    work a s = .ok v { s with work := w } := by
  simp only [work, h]

theorem work_of_error {a : Action α} {e : StoreError} {w : Workspace}
    (h : a s.work = .error e w) :
    work a s = .error e { s with work := w } := by
  simp only [work, h]

theorem work_eq_ok_iff {a : Action α} {v : α} :
    work a s = .ok v s' ↔ ∃ w, a s.work = .ok v w ∧ s' = { s with work := w } := by
  cases h : a s.work with
  | ok u w =>
      rw [work_of_ok h]
      constructor
      · rintro ⟨⟩
        exact ⟨w, rfl, rfl⟩
      · rintro ⟨_, ⟨⟩, rfl⟩
        rfl
  | error e w =>
      rw [work_of_error h]
      constructor
      · rintro ⟨⟩
      · rintro ⟨_, ⟨⟩, -⟩

theorem whileOpen_of_open {op : Operation α} (h : s.closed = false) : whileOpen op s = op s := by
  unfold whileOpen
  rw [bind_of_ok (a := (get : Operation Scope)) (s := s) rfl]
  simp only [h]
  rfl

theorem whileOpen_of_closed {op : Operation α} (h : s.closed = true) :
    whileOpen op s = .error .closed s := by
  unfold whileOpen
  rw [bind_of_ok (a := (get : Operation Scope)) (s := s) rfl]
  simp only [h]
  rfl

theorem whileOpen_eq_ok_iff {op : Operation α} {v : α} :
    whileOpen op s = .ok v s' ↔ s.closed = false ∧ op s = .ok v s' := by
  cases h : s.closed with
  | false => simp [whileOpen_of_open h]
  | true => simp [whileOpen_of_closed h]

theorem keeps_whileOpen {R : Scope → Scope → Prop} [IsPreorder Scope R] {op : Operation α}
    (h : Keeps R op) : Keeps R (whileOpen op) := by
  intro s
  cases hclosed : s.closed with
  | false =>
      rw [whileOpen_of_open hclosed]
      exact h s
  | true =>
      rw [whileOpen_of_closed hclosed]
      exact refl s

/-- The workspace changes in some way and the rest of the transaction does not. -/
structure Under (R : Workspace → Workspace → Prop) (s s' : Scope) : Prop where
  work : R s.work s'.work
  changes : s'.changes = s.changes
  closed : s'.closed = s.closed

instance {R : Workspace → Workspace → Prop} [IsPreorder Workspace R] :
    IsPreorder Scope (Under R) where
  refl _ := ⟨refl _, rfl, rfl⟩
  trans _ _ _ h h' := ⟨IsTrans.trans _ _ _ h.work h'.work, h'.changes.trans h.changes,
    h'.closed.trans h.closed⟩

theorem Under.mono {R S : Workspace → Workspace → Prop} (h : Under R s s')
    (hRS : ∀ w w', R w w' → S w w') : Under S s s' :=
  ⟨hRS _ _ h.work, h.changes, h.closed⟩

theorem keeps_work {R : Workspace → Workspace → Prop} {a : Action α} (h : Keeps R a) :
    Keeps (Under R) (work a) := by
  intro s
  have hwork := h s.work
  cases ha : a s.work with
  | ok v w =>
      rw [work_of_ok ha]
      rw [ha] at hwork
      exact ⟨hwork, rfl, rfl⟩
  | error e w =>
      rw [work_of_error ha]
      rw [ha] at hwork
      exact ⟨hwork, rfl, rfl⟩

theorem keeps_perform {R : Workspace → Workspace → Prop} [IsPreorder Workspace R] {a : Action α}
    (h : Keeps R a) : Keeps (Under R) (perform a) :=
  keeps_whileOpen (keeps_work h)

/-! What operations do that touch no statements -/

theorem contains_silent (subject predicate object context : Option Node) :
    Keeps (Under Silent) (contains subject predicate object context) := by
  apply keeps_whileOpen
  refine Keeps.bind (keeps_work (Action.attempt_keeps
    (Action.listStatements_reads subject predicate object context true).silent)) fun found => ?_
  cases found with
  | ok found => exact .pure _
  | error e => exact .ite (.pure _) (.throw _)

theorem query_silent (q : PatternQuery) : Keeps (Under Silent) (query q) :=
  keeps_perform (Action.keeps_get.bind fun _ => (Action.evaluate_reads q _).silent)

theorem rebindUri_silent (label uri : String) :
    Keeps Silent (do
      match ← Action.loadNamespaceByUri uri with
      | some ns => discard (Action.deleteNamespace ns)
      | none => pure ()
      Action.storeNamespace (.make label uri) : Action Namespace) := by
  refine (Action.loadNamespaceByUri_reads uri).silent.bind_of fun _ found w hload => ?_
  cases found with
  | some ns =>
      refine finalState_bind (R := Silent) ?_ fun _ w₁ _ => Action.storeNamespace_silent _ w₁
      have hns := Action.knows_of_loadNamespaceByUri hload
      exact finalState_bind (Action.deleteNamespace_silent hns) fun _ w₁ _ => Keeps.pure _ w₁
  | none => exact Action.storeNamespace_silent _ w

theorem setNamespace_silent (label uri : String) :
    Keeps (Under Silent) (setNamespace label uri) := by
  apply keeps_perform
  refine (Action.loadNamespaceByLabel_reads label).silent.bind_of fun _ found w hload => ?_
  cases found with
  | some ns =>
      dsimp only
      split
      · exact Keeps.pure _ w
      · refine finalState_bind (R := Silent) ?_ fun _ w₁ _ => rebindUri_silent label uri w₁
        have hns := Action.knows_of_loadNamespaceByLabel hload
        exact finalState_bind (Action.deleteNamespace_silent hns) fun _ w₁ _ => Keeps.pure _ w₁
  | none => exact rebindUri_silent label uri w

theorem removeNamespace_silent (label : String) :
    Keeps (Under Silent) (removeNamespace label) := by
  apply keeps_perform
  refine (Action.loadNamespaceByLabel_reads label).silent.bind_of fun _ found w hload => ?_
  cases found with
  | some ns => exact Action.deleteNamespace_silent (Action.knows_of_loadNamespaceByLabel hload)
  | none => exact Keeps.pure _ w

/-! What operations do that touch statements -/

/-- Whether the tables of a transaction are in order and it has kept account of its changes. -/
structure Scope.Good (s : Scope) : Prop where
  work : s.work.Good
  account : s.changes.IsDifference s.work.database.committed s.work.view

/-- What operations leave that do not end a transaction. -/
structure Advances (s s' : Scope) : Prop where
  works : Works s.work s'.work
  closed : s'.closed = s.closed
  good : s.Good → s'.Good

instance : IsPreorder Scope Advances where
  refl _ := ⟨refl _, rfl, id⟩
  trans _ _ _ h h' := ⟨IsTrans.trans _ _ _ h.works h'.works, h'.closed.trans h.closed,
    fun hs => h'.good (h.good hs)⟩

theorem Under.advances (h : Under Quiet s s') : Advances s s' where
  works := h.work.toWorks
  closed := h.closed
  good hs := by
    refine ⟨h.work.toWorks.good hs.work, ?_⟩
    rw [h.changes, h.work.committed]
    exact hs.account.congr (Tables.liveIds_congr h.work.statements)

theorem Keeps.advances {op : Operation α} (h : Keeps (Under Silent) op) : Keeps Advances op :=
  h.mono fun _ _ hs => (hs.mono fun _ _ hw => hw.toQuiet).advances

theorem createStatement_advances (subject predicate object : Node) (context : Option Node) :
    Keeps Advances (work (Action.createStatement subject predicate object context)) :=
  (keeps_work (Action.createStatement_quiet subject predicate object context)).mono fun _ _ hs =>
    hs.advances

/-- How storing a statement ends for the transaction. -/
theorem store_eq_ok {t t' : Statement} (h : store t s = .ok t' s') :
    ∃ added, t'.key = t.key ∧ s'.work.conn.writing = true ∧
      Action.Stored s.work s'.work t t' added ∧
      Action.storeStatement t s.work = .ok (t', added) s'.work ∧ s'.closed = s.closed ∧
        s'.changes = if added then s.changes.add t' else s.changes := by
  obtain ⟨⟨stored, added⟩, s₁, hwork, h⟩ := bind_eq_ok_iff.mp h
  obtain ⟨w, hstore, rfl⟩ := work_eq_ok_iff.mp hwork
  obtain ⟨hkey, hwriting, hstored⟩ := Action.storeStatement_eq_ok hstore
  cases added <;>
  · cases h
    exact ⟨_, hkey, hwriting, hstored, hstore, rfl, rfl⟩

theorem store_failing (t : Statement) : KeepsFailing (Under Quiet) (store t) := by
  intro s e s' h
  cases hstore : Action.storeStatement t s.work with
  | error e' w =>
      rw [store, bind_of_error (work_of_error hstore)] at h
      cases h
      exact ⟨Action.storeStatement_failing t s.work e w hstore, rfl, rfl⟩
  | ok stored w =>
      obtain ⟨t', added⟩ := stored
      rw [store, bind_of_ok (work_of_ok hstore)] at h
      cases added <;> cases h

theorem store_advances (t : Statement) : Keeps Advances (store t) := by
  intro s
  cases hstore : store t s with
  | error e s' => exact (store_failing t s e s' hstore).advances
  | ok t' s' =>
      obtain ⟨added, -, -, hstored, hwork, hclosed, hchanges⟩ := store_eq_ok hstore
      have hworks := (Action.storeStatement_works t).ok hwork
      refine ⟨hworks, hclosed, fun hs => ⟨hworks.good hs.work, ?_⟩⟩
      rw [finalState_ok, hchanges, hworks.committed]
      cases hstored with
      | found hview hrow =>
          rw [hview]
          exact hs.account
      | added hview hnew hfresh hid =>
          refine hs.account.add ?_ ?_ ?_
          · intro hbefore
            exact hfresh (hs.work.evolves.mem_ids (Tables.mem_ids_of_mem_liveIds hbefore))
          · intro hafter
            exact hfresh (Tables.mem_ids_of_mem_liveIds hafter)
          · rw [hview, Tables.liveIds_withStatement rfl, StatementRow.id_ofStatement]

theorem add_advances (subject predicate object : Node) (context : Option Node) :
    Keeps Advances (add subject predicate object context) :=
  keeps_whileOpen ((createStatement_advances _ _ _ _).bind store_advances)

/-- The part of an addition that comes after its context is known. -/
def addMade (subject predicate object : Node) (context : Option Node)
    (mark : Statement → Statement) : Operation Statement := do
  store (mark (← work (Action.createStatement subject predicate object context)))

/-- Gets the node of the context for derived statements. -/
def inferredContext : Action Node := do
  Action.createUri (← get).store.config.inferredContext

theorem keeps_inferredContext {R : Workspace → Workspace → Prop} [IsPreorder Workspace R]
    (h : ∀ uri, Keeps R (Action.createUri uri)) : Keeps R inferredContext :=
  Action.keeps_get.bind fun _ => h _

/-- What the context of a derived statement is, and what is left when it is known. -/
inductive InferredIn (w : Workspace) : Option Node → Node → Workspace → Prop
  | given (c : Node) : InferredIn w (some c) c w
  | made {c : Node} {w' : Workspace} (h : inferredContext w = .ok c w') : InferredIn w none c w'

namespace InferredIn

variable {w w' : Workspace} {context : Option Node} {c : Node}

theorem silent (h : InferredIn w context c w') : Silent w w' := by
  cases h with
  | given => exact refl w
  | made h => exact (keeps_inferredContext Action.createUri_silent).ok h

/-- What holds of given nodes holds of all nodes of a derived statement, if it holds of the
context that is made for it. -/
theorem forall_mem (h : InferredIn w context c w') {P : Node → Prop} {nodes : List Node}
    (hnodes : ∀ n ∈ nodes ++ context.toList, P n)
    (hmade : ∀ uri, Action.createUri uri w = .ok c w' → P c) :
    ∀ n ∈ nodes ++ (some c).toList, P n := by
  cases h with
  | given => exact hnodes
  | made h =>
      rw [Option.toList_some, List.forall_mem_append, List.forall_mem_singleton]
      exact ⟨fun n hn => hnodes n (List.mem_append_left _ hn), hmade _ h⟩

end InferredIn

section

variable {subject predicate object : Node} {context : Option Node}

theorem addInferred_cases (hopen : s.closed = false) :
    (∃ e w, context = none ∧ inferredContext s.work = .error e w ∧
      addInferred subject predicate object context s = .error e { s with work := w }) ∨
    ∃ c w, InferredIn s.work context c w ∧
      addInferred subject predicate object context s =
        addMade subject predicate object (some c) (fun t => { t with inferred := true })
          { s with work := w } := by
  rw [addInferred, whileOpen_of_open hopen]
  cases context with
  | some c => exact .inr ⟨c, s.work, .given c, rfl⟩
  | none =>
      cases hmade : inferredContext s.work with
      | error e w => exact .inl ⟨e, w, rfl, rfl, bind_of_error (work_of_error hmade)⟩
      | ok c w => exact .inr ⟨c, w, .made hmade, bind_of_ok (work_of_ok hmade)⟩

theorem addInferred_leaves {R : Scope → Scope → Prop} [IsPreorder Scope R]
    (hcontext : Keeps R (work inferredContext))
    (hmade : ∀ c w, InferredIn s.work context c w →
      R { s with work := w } (finalState (addMade subject predicate object (some c)
        (fun t => { t with inferred := true }) { s with work := w }))) :
    R s (finalState (addInferred subject predicate object context s)) := by
  cases hclosed : s.closed with
  | true =>
      rw [addInferred, whileOpen_of_closed hclosed]
      exact refl s
  | false =>
      rcases addInferred_cases hclosed with ⟨e, w, -, hfails, hadd⟩ | ⟨c, w, hknown, hadd⟩
      · rw [hadd]
        exact hcontext.error (work_of_error hfails)
      · rw [hadd]
        refine IsTrans.trans s { s with work := w } _ ?_ (hmade c w hknown)
        cases hknown with
        | given => exact refl s
        | made h => exact hcontext.ok (work_of_ok h)

end

theorem addInferred_advances (subject predicate object : Node) (context : Option Node) :
    Keeps Advances (addInferred subject predicate object context) :=
  fun _ => addInferred_leaves
    (Keeps.advances (keeps_work (keeps_inferredContext Action.createUri_silent)))
    fun _ _ _ => ((createStatement_advances _ _ _ _).bind fun _ => store_advances _) _

/-- What has been done when a statement has its id: nodes have been stored, and then the
statement was identified. -/
def Requested (w w' : Workspace) (key : StatementKey) (id : Int) : Prop :=
  ∃ w₁, Silent w w₁ ∧ Action.Identified w₁ key id w'

theorem Requested.quiet {w w' : Workspace} {key : StatementKey} {id : Int}
    (h : Requested w w' key id) : Quiet w w' := by
  obtain ⟨w₁, hsilent, hidentified⟩ := h
  exact IsTrans.trans _ _ _ hsilent.toQuiet hidentified.quiet

/-- What a successful addition has done: it has requested the statement and stored it. -/
structure Adds (s s' : Scope) (t : Statement) : Prop where
  writing : s'.work.conn.writing = true
  stored : ∃ w t₁ added, Requested s.work w t₁.key t₁.id ∧ t.key = t₁.key ∧
    Action.Stored w s'.work t₁ t added ∧ Works w s'.work ∧ Action.SameRegistry w s'.work

/-- What a failed addition may have done: it has requested a statement without storing it. -/
def Fails (s s' : Scope) : Prop :=
  Under Silent s s' ∨ ∃ w key id, Requested s.work w key id ∧
    Under (fun _ w' => Quiet w w' ∧ Action.SameRegistry w w') s s'

theorem Adds.members {t : Statement} (h : Adds s s' t) :
    s'.work.view.members = insert t.key s.work.view.members := by
  obtain ⟨w, t₁, added, hrequested, hkey, hstored, -⟩ := h.stored
  have hsame := Tables.members_congr hrequested.quiet.statements
  cases hstored with
  | found hview hrow =>
      obtain ⟨r, hr, hlive, hrkey, -⟩ := hrow
      rw [hview, hsame, Set.insert_eq_of_mem]
      rw [← hsame, hkey]
      exact ⟨r, hr, hlive, hrkey⟩
  | added hview hnew hfresh hid =>
      rw [hview, Tables.members_withStatement rfl, StatementRow.key_ofStatement, hsame]

theorem Adds.works {t : Statement} (h : Adds s s' t) : Works s.work s'.work := by
  obtain ⟨w, t₁, added, hrequested, -, -, hworks, -⟩ := h.stored
  exact IsTrans.trans _ _ _ hrequested.quiet.toWorks hworks

theorem Fails.statements (h : Fails s s') : s'.work.view.statements = s.work.view.statements := by
  rcases h with hunder | ⟨w, key, id, hrequested, hunder⟩
  · exact hunder.work.statements
  · exact hunder.work.1.statements.trans hrequested.quiet.statements

theorem addMade_eq_ok {subject predicate object : Node} {context : Option Node}
    (mark : Statement → Statement) (hmark : ∀ t, (mark t).key = t.key ∧ (mark t).id = t.id)
    {t : Statement} (hs : s.work.Good)
    (h : addMade subject predicate object context mark s = .ok t s') :
    Adds s s' t ∧ s'.work.view.StoresSlots subject predicate object
      (context.getD (.uri s.work.store.config.defaultContext)) t.key := by
  obtain ⟨t₁, s₁, hwork, h⟩ := bind_eq_ok_iff.mp h
  obtain ⟨w₂, hcreate, rfl⟩ := work_eq_ok_iff.mp hwork
  obtain ⟨w₁, hsilent, hidentified, hslots⟩ := Action.createStatement_eq_ok hs hcreate
  obtain ⟨added, hkey, hwriting, hstored, hstore, -⟩ := store_eq_ok h
  rw [← (hmark t₁).1, ← (hmark t₁).2] at hidentified
  have hworks := (Action.storeStatement_works (mark t₁)).ok hstore
  have hlater : Works w₁ s'.work := IsTrans.trans _ _ _ hidentified.quiet.toWorks hworks
  refine ⟨⟨hwriting, w₂, mark t₁, added, ⟨w₁, hsilent, hidentified⟩, hkey, hstored, hworks,
    (Action.storeStatement_sameRegistry (mark t₁)).ok hstore⟩, ?_⟩
  have hgood := hlater.good (hsilent.good hs)
  rw [hkey, (hmark t₁).1]
  exact ⟨hslots.subject.mono hlater.nodes hgood.sound,
    hslots.predicate.mono hlater.nodes hgood.sound,
    hslots.object.mono hlater.nodes hgood.sound, hslots.context.mono hlater.nodes hgood.sound⟩

theorem addMade_error {subject predicate object : Node} {context : Option Node}
    (mark : Statement → Statement) {e : StoreError} (hs : s.work.Good)
    (h : addMade subject predicate object context mark s = .error e s') : Fails s s' := by
  cases hcreate : Action.createStatement subject predicate object context s.work with
  | error e' w =>
      rw [addMade, bind_of_error (work_of_error hcreate)] at h
      cases h
      exact .inl ⟨Action.createStatement_failing _ _ _ _ _ _ _ hcreate, rfl, rfl⟩
  | ok t w =>
      rw [addMade, bind_of_ok (work_of_ok hcreate)] at h
      obtain ⟨w₁, hsilent, hidentified, -⟩ := Action.createStatement_eq_ok hs hcreate
      cases hstore : Action.storeStatement (mark t) w with
      | ok stored w' =>
          obtain ⟨t', added⟩ := stored
          rw [store, bind_of_ok (work_of_ok hstore)] at h
          cases added <;> cases h
      | error e' w' =>
          rw [store, bind_of_error (work_of_error hstore)] at h
          cases h
          exact .inr ⟨w, t.key, t.id, ⟨w₁, hsilent, hidentified⟩,
            ⟨Action.storeStatement_failing _ _ _ _ hstore,
              (Action.storeStatement_sameRegistry _).error hstore⟩, rfl, rfl⟩

theorem add_eq_ok {subject predicate object : Node} {context : Option Node} {t : Statement}
    (hs : s.work.Good) (h : add subject predicate object context s = .ok t s') :
    Adds s s' t ∧ s'.work.view.StoresSlots subject predicate object
      (context.getD (.uri s.work.store.config.defaultContext)) t.key := by
  obtain ⟨-, h⟩ := whileOpen_eq_ok_iff.mp h
  exact addMade_eq_ok (fun t => t) (fun _ => ⟨rfl, rfl⟩) hs h

theorem add_error {subject predicate object : Node} {context : Option Node} {e : StoreError}
    (hs : s.work.Good) (h : add subject predicate object context s = .error e s') :
    Fails s s' := by
  cases hclosed : s.closed with
  | true =>
      rw [add, whileOpen_of_closed hclosed] at h
      cases h
      exact .inl (refl s)
  | false =>
      rw [add, whileOpen_of_open hclosed] at h
      exact addMade_error (fun t => t) hs h

theorem Adds.of_silent {w : Workspace} {t : Statement} (h : Silent s.work w)
    (hadds : Adds { s with work := w } s' t) : Adds s s' t := by
  obtain ⟨w₂, t₁, added, ⟨w₁, hsilent, hidentified⟩, hstored⟩ := hadds.stored
  exact ⟨hadds.writing, w₂, t₁, added, ⟨w₁, IsTrans.trans _ _ _ h hsilent, hidentified⟩, hstored⟩

theorem Fails.of_silent {w : Workspace} (h : Silent s.work w)
    (hfails : Fails { s with work := w } s') : Fails s s' := by
  rcases hfails with hunder | ⟨w₂, key, id, ⟨w₁, hsilent, hidentified⟩, hunder⟩
  · exact .inl ⟨IsTrans.trans _ _ _ h hunder.work, hunder.changes, hunder.closed⟩
  · exact .inr ⟨w₂, key, id, ⟨w₁, IsTrans.trans _ _ _ h hsilent, hidentified⟩,
      hunder.work, hunder.changes, hunder.closed⟩

theorem addInferred_eq_ok {subject predicate object : Node}
    {context : Option Node} {t : Statement}
    (hs : s.work.Good) (h : addInferred subject predicate object context s = .ok t s') :
    Adds s s' t ∧ s'.work.view.StoresSlots subject predicate object
      (context.getD (.uri s.work.store.config.inferredContext)) t.key := by
  obtain ⟨hopen, -⟩ := whileOpen_eq_ok_iff.mp h
  rcases addInferred_cases hopen with ⟨e, w, -, -, hadd⟩ | ⟨c, w, hknown, hadd⟩
  · cases hadd.symm.trans h
  · rw [hadd] at h
    have hgood := hknown.silent.good hs
    obtain ⟨hadds, hslots⟩ :=
      addMade_eq_ok (fun t => { t with inferred := true }) (fun _ => ⟨rfl, rfl⟩) hgood h
    refine ⟨hadds.of_silent hknown.silent, ?_⟩
    cases hknown with
    | given => exact hslots
    | made hcreate =>
        obtain ⟨hterm, hholds⟩ := Action.createUri_eq_ok hs hcreate
        have hworks := hadds.works
        exact ⟨hslots.subject, hslots.predicate, hslots.object,
          hslots.context.uri (hworks.good hgood).sound hterm (hholds.mono hworks.nodes)⟩

theorem addInferred_error {subject predicate object : Node}
    {context : Option Node} {e : StoreError}
    (hs : s.work.Good) (h : addInferred subject predicate object context s = .error e s') :
    Fails s s' := by
  cases hclosed : s.closed with
  | true =>
      rw [addInferred, whileOpen_of_closed hclosed] at h
      cases h
      exact .inl (refl s)
  | false =>
      rcases addInferred_cases hclosed with ⟨e', w, -, hfails, hadd⟩ | ⟨c, w, hknown, hadd⟩
      · cases hadd.symm.trans h
        exact .inl ⟨(keeps_inferredContext Action.createUri_silent).error hfails, rfl, rfl⟩
      · rw [hadd] at h
        exact (addMade_error _ (hknown.silent.good hs) h).of_silent hknown.silent

/-! Removing -/

theorem removeOne_cases {t : Statement} (hid : 0 ≤ t.id) (s : Scope) :
    (∃ t' removed s', removeOne t s = .ok removed s' ∧
      s'.work.conn.writing = true ∧ t'.id = t.id ∧
        s'.work.view = s.work.view.withDeleted [t.id] ∧
        (removed = true ↔ t.id ∈ s.work.view.liveIds) ∧
        Action.removeStatement t s.work = .ok (t', removed) s'.work ∧ s'.closed = s.closed ∧
        s'.changes = if removed then s.changes.remove t' else s.changes) ∨
      ∃ e s', removeOne t s = .error e s' ∧ s.work.conn.writing = false ∧ Under Silent s s' := by
  cases hbegin : Action.beginWrite s.work with
  | ok u w =>
      obtain ⟨t', removed, w', hremove, hwriting, hid', hview, hremoved⟩ :=
        Action.removeStatement_eq hid hbegin
      refine .inl ⟨t', removed,
        ⟨w', if removed then s.changes.remove t' else s.changes, s.closed⟩, ?_,
        hwriting, hid', hview, hremoved, hremove, rfl, rfl⟩
      unfold removeOne
      rw [bind_of_ok (work_of_ok hremove)]
      cases removed <;> rfl
  | error e w =>
      have hremove := Action.removeStatement_error hid hbegin
      refine .inr ⟨e, { s with work := w }, ?_, ?_, ?_⟩
      · unfold removeOne
        rw [bind_of_error (work_of_error hremove)]
      · by_contra hwriting
        rw [Action.beginWrite_of_writing (by simpa using hwriting)] at hbegin
        cases hbegin
      · exact ⟨Action.beginWrite_silent.error hbegin, rfl, rfl⟩

theorem removeOne_advances (t : Statement) : Keeps Advances (removeOne t) := by
  intro s
  by_cases hid : 0 ≤ t.id
  · rcases removeOne_cases hid s with
      ⟨t', removed, s', hop, -, hid', hview, hremoved, hremove, hclosed, hchanges⟩ |
        ⟨e, s', hop, -, hsilent⟩
    · rw [hop]
      have hworks := (Action.removeStatement_works t).ok hremove
      refine ⟨hworks, hclosed, fun hs => ⟨hworks.good hs.work, ?_⟩⟩
      have hlive : s'.work.view.liveIds = s.work.view.liveIds \ {t.id} := by
        rw [hview, Tables.liveIds_withDeleted]
        simp
      rw [finalState_ok, hchanges, hworks.committed]
      cases removed with
      | true =>
          have hmem := hremoved.mp rfl
          rw [← hid'] at hmem hlive
          exact hs.account.remove hmem hlive
      | false =>
          refine hs.account.congr (hlive.trans (Set.sdiff_singleton_eq_self ?_))
          intro hmem
          cases hremoved.mpr hmem
    · rw [hop]
      exact (hsilent.mono fun _ _ hw => hw.toQuiet).advances
  · have hdelete : Action.deleteStatement t s.work = .ok (t, false) s.work := by
      unfold Action.deleteStatement
      rw [if_pos (by omega)]
      rfl
    have hop : removeOne t s = .ok false
        { s with work := finalState (Action.unregister t.key s.work) } := by
      unfold removeOne
      rw [bind_of_ok (a := work _) (s := s) (work_of_ok (v := (t, false)) ?_)]
      · rfl
      · unfold Action.removeStatement
        rw [bind_of_ok hdelete]
        rfl
    rw [hop]
    have hquiet : Quiet s.work (finalState (Action.unregister t.key s.work)) :=
      Action.unregister_quiet t.key s.work
    exact Under.advances ⟨hquiet, rfl, rfl⟩

theorem remove_advances (subject predicate object context : Option Node) :
    Keeps Advances (remove subject predicate object context) := by
  apply keeps_whileOpen
  refine (Keeps.advances (keeps_work (Action.listStatements_reads _ _ _ _ _).silent)).bind
    fun found => ?_
  exact (Keeps.mapM fun t _ => removeOne_advances t).bind fun removals => .pure _

theorem removals_cases {found : List Statement} (hids : ∀ t ∈ found, 0 ≤ t.id) (s : Scope) :
    (∃ removals s', found.mapM removeOne s = .ok removals s' ∧
        s'.work.view = s.work.view.withDeleted (found.map Statement.id)) ∨
      ∃ e s', found.mapM removeOne s = .error e s' ∧ s.work.conn.writing = false ∧
        s'.work.view.statements = s.work.view.statements := by
  induction found generalizing s with
  | nil => exact .inl ⟨[], s, rfl, by simp⟩
  | cons t rest ih =>
      rw [List.mapM_cons]
      rcases removeOne_cases (hids t (by simp)) s with
        ⟨-, removed, s₁, hop, hwriting, -, hview, -⟩ | ⟨e, s', hop, hidle, hsilent⟩
      · rw [bind_of_ok hop]
        rcases ih (fun u hu => hids u (by simp [hu])) s₁ with
          ⟨removals, s', hrest, hview'⟩ | ⟨e, s', -, hidle, -⟩
        · refine .inl ⟨removed :: removals, s', ?_, ?_⟩
          · rw [bind_of_ok hrest]
            rfl
          · rw [hview', hview, Tables.withDeleted_append]
            rfl
        · cases hwriting.symm.trans hidle
      · rw [bind_of_error hop]
        exact .inr ⟨e, s', rfl, hidle, hsilent.work.statements⟩

theorem listed_eq {w w' : Workspace} {subject predicate object context : Option Node}
    {found : List Statement} (hw : w.Good)
    (h : Action.listStatements subject predicate object context true w = .ok found w') :
    (∀ t ∈ found, 0 ≤ t.id) ∧
      {k | ∃ r ∈ w.view.statements, r.live = true ∧ r.id ∈ found.map Statement.id ∧ r.key = k} =
        w.view.members ∩ {k | k.MatchesNodes w.view subject predicate object context} := by
  obtain ⟨rows, hrows, hmem, -⟩ := Action.listStatements_eq_ok hw.coherent.caches.keyed h
  have hids : found.map Statement.id = rows.map StatementRow.id :=
    map_eq_of_forall₂ (hrows.flip.imp fun _ _ h => h.1)
  constructor
  · intro t ht
    have hid : t.id ∈ rows.map StatementRow.id := hids ▸ List.mem_map_of_mem ht
    obtain ⟨r, hr, heq⟩ := List.mem_map.mp hid
    rw [← heq]
    exact hw.sound.nonneg r ((hmem r).mp hr).1
  · ext k
    rw [hids]
    constructor
    · rintro ⟨r, hr, hlive, hid, rfl⟩
      obtain ⟨r', hr', heq⟩ := List.mem_map.mp hid
      obtain ⟨hmem', -, hmatches, -⟩ := (hmem r').mp hr'
      rw [hw.sound.row_eq hmem' hr heq] at hmatches
      exact ⟨⟨r, hr, hlive, rfl⟩, hmatches⟩
    · rintro ⟨⟨r, hr, hlive, rfl⟩, hmatches⟩
      exact ⟨r, hr, hlive,
        List.mem_map_of_mem ((hmem r).mpr ⟨hr, hlive, hmatches, .inl rfl⟩), rfl⟩

theorem remove_eq_ok {subject predicate object context : Option Node} {count : Nat} (hs : s.Good)
    (h : remove subject predicate object context s = .ok count s') :
    s'.work.view.members =
      s.work.view.members \ {k |
        k.MatchesNodes s.work.view subject predicate object context} := by
  obtain ⟨-, h⟩ := whileOpen_eq_ok_iff.mp h
  obtain ⟨found, s₁, hwork, h⟩ := bind_eq_ok_iff.mp h
  obtain ⟨w, hlist, rfl⟩ := work_eq_ok_iff.mp hwork
  obtain ⟨removals, s₂, hremovals, h⟩ := bind_eq_ok_iff.mp h
  obtain ⟨-, rfl⟩ := pure_eq_ok_iff.mp h
  obtain ⟨hnonneg, hgone⟩ := listed_eq hs.work hlist
  have hview : w.view = s.work.view :=
    ((Action.listStatements_reads subject predicate object context true).ok hlist).view_eq
  rcases removals_cases hnonneg { s with work := w } with
    ⟨removals', s₂, hremoved, hview'⟩ | ⟨e, s₂, hfailed, -⟩
  · rw [hremoved] at hremovals
    cases hremovals
    rw [hview']
    dsimp only
    rw [hview, Tables.members_withDeleted hs.work.sound, hgone, Set.sdiff_self_inter]
  · rw [hfailed] at hremovals
    cases hremovals

theorem remove_error {subject predicate object context : Option Node}
    {e : StoreError} (hs : s.Good) (h : remove subject predicate object context s = .error e s') :
    s'.work.view.statements = s.work.view.statements := by
  cases hclosed : s.closed with
  | true =>
      rw [remove, whileOpen_of_closed hclosed] at h
      cases h
      rfl
  | false =>
  rw [remove, whileOpen_of_open hclosed] at h
  have hreads := Action.listStatements_reads subject predicate object context true
  cases hlist : Action.listStatements subject predicate object context true s.work with
  | error e' w =>
      rw [bind_of_error (work_of_error hlist)] at h
      cases h
      exact (hreads.error hlist).silent.statements
  | ok found w =>
      rw [bind_of_ok (work_of_ok hlist)] at h
      have hview : w.view = s.work.view := (hreads.ok hlist).view_eq
      rcases removals_cases (listed_eq hs.work hlist).1 { s with work := w } with
        ⟨removals, s₂, hremoved, -⟩ | ⟨e', s₂, hfailed, -, hsame⟩
      · rw [bind_of_ok hremoved] at h
        cases h
      · rw [bind_of_error hfailed] at h
        cases h
        rw [hsame, ← hview]

end QuadStore.Transaction
