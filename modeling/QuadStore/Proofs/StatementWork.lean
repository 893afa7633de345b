import QuadStore.Proofs.Working

namespace QuadStore.Action

variable {w w' : Workspace} {t : Statement}

/-- The workspace after a connection has added a row to its tables. -/
def withRow (w : Workspace) (counter : Int) (t : Statement) : Workspace :=
  { w with
    store := { w.store with counters := w.store.counters.set counter .statements }
    conn := { w.conn with pending := some (w.view.withStatement (.ofStatement t)) } }

theorem insertRow_eq (hnew : t.key ∉ w.view.members) :
    ∃ id counter, insertRow t w = .ok { t with id } (withRow w counter { t with id }) ∧
      id ∉ w.view.statements.map StatementRow.id ∧
        (id = t.id ∧ counter = w.store.counters.statements ∨
          t.id ∈ w.view.statements.map StatementRow.id ∧ id = counter ∧
            w.store.counters.statements < counter) := by
  unfold insertRow
  cases hinsert : w.view.insertStatement? (.ofStatement t) with
  | some tables =>
      obtain ⟨rfl, hfresh⟩ := Tables.insertStatement?_eq_some hinsert
      refine ⟨t.id, w.store.counters.statements, ?_, hfresh, .inl ⟨rfl, rfl⟩⟩
      rw [bind_of_ok (view_eq_ok_iff.mpr ⟨hinsert, rfl⟩)]
      rfl
  | none =>
      have htaken := Tables.insertStatement?_eq_none hinsert fun r hr hlive hkey =>
        hnew ⟨r, hr, hlive, hkey⟩
      let used := w.view.statements.map StatementRow.id
      let counter := Counters.skipUsed used used.length w.store.counters.statements
      refine ⟨counter, counter, ?_, Counters.skipUsed_notMem used _,
        .inr ⟨htaken, rfl, Counters.lt_skipUsed _ _ _⟩⟩
      rw [bind_of_ok (view_eq_ok_iff.mpr ⟨hinsert, rfl⟩)]
      rfl

theorem liveStatementId_eq_some {key : StatementKey} {id : Int} {u : Option Int}
    (h : liveStatementId key w = .ok u w') (hu : u = some id) :
    ∃ r ∈ w.view.statements, r.live = true ∧ r.key = key ∧ r.id = id := by
  obtain ⟨hfind, -⟩ := view_eq_ok_iff.mp h
  rw [hu, Option.map_eq_some_iff] at hfind
  obtain ⟨r, hr, rfl⟩ := hfind
  have hspec := List.find?_some hr
  simp only [Bool.and_eq_true, decide_eq_true_eq] at hspec
  exact ⟨r, List.mem_of_find?_eq_some hr, hspec.1, hspec.2, rfl⟩

theorem liveStatementId_eq_none {key : StatementKey} (h : liveStatementId key w = .ok none w') :
    key ∉ w.view.members := by
  obtain ⟨hfind, -⟩ := view_eq_ok_iff.mp h
  rw [Option.map_eq_none_iff, List.find?_eq_none] at hfind
  rintro ⟨r, hr, hlive, hkey⟩
  exact hfind r hr (by simp [hlive, hkey])

/-- The workspace after a statement has been added. -/
def withAdded (w : Workspace) (counter : Int) (t : Statement) : Workspace :=
  let w := withRow w counter t
  { w with conn := { w.conn with
      touched := w.conn.touched ++ [t.id], freshStatements := w.conn.freshStatements ++ [t] } }

/-- The id that an added statement has got, and what the counter is then. -/
def Numbered (w : Workspace) (t : Statement) (id counter : Int) : Prop :=
  id ∉ w.view.statements.map StatementRow.id ∧
    (id = t.id ∧ counter = w.store.counters.statements ∨
      t.id ∈ w.view.statements.map StatementRow.id ∧ id = counter ∧
        w.store.counters.statements < counter)

theorem withAdded_works (hwriting : w.conn.writing = true) (hnew : t.key ∉ w.view.members)
    {id counter : Int} (hnumbered : Numbered w t id counter)
    (hid : 0 ≤ w.store.counters.statements → 0 ≤ t.id) {t' : Statement} (hkey : t'.key = t.key)
    (ht' : t'.id = id) (hdeleted : t'.deleted = false) : Works w (withAdded w counter t') := by
  have hcounter : w.store.counters.statements ≤ counter := by
    rcases hnumbered.2 with ⟨-, rfl⟩ | ⟨-, -, hlt⟩
    · exact le_refl _
    · exact le_of_lt hlt
  refine ⟨rfl, rfl, rfl, rfl, ⟨rfl, le_refl _⟩, rfl, hcounter,
    .inl ⟨hwriting.symm, rfl⟩, fun _ h => h,
    Tables.evolves_withStatement _ _, fun hnonneg hsound => hsound.withStatement ?_ ?_ ?_,
    fun h => ⟨h.caches, h.freshNodes, ?_, fun h => ?_, ?_⟩,
    .of_same rfl rfl rfl ⟨rfl, rfl⟩ rfl rfl nofun, .refl⟩
  · rw [StatementRow.id_ofStatement, ht']
    exact hnumbered.1
  · rw [StatementRow.id_ofStatement, ht']
    rcases hnumbered.2 with ⟨rfl, -⟩ | ⟨-, rfl, -⟩
    · exact hid hnonneg
    · exact le_trans hnonneg hcounter
  · intro r hr hlive hrow
    exact hnew ⟨r, hr, hlive, hrow.trans hkey⟩
  · intro s hs
    rcases List.mem_append.mp hs with hs | hs
    · obtain ⟨r, hr, hholds⟩ := h.freshStatements s hs
      exact ⟨r, List.mem_append_left _ hr, hholds⟩
    · obtain rfl := List.mem_singleton.mp hs
      refine ⟨.ofStatement s, List.mem_append_right _ (by simp), rfl, rfl, ?_, by simp [hdeleted]⟩
      cases hinferred : s.inferred <;>
        simp [StatementRow.isInferred, StatementRow.ofStatement, hinferred]
  · cases h
  · intro r hr r' hr' hid hrow hrow'
    rcases List.mem_append.mp hr' with hr' | hr'
    · exact List.mem_append_left _ (h.touched r hr r' hr' hid hrow hrow')
    · rw [List.mem_singleton.mp hr'] at hrow'
      cases hrow'

theorem storeIdentified_eq_ok {t' : Statement} {added : Bool}
    (h : storeIdentified t w = .ok (t', added) w') :
    t'.key = t.key ∧ ∃ w₁, beginWrite w = .ok () w₁ ∧
      (added = false ∧ Reads w₁ w' ∧
          (∃ r ∈ w.view.statements, r.live = true ∧ r.key = t.key ∧ r.id = t'.id) ∨
        added = true ∧ t.key ∉ w.view.members ∧
          ∃ counter, Numbered w t t'.id counter ∧ w' = withAdded w₁ counter t') := by
  obtain ⟨_, w₁, hbegin, h⟩ := bind_eq_ok_iff.mp h
  obtain ⟨-, hview⟩ := beginWrite_eq_ok hbegin
  have hsilent := beginWrite_silent.ok hbegin
  obtain ⟨live, w₂, hlive, h⟩ := bind_eq_ok_iff.mp h
  obtain rfl : w₁ = w₂ := (view_eq_ok_iff.mp hlive).2
  cases live with
  | some existing =>
      obtain ⟨r, hr, hrow⟩ := liveStatementId_eq_some hlive rfl
      obtain ⟨stored, w₃, hload, h⟩ := bind_eq_ok_iff.mp h
      have hreads := (loadStatement_reads existing).ok hload
      rw [hview] at hr
      cases stored <;>
      · obtain ⟨heq, rfl⟩ := pure_eq_ok_iff.mp h
        obtain ⟨rfl, rfl⟩ := Prod.mk.inj heq
        exact ⟨rfl, w₁, hbegin, .inl ⟨rfl, hreads, r, hr, hrow⟩⟩
  | none =>
      have hnew := liveStatementId_eq_none hlive
      obtain ⟨id, counter, hinsert, hnumbered⟩ := insertRow_eq hnew
      obtain ⟨inserted, w₃, hinserted, h⟩ := bind_eq_ok_iff.mp h
      rw [hinsert] at hinserted
      cases hinserted
      cases h
      have hnumbered' : Numbered w t id counter := by
        unfold Numbered
        rw [← hview, ← hsilent.statementCounter_eq]
        exact hnumbered
      rw [hview] at hnew
      exact ⟨rfl, w₁, hbegin, .inr ⟨rfl, hnew, counter, hnumbered', rfl⟩⟩

theorem storeIdentified_works (hid : 0 ≤ w.store.counters.statements → 0 ≤ t.id) :
    Works w (finalState (storeIdentified t w)) := by
  cases hbegin : beginWrite w with
  | error e w₁ =>
      rw [storeIdentified, bind_of_error hbegin]
      exact (beginWrite_silent.error hbegin).toWorks
  | ok u w₁ =>
  rw [storeIdentified, bind_of_ok hbegin]
  have hbegun := beginWrite_silent.ok hbegin
  refine IsTrans.trans _ _ _ hbegun.toWorks ?_
  rw [← hbegun.statementCounter_eq] at hid
  obtain ⟨hwriting, hview⟩ := beginWrite_eq_ok hbegin
  cases hlive : liveStatementId t.key w₁ with
  | error e w₂ => cases hlive
  | ok live w₂ =>
  obtain rfl : w₁ = w₂ := (view_eq_ok_iff.mp hlive).2
  rw [bind_of_ok hlive]
  cases live with
  | some existing =>
      refine Keeps.bind (R := Works) (loadStatement_reads existing).silent.quiet.works
        (fun stored => ?_) w₁
      split <;> exact .pure _
  | none =>
      have hnew := liveStatementId_eq_none hlive
      obtain ⟨id, counter, hinsert, hnumbered⟩ := insertRow_eq hnew
      have hworks : Works w₁ (withAdded w₁ counter
          { t with id, deleted := false, deletionTimed := false }) :=
        withAdded_works hwriting hnew hnumbered hid rfl rfl rfl
      dsimp only
      rw [bind_of_ok hinsert]
      exact hworks

theorem checkStorable_reads (t : Statement) : Keeps Reads (checkStorable t) := by
  unfold checkStorable
  split
  · exact .throw _
  · exact .ite (.throw _) (.pure _)

theorem identify_quiet (t : Statement) : Keeps Quiet (identify t) := by
  refine (checkStorable_reads t).silent.quiet.bind fun _ => .ite ?_ (.pure _)
  exact (nextId_quiet .statements (by simp)).bind fun _ => .pure _

theorem identify_eq_ok {t' : Statement} (h : identify t w = .ok t' w') :
    t' = { t with id := t'.id } ∧ w'.view = w.view ∧
      (0 ≤ t.id ∧ t'.id = t.id ∧ w' = w ∨
        t.id < 0 ∧ t'.id = w.store.counters.statements + 1 ∧
          w'.store.counters.statements = w.store.counters.statements + 1) := by
  obtain ⟨_, w₁, hcheck, h⟩ := bind_eq_ok_iff.mp h
  obtain rfl : w = w₁ := by
    unfold checkStorable at hcheck
    cases hcontext : t.context with
    | none =>
        rw [hcontext] at hcheck
        cases hcheck
    | some context =>
        rw [hcontext] at hcheck
        dsimp only at hcheck
        split at hcheck
        · cases hcheck
        · exact (pure_eq_ok_iff.mp hcheck).2
  split at h
  · rename_i hid
    cases h
    exact ⟨rfl, rfl, .inr ⟨hid, rfl, rfl⟩⟩
  · rename_i hid
    obtain ⟨rfl, rfl⟩ := pure_eq_ok_iff.mp h
    exact ⟨rfl, rfl, .inl ⟨by omega, rfl, rfl⟩⟩

theorem storeStatement_works (t : Statement) : Keeps Works (storeStatement t) := by
  refine (identify_quiet t).works.bind_of fun w t' w₁ hidentify => storeIdentified_works ?_
  rcases (identify_eq_ok hidentify).2.2 with ⟨hid, heq, rfl⟩ | ⟨-, heq, hcounter⟩
  · rw [heq]
    exact fun _ => hid
  · omega

/-- How a statement has been stored: a live row holds it already, or a row was added. It is added
under its own id when no row has that. -/
inductive Stored (w w' : Workspace) (t t' : Statement) : Bool → Prop
  | found (hview : w'.view = w.view)
      (hrow : ∃ r ∈ w.view.statements, r.live = true ∧ r.key = t.key ∧ r.id = t'.id) :
      Stored w w' t t' false
  | added (hview : w'.view = w.view.withStatement (.ofStatement t'))
    (hnew : t.key ∉ w.view.members) (hfresh : t'.id ∉ w.view.statements.map StatementRow.id)
      (hid : 0 ≤ t.id → t.id ∉ w.view.statements.map StatementRow.id → t'.id = t.id) :
      Stored w w' t t' true

theorem storeStatement_eq_ok {t' : Statement} {added : Bool}
    (h : storeStatement t w = .ok (t', added) w') :
    t'.key = t.key ∧ w'.conn.writing = true ∧ Stored w w' t t' added := by
  obtain ⟨t₁, w₁, hidentify, h⟩ := bind_eq_ok_iff.mp h
  obtain ⟨ht₁, hview₁, hid⟩ := identify_eq_ok hidentify
  have hkey₁ : t₁.key = t.key := by rw [ht₁, Statement.key, Statement.key]
  obtain ⟨hkey, w₂, hbegin, hstored⟩ := storeIdentified_eq_ok h
  obtain ⟨hwriting, hbegun⟩ := beginWrite_eq_ok hbegin
  have hview : w₂.view = w.view := hbegun.trans hview₁
  refine ⟨hkey.trans hkey₁, ?_⟩
  rw [hview₁, hkey₁] at hstored
  rcases hstored with ⟨rfl, hreads, hrow⟩ | ⟨rfl, hnew, counter, hnumbered, rfl⟩
  · exact ⟨hreads.silent.writing hwriting, .found (hreads.view_eq.trans hview) hrow⟩
  · have hview' : (withAdded w₂ counter t').view = w.view.withStatement (.ofStatement t') := by
      rw [← hview]
      rfl
    obtain ⟨hfresh, hnumber⟩ := hnumbered
    rw [hview₁] at hfresh hnumber
    refine ⟨rfl, .added hview' hnew hfresh fun hnonneg hunused => ?_⟩
    have hsame : t₁.id = t.id := by
      rcases hid with ⟨-, hsame, -⟩ | ⟨hneg, -, -⟩
      · exact hsame
      · omega
    rw [hsame] at hnumber
    rcases hnumber with ⟨hnumber, -⟩ | ⟨htaken, -⟩
    · exact hnumber
    · exact absurd htaken hunused

theorem storeIdentified_failing {R : Workspace → Workspace → Prop} [IsPreorder Workspace R]
    (hbegin : Keeps R beginWrite) (hload : ∀ id, Keeps R (loadStatement id)) (t : Statement) :
    KeepsFailing R (storeIdentified t) := by
  refine .bind hbegin fun _ => .bind_of (keeps_view _) fun w live w₁ e w' hlive h => ?_
  obtain rfl : w = w₁ := (view_eq_ok_iff.mp hlive).2
  cases live with
  | some existing =>
      refine KeepsFailing.bind (hload existing) (fun stored => ?_) w e w' h
      split <;> exact (Keeps.pure _).failing
  | none =>
      obtain ⟨id, counter, hinsert, -⟩ := insertRow_eq (liveStatementId_eq_none hlive)
      dsimp only at h
      rw [bind_of_ok hinsert] at h
      cases h

theorem storeStatement_failing (t : Statement) : KeepsFailing Quiet (storeStatement t) :=
  .bind (identify_quiet t) (storeIdentified_failing beginWrite_silent.quiet fun id =>
    (loadStatement_reads id).silent.quiet)

/-- What is registered is the same as before. -/
def SameRegistry (w w' : Workspace) : Prop :=
  w'.store.registry = w.store.registry ∧ w'.registryFile = w.registryFile

instance : IsPreorder Workspace SameRegistry where
  refl _ := ⟨rfl, rfl⟩
  trans _ _ _ h h' := ⟨h'.1.trans h.1, h'.2.trans h.2⟩

theorem storeStatement_sameRegistry (t : Statement) : Keeps SameRegistry (storeStatement t) := by
  have silent {α : Type} {a : Action α} (h : Keeps Silent a) : Keeps SameRegistry a :=
    h.mono fun _ _ hw => ⟨hw.registry, hw.registryFile⟩
  refine Keeps.bind (R := SameRegistry) ?_ fun t => ?_
  · refine (silent (checkStorable_reads t).silent).bind fun _ => .ite ?_ (.pure _)
    exact Keeps.bind (R := SameRegistry) (fun w => ⟨rfl, rfl⟩) fun _ => .pure _
  refine (silent beginWrite_silent).bind fun _ => ?_
  refine (keeps_view _).bind fun live => ?_
  cases live with
  | some existing =>
      refine (silent (loadStatement_reads existing).silent).bind fun stored => ?_
      split <;> exact .pure _
  | none =>
      refine Keeps.bind (R := SameRegistry) ?_ fun t => ?_
      · refine (keeps_view _).bind fun tables => ?_
        cases tables with
        | some tables =>
            exact Keeps.bind (R := SameRegistry) (fun w => ⟨rfl, rfl⟩) fun _ => .pure _
        | none => exact fun w => ⟨rfl, rfl⟩
      · exact fun w => ⟨rfl, rfl⟩

/-- The workspace after a connection has marked the live row of the given id as deleted. -/
def withRemoved (w : Workspace) (id : Int) : Workspace :=
  { w with conn := { w.conn with
      pending := some (w.view.withDeleted [id])
      touched := w.conn.touched ++ [id]
      freshStatements := w.conn.freshStatements.filter fun u => u.id ≠ id } }

theorem withRemoved_works (hwriting : w.conn.writing = true) (id : Int) :
    Works w (withRemoved w id) := by
  refine ⟨rfl, rfl, rfl, rfl, ⟨rfl, le_refl _⟩, rfl, le_refl _,
    .inl ⟨hwriting.symm, rfl⟩, fun _ h => h,
    Tables.evolves_withDeleted _ _, fun _ hsound => hsound.withDeleted _,
    fun h => ⟨h.caches, h.freshNodes, ?_, fun h => ?_, ?_⟩,
    .of_same rfl rfl rfl ⟨rfl, rfl⟩ rfl rfl nofun, .refl⟩
  · intro s hs
    obtain ⟨hs, hid⟩ := List.mem_filter.mp hs
    obtain ⟨r, hr, hholds⟩ := h.freshStatements s hs
    refine ⟨r, Tables.mem_withDeleted_iff.mpr (.inl ⟨hr, fun hmem => ?_⟩), hholds⟩
    have heq : s.id = id := hholds.id.symm.trans (List.mem_singleton.mp hmem)
    simp [heq] at hid
  · cases h
  · intro r hr r' hr' hid hrow hrow'
    rcases Tables.mem_withDeleted_iff.mp hr' with ⟨hr', -⟩ | ⟨r'', -, hmem, -, rfl⟩
    · exact List.mem_append_left _ (h.touched r hr r' hr' hid hrow hrow')
    · refine List.mem_append_right _ ?_
      rw [← hid]
      exact hmem

/-- The statement after it has been deleted, which marks it if its row was live. -/
def deleted (t : Statement) (removed : Bool) : Statement :=
  if removed then { t with deleted := true, deletionTimed := true } else t

theorem deleteStatement_eq_ok (hid : 0 ≤ t.id) {w₁ : Workspace}
    (hbegin : beginWrite w = .ok () w₁)
    {removed : Bool} (hremoved : removed = true ↔ t.id ∈ w.view.liveIds) :
    deleteStatement t w = .ok (deleted t removed, removed) (withRemoved w₁ t.id) := by
  obtain ⟨hwriting, hview⟩ := beginWrite_eq_ok hbegin
  unfold deleteStatement
  rw [if_neg (by omega), bind_of_ok hbegin]
  rw [← hview] at hremoved
  cases hdelete : w₁.view.deleteStatement? t.id with
  | some tables =>
      obtain ⟨hlive, rfl⟩ := Tables.deleteStatement?_eq_some_iff.mp hdelete
      obtain rfl : removed = true := hremoved.mpr hlive
      rw [bind_of_ok (view_eq_ok_iff.mpr ⟨hdelete, rfl⟩)]
      rfl
  | none =>
      have hlive := Tables.deleteStatement?_eq_none_iff.mp hdelete
      obtain rfl : removed = false := by simpa using mt hremoved.mp hlive
      rw [bind_of_ok (view_eq_ok_iff.mpr ⟨hdelete, rfl⟩), withRemoved,
        Tables.withDeleted_of_notMem hlive, ← Workspace.pending_eq hwriting]
      rfl

theorem deleteStatement_eq (hid : 0 ≤ t.id) {w₁ : Workspace} (hbegin : beginWrite w = .ok () w₁) :
    ∃ t' removed, deleteStatement t w = .ok (t', removed) (withRemoved w₁ t.id) ∧
      t'.id = t.id ∧ t'.key = t.key ∧ (removed = true ↔ t.id ∈ w.view.liveIds) := by
  classical
  let removed := decide (t.id ∈ w.view.liveIds)
  have hremoved : removed = true ↔ t.id ∈ w.view.liveIds := decide_eq_true_iff
  refine ⟨deleted t removed, removed,
      deleteStatement_eq_ok hid hbegin hremoved, ?_, ?_, hremoved⟩ <;>
    cases removed <;> rfl

theorem deleteStatement_error (hid : 0 ≤ t.id) {e : StoreError} {w₁ : Workspace}
    (hbegin : beginWrite w = .error e w₁) : deleteStatement t w = .error e w₁ := by
  unfold deleteStatement
  rw [if_neg (by omega), bind_of_error hbegin]

theorem deleteStatement_works (t : Statement) : Keeps Works (deleteStatement t) := by
  intro w
  by_cases hid : 0 ≤ t.id
  · cases hbegin : beginWrite w with
    | error e w₁ =>
        rw [deleteStatement_error hid hbegin]
        exact (beginWrite_silent.error hbegin).toWorks
    | ok u w₁ =>
        obtain ⟨t', removed, heq, -⟩ := deleteStatement_eq hid hbegin
        rw [heq]
        refine IsTrans.trans _ _ _ (beginWrite_silent.ok hbegin).toWorks ?_
        exact withRemoved_works (beginWrite_eq_ok hbegin).1 t.id
  · unfold deleteStatement
    rw [if_pos (by omega)]
    exact refl w

theorem removeStatement_works (t : Statement) : Keeps Works (removeStatement t) :=
  (deleteStatement_works t).bind fun _ => (unregister_quiet _).works.bind fun _ => .pure _

/-- Once the connection has the lock, removing succeeds, and it keeps the lock. -/
theorem removeStatement_eq (hid : 0 ≤ t.id) {w₁ : Workspace} (hbegin : beginWrite w = .ok () w₁) :
    ∃ t' removed w', removeStatement t w = .ok (t', removed) w' ∧ w'.conn.writing = true ∧
      t'.id = t.id ∧ w'.view = w.view.withDeleted [t.id] ∧
        (removed = true ↔ t.id ∈ w.view.liveIds) := by
  obtain ⟨t', removed, hdelete, hid', hkey, hremoved⟩ := deleteStatement_eq hid hbegin
  refine ⟨t', removed, finalState (unregister t'.key (withRemoved w₁ t.id)), ?_, rfl, hid', ?_,
    hremoved⟩
  · unfold removeStatement
    rw [bind_of_ok hdelete]
    rfl
  · rw [← (beginWrite_eq_ok hbegin).2]
    rfl

theorem removeStatement_error (hid : 0 ≤ t.id) {e : StoreError} {w₁ : Workspace}
    (hbegin : beginWrite w = .error e w₁) : removeStatement t w = .error e w₁ := by
  unfold removeStatement
  rw [bind_of_error (deleteStatement_error hid hbegin)]

theorem beginWrite_of_writing (h : w.conn.writing = true) : beginWrite w = .ok () w := by
  unfold beginWrite
  rw [bind_of_ok (a := (get : Action Workspace)) (s := w) rfl]
  simp only [h]
  rfl

end QuadStore.Action
