import QuadStore.Proofs.OpenStores
import QuadStore.Proofs.RecordedNodes

namespace QuadStore

variable {V : LiteralValue → Prop} {w w' : Workspace}

namespace Action

variable {n : Node} {t : Statement}

/-! Statements -/

theorem cacheStatement_leaves (t : Statement) : Keeps LeavesNodes (cacheStatement t) := by
  intro w
  simp only [cacheStatement]
  rw [bind_of_ok (a := (get : Action Workspace)) (s := w) rfl]
  split
  · exact ⟨rfl, rfl, fun _ h => h, rfl⟩
  · exact ⟨rfl, rfl, fun _ h => h.addStatement trivial, rfl⟩

theorem recorded_bind {α β : Type} {a : Action α} {f : α → Action β}
    (ha : (finalState (a w)).Recorded V)
    (hf : ∀ v w', a w = .ok v w' → LeavesNodes w' (finalState (f v w'))) :
    (finalState ((a >>= f) w)).Recorded V := by
  cases hop : a w with
  | ok v w' =>
      rw [hop] at ha
      rw [bind_of_ok hop]
      exact Workspace.Recorded.leave ha (hf v w' hop)
  | error e w' =>
      rw [hop] at ha
      rwa [bind_of_error hop]

section

variable [LiteralValue.Lasting V]

theorem loadStatement_recording (id : Int) : Keeps (Recording V) (loadStatement id) := by
  intro w hgood h
  have hworks := (loadStatement_reads id w).silent.toWorks
  refine ⟨hworks, hworks.good hgood, ?_⟩
  unfold loadStatement
  rw [bind_of_ok (a := (get : Action Workspace)) (s := w) rfl]
  cases w.store.caches.statement.get? id with
  | some cached => exact h
  | none =>
      dsimp only
      rw [bind_of_ok (view_eq_ok_iff.mpr ⟨rfl, rfl⟩)]
      cases w.view.statementById? id with
      | none => exact h
      | some row =>
          have hread : Keeps (Recording V) (statementOfRow row) := statementOfRow_keeps row
          refine recorded_bind (hread w hgood h).recorded fun s w₁ _ => ?_
          exact (cacheStatement_leaves s).bind (fun _ => .pure _) w₁

instance : AllowsReading (Recording V) where
  loadStatement := loadStatement_recording

end

theorem insertRow_leaves (t : Statement) : Keeps LeavesNodes (insertRow t) := by
  refine (keeps_view _).bind_of fun w tables w₁ hview => ?_
  obtain ⟨hinsert, rfl⟩ := view_eq_ok_iff.mp hview
  have set_leaves : ∀ {tables : Tables} {w : Workspace}, tables.nodes = w.view.nodes →
      LeavesNodes w (finalState (setTables tables w)) :=
        fun htables => ⟨rfl, htables, fun _ h => h, rfl⟩
  cases tables with
  | some tables =>
      refine finalState_bind (set_leaves ?_) fun _ w₁ _ => Keeps.pure _ w₁
      unfold Tables.insertStatement? at hinsert
      split at hinsert
      · cases hinsert
      · rw [← Option.some.inj hinsert]
  | none =>
      refine (keeps_view _).bind (fun used => ?_) w
      refine Keeps.bind (fun w => ⟨rfl, rfl, fun _ h => h, rfl⟩) fun _ =>
        keeps_get.bind fun w' => ?_
      refine (keeps_view _).bind_of fun w tables w₁ hview => ?_
      obtain ⟨htables, rfl⟩ := view_eq_ok_iff.mp hview
      exact finalState_bind (set_leaves (by rw [← htables])) fun _ w₁ _ => Keeps.pure _ w₁

theorem storeIdentified_recorded [LiteralValue.Lasting V] (hgood : w.Good) (h : w.Recorded V) :
    (finalState (storeIdentified t w)).Recorded V := by
  have hbegin : Keeps (Recording V) beginWrite :=
    beginWrite_silent.quiet.works.recording beginWrite_leaves
  cases hop : beginWrite w with
  | error e w₁ =>
      rw [storeIdentified, bind_of_error hop]
      have hkept := hbegin w hgood h
      rw [hop] at hkept
      exact hkept.recorded
  | ok u w₁ =>
      have hkept := hbegin.ok hop hgood h
      rw [storeIdentified, bind_of_ok hop]
      cases hlive : liveStatementId t.key w₁ with
      | error e w₂ => cases hlive
      | ok live w₂ =>
          obtain rfl : w₁ = w₂ := (view_eq_ok_iff.mp hlive).2
          rw [bind_of_ok hlive]
          cases live with
          | some existing =>
              dsimp only
              refine (Keeps.bind (R :=
                Recording V) (loadStatement_recording existing) (fun stored => ?_)
                w₁ hkept.good hkept.recorded).recorded
              split <;> exact .pure _
          | none =>
              refine hkept.recorded.leave ?_
              refine (insertRow_leaves t).bind (fun t => ?_) w₁
              exact Keeps.bind (R :=
                LeavesNodes) (fun w => ⟨rfl, rfl, fun _ h => h, rfl⟩) fun _ => .pure _

theorem identify_recording (t : Statement) : Keeps (Recording V) (identify t) := by
  refine (identify_quiet t).works.recording (Keeps.bind (R := LeavesNodes) ?_ fun _ => ?_)
  · unfold checkStorable
    split
    · exact .throw _
    · exact .ite (.throw _) (.pure _)
  · exact .ite ((nextId_leaves _).bind fun _ => .pure _) (.pure _)

theorem storeStatement_recording [LiteralValue.Lasting V] (t : Statement) :
    Keeps (Recording V) (storeStatement t) := by
  intro w hgood h
  have hworks := storeStatement_works t w
  refine ⟨hworks, hworks.good hgood, ?_⟩
  have hkept := identify_recording t w hgood h
  unfold storeStatement
  cases hop : identify t w with
  | ok t' w' =>
      rw [hop] at hkept
      rw [bind_of_ok hop]
      exact storeIdentified_recorded hkept.good hkept.recorded
  | error e w' =>
      rw [hop] at hkept
      rw [bind_of_error hop]
      exact hkept.recorded

theorem modifyRegistry_leaves (f : Registry → RegistryFile → Registry × RegistryFile) :
    Keeps LeavesNodes (modifyRegistry f) :=
  fun _ => ⟨rfl, rfl, fun _ h => h, rfl⟩

theorem removeStatement_recording (t : Statement) : Keeps (Recording V) (removeStatement t) := by
  refine (removeStatement_works t).recording (Keeps.bind (R := LeavesNodes) (fun w => ?_) fun _ =>
    (modifyRegistry_leaves _).bind fun _ => .pure _)
  by_cases hid : 0 ≤ t.id
  · cases hbegin : beginWrite w with
    | error e w₁ =>
        rw [deleteStatement_error hid hbegin]
        exact beginWrite_leaves.error hbegin
    | ok u w₁ =>
        obtain ⟨t', removed, hop, -⟩ := deleteStatement_eq hid hbegin
        rw [hop]
        exact IsTrans.trans _ _ _ (beginWrite_leaves.ok hbegin) ⟨rfl, rfl, fun _ h => h, rfl⟩
  · unfold deleteStatement
    rw [if_pos (by omega)]
    exact refl w

section

variable [LiteralValue.Lasting V]

theorem identifyShared_recording (t : Statement) : Keeps (Recording V) (identifyShared t) := by
  have register (key : StatementKey) (id : Int) : Keeps (Recording V) (registerId key id) :=
    (registerId_quiet key id).works.recording (keeps_get.bind fun _ => modifyRegistry_leaves _)
  refine Keeps.bind (R := Recording V) (keeps_get.bind fun _ => .pure _) fun registered => ?_
  split
  · exact (register _ _).bind fun _ => .pure _
  · refine (keeps_view _).bind fun live => ?_
    split
    · exact (loadStatement_recording _).bind fun _ => .pure _
    · refine Keeps.bind (R := Recording V) ?_ fun id => (register _ _).bind fun _ => .pure _
      exact (nextId_quiet .statements (by simp)).works.recording (nextId_leaves _)

theorem createUri_recording (uri : String) : Keeps (Recording V) (createUri uri) :=
  fun _ hgood h => (createUri_ends hgood h uri).kept

theorem convert_recording (hvalue : ∀ value ∈ n.newValue?, V value) :
    Keeps (Recording V) (convert n) :=
  fun _ hgood h => (convert_ends hgood h hvalue).kept

theorem createStatement_recording {subject predicate object : Node} {context : Option Node}
    (hvalues : ∀ n ∈ [subject, predicate, object] ++ context.toList,
      ∀ value ∈ n.newValue?, V value) :
    Keeps (Recording V) (createStatement subject predicate object context) := by
  have identify : ∀ s p o c, Keeps (Recording V) (do
      identifyShared (← ofStatement (Statement.make s p o (some c))) : Action Statement) :=
    fun _ _ _ _ => (keeps_ofStatement _).bind fun _ => identifyShared_recording _
  refine (keeps_ofStatement _).bind fun _ => ?_
  refine (convert_recording (hvalues subject (by simp))).bind fun _ => ?_
  refine (convert_recording (hvalues predicate (by simp))).bind fun _ => ?_
  refine (convert_recording (hvalues object (by simp))).bind fun _ => ?_
  cases context with
  | some c => exact (convert_recording (hvalues c (by simp))).bind fun _ => identify _ _ _ _
  | none => exact keeps_get.bind fun w => (createUri_recording _).bind fun _ => identify _ _ _ _

end

/-! Bindings of prefixes -/

theorem loadNamespace_leaves (cached : Caches → Option Namespace)
    (row : Tables → Option NamespaceRow) :
    Keeps LeavesNodes (loadNamespace cached row) := by
  refine keeps_get.bind fun _ => ?_
  split
  · exact .pure _
  refine (keeps_view _).bind fun found => ?_
  cases found with
  | none => exact .pure _
  | some r =>
      refine (keeps_ofData _).bind fun ns => keeps_get.bind fun w => ?_
      have add_leaves : Keeps LeavesNodes (modifyCaches (·.addNamespace ns)) := fun w =>
        ⟨rfl, rfl, fun _ h => ⟨h.node, h.uri, h.blank, h.literal, h.statement⟩, rfl⟩
      split
      · exact add_leaves.bind fun _ => .pure _
      · exact Keeps.bind (R := LeavesNodes) (.pure _) fun _ => .pure _

theorem storeNamespace_leaves (ns : Namespace) : Keeps LeavesNodes (storeNamespace ns) := by
  refine beginWrite_leaves.bind fun _ => (nextId_leaves _).bind fun id => keeps_get.bind_of ?_
  intro w v w₁ hget
  obtain ⟨rfl, rfl⟩ := get_eq_ok_iff.mp hget
  refine finalState_bind (keeps_ofData _ w) fun t w₁ hfound => ?_
  obtain ⟨hinsert, rfl⟩ := ofData_eq_ok_iff.mp hfound
  obtain ⟨rfl, -⟩ := Tables.insertNamespace_eq_ok hinsert
  exact ⟨rfl, rfl, fun _ h => h, rfl⟩

theorem deleteNamespace_leaves (ns : Namespace) : Keeps LeavesNodes (deleteNamespace ns) := by
  refine beginWrite_leaves.bind fun _ => (keeps_view _).bind_of fun w t w₁ hview => ?_
  obtain ⟨rfl, rfl⟩ := view_eq_ok_iff.mp hview
  exact ⟨rfl, rfl, fun _ h => ⟨h.node, h.uri, h.blank, h.literal, h.statement⟩, rfl⟩

end Action

/-! Calls -/

namespace Call

/-- The values of the literals that a call may have to write. -/
def values : Call → List LiteralValue
  | .literal value => [value.lowered]
  | .string content language => [.string content (language.map Text.lowerCase)]
  | .typed content datatype => [(LiteralValue.ofText content datatype).1]
  | .statement s p o c | .add s p o c | .addInferred s p o c =>
      ([s, p, o] ++ c.toList).filterMap Node.newValue?
  | _ => []

end Call

namespace Transaction

variable {α : Type} {R : Workspace → Workspace → Prop} {x y : Scope}

/-- The workspace changes in some way, and whatever else of the transaction does. -/
def WorkChanges (R : Workspace → Workspace → Prop) (x y : Scope) : Prop :=
  R x.work y.work

instance [IsPreorder Workspace R] : IsPreorder Scope (WorkChanges R) where
  refl x := refl x.work
  trans _ _ _ h h' := IsTrans.trans (r := R) _ _ _ h h'

theorem Under.workChanges (h : Under R x y) : WorkChanges R x y :=
  h.work

theorem work_changes {a : Action α} (h : Keeps R a) : Keeps (WorkChanges R) (work a) :=
  (keeps_work h).mono fun _ _ => Under.workChanges

theorem perform_changes [IsPreorder Workspace R] {a : Action α} (h : Keeps R a) :
    Keeps (WorkChanges R) (perform a) :=
  keeps_whileOpen (work_changes h)

theorem recording_of_silent {op : Operation α} (hsilent : Keeps (Under Silent) op)
    (hleaves : Keeps (WorkChanges LeavesNodes) op) : Keeps (WorkChanges (Recording V)) op :=
  fun x => (hleaves x).recording (hsilent x).work.toWorks

theorem setNamespace_leaves (label uri : String) :
    Keeps (WorkChanges LeavesNodes) (setNamespace label uri) := by
  have drop (ns : Namespace) : Keeps LeavesNodes (discard (Action.deleteNamespace ns)) :=
    (Action.deleteNamespace_leaves ns).bind fun _ => .pure _
  -- What is left to do once the label is free.
  have rebind {f : Option Namespace → Action Namespace} (hsome : ∀ ns, f (some ns) = (do
        discard (Action.deleteNamespace ns)
        Action.storeNamespace (.make label uri)))
      (hnone : f none = Action.storeNamespace (.make label uri)) :
      Keeps LeavesNodes (Action.loadNamespaceByUri uri >>= f) := by
    refine (Action.loadNamespace_leaves _ _).bind fun found => ?_
    cases found with
    | some ns =>
        rw [hsome]
        exact (drop ns).bind fun _ => Action.storeNamespace_leaves _
    | none =>
        rw [hnone]
        exact Action.storeNamespace_leaves _
  refine perform_changes ((Action.loadNamespace_leaves _ _).bind fun found => ?_)
  cases found with
  | some ns => exact .ite (.pure _) ((drop ns).bind fun _ => rebind (fun _ => rfl) rfl)
  | none => exact rebind (fun _ => rfl) rfl

theorem removeNamespace_leaves (label : String) :
    Keeps (WorkChanges LeavesNodes) (removeNamespace label) := by
  refine perform_changes ((Action.loadNamespace_leaves _ _).bind fun found => ?_)
  cases found with
  | some ns => exact Action.deleteNamespace_leaves ns
  | none => exact .pure _

section

variable [LiteralValue.Lasting V]

theorem store_recording (t : Statement) : Keeps (WorkChanges (Recording V)) (store t) := by
  refine (work_changes (Action.storeStatement_recording t)).bind fun stored => ?_
  have account : Keeps (WorkChanges (Recording V)) (modifyChanges (·.add stored.1)) :=
    fun x => refl x.work
  dsimp only
  split
  · exact account.bind fun _ => .pure _
  · exact Keeps.bind (R := WorkChanges (Recording V)) (.pure _) fun _ => .pure _

omit [LiteralValue.Lasting V] in
theorem removeOne_recording (t : Statement) :
    Keeps (WorkChanges (Recording V)) (removeOne t) := by
  refine (work_changes (Action.removeStatement_recording t)).bind fun removed => ?_
  have account : Keeps (WorkChanges (Recording V)) (modifyChanges (·.remove removed.1)) :=
    fun x => refl x.work
  dsimp only
  split
  · exact account.bind fun _ => .pure _
  · exact Keeps.bind (R := WorkChanges (Recording V)) (.pure _) fun _ => .pure _

theorem add_recording {subject predicate object : Node} {context : Option Node}
    (hvalues : ∀ value ∈ (Call.add subject predicate object context).values, V value) :
    Keeps (WorkChanges (Recording V)) (add subject predicate object context) := by
  exact keeps_whileOpen ((work_changes (Action.createStatement_recording
    (List.forall_mem_filterMap.mp hvalues))).bind fun t => store_recording t)

theorem addInferred_recording {subject predicate object : Node} {context : Option Node}
    (hvalues : ∀ value ∈ (Call.addInferred subject predicate object context).values, V value) :
    Keeps (WorkChanges (Recording V)) (addInferred subject predicate object context) := by
  intro x hgood h
  refine addInferred_leaves (R := WorkChanges (Recording V))
    (work_changes (keeps_inferredContext Action.createUri_recording))
    (fun c w hknown => ((work_changes (Action.createStatement_recording ?_)).bind
      fun t => store_recording _) _) hgood h
  refine hknown.forall_mem (List.forall_mem_filterMap.mp hvalues) ?_
  intro uri hcreate value hvalue
  have hterm : c.term = _ := (Action.createUri_eq_ok hgood hcreate).1
  simp [Node.newValue?, Node.literal?, hterm] at hvalue

end

/-! Ending -/

theorem recorded_of_idle (hpending : w.conn.pending = none) (hfresh : w.conn.freshNodes = [])
    (hcommitted : w.database.committed.Recorded V)
    (hcaches : w.store.caches.All w.database.committed.Identifies fun _ => True) :
    w.Recorded V := by
  have hview : w.view = w.database.committed := by simp [Workspace.view, hpending]
  exact ⟨hcommitted, hview ▸ hcommitted, hcaches, by simp [hfresh]⟩

theorem recorded_finished [LiteralValue.Lasting V] (hgood : x.work.Good) (h : x.work.Recorded V) :
    x.finished.work.Recorded V := by
  have hnodes : x.finished.work.database.committed.nodes = x.work.view.nodes := by
    show (x.work.conn.pending.elim x.work.database fun t =>
      ⟨x.work.store.counters.persist t, false⟩).committed.nodes = _
    rw [Workspace.view]
    cases x.work.conn.pending <;> rfl
  refine recorded_of_idle rfl rfl (h.view.of_eq hnodes) ?_
  refine Caches.All.publishTo (Caches.All.eraseStatements (S := fun _ => True) (h.caches.imp
    (fun n hn => (h.identifies_of_committed hgood hn).of_eq hnodes) fun _ _ => trivial) ?_) ?_ ?_
  · exact fun _ _ _ _ => trivial
  · exact fun n hn => (h.fresh n hn).of_eq hnodes
  · exact fun _ _ => trivial

theorem recorded_abandoned (h : x.work.Recorded V) : x.abandoned.work.Recorded V :=
  recorded_of_idle rfl rfl h.committed (h.caches.discardFrom _)

end Transaction

namespace Call

variable [LiteralValue.Lasting V] {c : Call} {x : Transaction.Scope}

open Transaction

theorem recording (hends : c.ends = false) (hvalues : ∀ value ∈ c.values, V value) :
    Keeps (WorkChanges (Recording V)) c.run := by
  cases c with
  | uri uri => exact perform_changes (Action.createUri_recording uri)
  | blank label =>
      exact perform_changes fun _ hgood h => (Action.createBlank_ends hgood h label).kept
  | literal value =>
      exact perform_changes fun _ hgood h =>
        (Action.createLiteral_ends hgood h (hvalues _ (List.mem_singleton_self _))).kept
  | string content language =>
      exact perform_changes fun _ hgood h =>
        (Action.createString_ends hgood h (hvalues _ (List.mem_singleton_self _))).kept
  | typed content datatype =>
      exact perform_changes fun _ hgood h =>
        (Action.createTyped_ends hgood h (hvalues _ (List.mem_singleton_self _))).kept
  | statement s p o c =>
      exact perform_changes
        (Action.createStatement_recording (List.forall_mem_filterMap.mp hvalues))
  | add s p o c => exact add_recording hvalues
  | addInferred s p o c => exact addInferred_recording hvalues
  | remove s p o c =>
      refine keeps_whileOpen
        ((work_changes (Action.listStatements_keeps _ _ _ _ _)).bind fun found => ?_)
      exact (Keeps.mapM fun t _ => removeOne_recording t).bind fun _ => .pure _
  | list s p o c inferred => exact perform_changes (Action.listStatements_keeps _ _ _ _ _)
  | contains s p o c =>
      refine keeps_whileOpen ((work_changes (Action.attempt_keeps
        (Action.listStatements_keeps _ _ _ _ _))).bind fun found => ?_)
      cases found with
      | ok found => exact .pure _
      | error e => exact .ite (.pure _) (.throw _)
  | size context => exact perform_changes (Action.countStatements_keeps _)
  | contexts => exact perform_changes Action.listContexts_keeps
  | query q =>
      exact perform_changes (Action.keeps_get.bind fun _ => Action.evaluate_keeps _ _)
  | fetch count results => exact perform_changes (Action.fetch_keeps count results)
  | namespaceByLabel label =>
      exact perform_changes
        ((Action.loadNamespaceByLabel_reads label).silent.quiet.works.recording
        (Action.loadNamespace_leaves _ _))
  | namespaceByUri uri =>
      exact perform_changes ((Action.loadNamespaceByUri_reads uri).silent.quiet.works.recording
        (Action.loadNamespace_leaves _ _))
  | setNamespace label uri =>
      exact recording_of_silent (setNamespace_silent label uri) (setNamespace_leaves label uri)
  | removeNamespace label =>
      exact recording_of_silent (removeNamespace_silent label) (removeNamespace_leaves label)
  | namespaces =>
      exact perform_changes (Action.listNamespaces_reads.silent.quiet.works.recording
        ((Action.keeps_view _).bind fun _ => .mapM fun _ _ => Action.keeps_ofData _))
  | commit | rollback | drop => cases hends

/-- After a call rows are still written for nodes. -/
theorem recorded (hgood : x.work.Good) (h : x.work.Recorded V)
    (hvalues : ∀ value ∈ c.values, V value) :
    (finalState (c.run x)).work.Recorded V := by
  cases hends : c.ends with
  | false => exact (recording hends hvalues x hgood h).recorded
  | true =>
      cases hclosed : x.closed with
      | true => rwa [c.run_of_closed hclosed]
      | false =>
          have habort : (finalState (abort x)).work.Recorded V := by
            rw [abort_eq_abandoned]
            exact recorded_abandoned h
          cases c with
          | commit refusal =>
              by_cases haccepted : refusal = none ∨ x.work.conn.writing = false
              · rw [run, finish_eq_finished hclosed haccepted]
                exact recorded_finished hgood h
              · rw [not_or, Bool.not_eq_false] at haccepted
                obtain ⟨fault, rfl⟩ := Option.ne_none_iff_exists'.mp haccepted.1
                rw [run, finish_eq_abandoned hclosed haccepted.2]
                exact recorded_abandoned h
          | rollback =>
              rw [run, Transaction.rollback, whileOpen_of_open hclosed]
              exact habort
          | drop =>
              have hdrop : Transaction.drop x = abort x := by
                unfold Transaction.drop
                rw [bind_of_ok (a := (get : Operation Scope)) (s := x) rfl, hclosed]
                rfl
              rw [run, hdrop]
              exact habort
          | _ => cases hends

end Call
end QuadStore
