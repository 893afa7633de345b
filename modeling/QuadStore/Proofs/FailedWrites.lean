import QuadStore.Proofs.InPlace
import QuadStore.Proofs.Settlement

namespace QuadStore

/-- What a step leaves that changes nothing a connection sees in the tables. -/
def SameView (w w' : Workspace) : Prop :=
  w'.view = w.view

instance : IsPreorder Workspace SameView where
  refl _ := rfl
  trans _ _ _ h h' := Eq.trans h' h

theorem Keeps.sameView {α : Type} {a : Action α} (h : Keeps Reads a) : Keeps SameView a :=
  h.mono fun _ _ => Reads.view_eq

namespace Action

variable {w w' : Workspace} {e : StoreError}

theorem beginWrite_sameView : Keeps SameView beginWrite := by
  intro w
  cases h : beginWrite w with
  | ok u w' => exact (beginWrite_eq_ok h).2
  | error e w' =>
      unfold beginWrite at h
      rw [bind_of_ok (a := (get : Action Workspace)) (s := w) rfl] at h
      dsimp only at h
      split at h
      · split at h <;> cases h
        rfl
      · cases h

theorem nextId_sameView (s : Sequence) : Keeps SameView (nextId s) :=
  fun _ => rfl

theorem checkDatatype_sameView (n : Node) : Keeps SameView (checkDatatype n) := by
  unfold checkDatatype
  split
  · exact .ite (.throw _) (.pure _)
  · exact .pure _

theorem storeNode_failing (n : Node) : KeepsFailing SameView (storeNode n) := by
  unfold storeNode
  split
  · exact (Keeps.pure n).failing
  refine .bind (checkDatatype_sameView n) fun _ => .bind beginWrite_sameView fun _ => ?_
  refine .bind (nextId_sameView .nodes) fun id => .bind (keeps_view _) fun tables => ?_
  cases tables with
  | some tables => rintro w e w' ⟨⟩
  | none =>
      -- The row of a node that conflicts is only read, and then it is adopted or cannot be.
      refine .bind (loadNode_reads n).sameView fun existing => ?_
      cases existing with
      | some existing => rintro w e w' ⟨⟩
      | none =>
          rintro w e w' ⟨⟩
          rfl

theorem deleteStatement_failing (t : Statement) : KeepsFailing SameView (deleteStatement t) := by
  intro w e w' h
  by_cases hid : 0 ≤ t.id
  · cases hbegin : beginWrite w with
    | error e₁ w₁ =>
        rw [deleteStatement_error hid hbegin] at h
        cases h
        exact beginWrite_sameView.error hbegin
    | ok u w₁ =>
        obtain ⟨t', removed, hop, -⟩ := deleteStatement_eq hid hbegin
        rw [hop] at h
        cases h
  · unfold deleteStatement at h
    rw [if_pos (by omega)] at h
    cases h

theorem storeNamespace_failing (ns : Namespace) : KeepsFailing SameView (storeNamespace ns) := by
  refine .bind beginWrite_sameView fun _ => .bind (nextId_sameView .namespaces) fun id => ?_
  refine .bind keeps_get fun w => .bind (keeps_ofData _) fun tables => ?_
  rintro w e w' ⟨⟩

theorem checkStorable_of_not_seated {t : Statement} (h : ¬t.Seated) :
    ∃ e, checkStorable t w = .error e w := by
  unfold checkStorable
  cases hcontext : t.context with
  | none => exact ⟨_, rfl⟩
  | some c =>
      dsimp only
      split
      · exact ⟨_, rfl⟩
      · rename_i hids
        simp only [Bool.or_eq_true, decide_eq_true_eq] at hids
        exact absurd ⟨⟨c, hcontext, by omega⟩, by omega, by omega, by omega⟩ h

end Action

namespace InPlace

variable {ν α : Type} {w w' : Workspace} {v v' : ν} {e : StoreError}

/-- Whether a write on a value, when it fails, leaves the value and what the
connection sees as they were. -/
def FailsClean (op : InPlace ν α) (w : Workspace) (v : ν) : Prop :=
  ∀ e w' v', op (w, v) = .error e (w', v') → v' = v ∧ w'.view = w.view

theorem settle_eq_error {a : Action (ν × α)} (h : settle a (w, v) = .error e (w', v')) :
    a w = .error e w' ∧ v' = v := by
  unfold settle at h
  cases ha : a w with
  | ok x w₁ =>
      rw [ha] at h
      cases h
  | error e₁ w₁ =>
      rw [ha] at h
      cases h
      exact ⟨rfl, rfl⟩

theorem FailsClean.of_settle {op : InPlace ν α} {a : Action (ν × α)}
    (heq : op (w, v) = settle a (w, v)) (h : KeepsFailing SameView a) : op.FailsClean w v := by
  intro e w' v' herror
  obtain ⟨ha, hv⟩ := settle_eq_error (heq.symm.trans herror)
  exact ⟨hv, h w e w' ha⟩

theorem failing_map {a : Action α} {f : α → ν × β} (h : KeepsFailing SameView a) :
    KeepsFailing SameView (f <$> a) := by
  intro w e w' hmap
  rw [map_eq_pure_bind] at hmap
  cases ha : a w with
  | ok x w₁ =>
      rw [bind_of_ok ha] at hmap
      cases hmap
  | error e₁ w₁ =>
      rw [bind_of_error ha] at hmap
      cases hmap
      exact h w e w' ha

theorem storeNode_failsClean (n : Node) : storeNode.FailsClean w n :=
  .of_settle (storeNode_eq n w) (failing_map (Action.storeNode_failing n))

theorem storeNamespace_failsClean (ns : Namespace) : storeNamespace.FailsClean w ns :=
  .of_settle (storeNamespace_eq ns w) (failing_map (Action.storeNamespace_failing ns))

theorem deleteStatement_failsClean (t : Statement) : deleteStatement.FailsClean w t :=
  .of_settle (deleteStatement_eq t w) (Action.deleteStatement_failing t)

theorem storeStatement_eq_error {t t' : Statement}
    (h : storeStatement (w, t) = .error e (w', t')) :
    w'.view = w.view ∧ (¬t.Seated ∧ t' = t ∨
      t.Seated ∧ t' = { t with id := (t.firstTried w.store.counters.statements).1 }) := by
  unfold storeStatement at h
  by_cases hseated : t.Seated
  · let first := t.firstTried w.store.counters.statements
    let w₁ : Workspace := { w with store := { w.store with
      counters := w.store.counters.set first.2 .statements } }
    have hidentify : identify (w, t) = .ok () (w₁, { t with id := first.1 }) :=
      identify_of_ok (Action.identify_of_seated hseated w)
    rw [bind_of_ok hidentify, storeIdentified_eq] at h
    obtain ⟨hstore, rfl⟩ := settle_eq_error h
    have hview : w'.view = w₁.view := Action.storeIdentified_failing Action.beginWrite_sameView
      (fun id => (Action.loadStatement_reads id).sameView) _ _ _ _ hstore
    exact ⟨hview, .inr ⟨hseated, rfl⟩⟩
  · obtain ⟨e₁, hcheck⟩ := Action.checkStorable_of_not_seated (w := w) hseated
    have hidentify : identify (w, t) = .error e₁ (w, t) :=
      identify_of_error (bind_of_error hcheck)
    rw [bind_of_error hidentify] at h
    cases h
    exact ⟨rfl, .inl ⟨hseated, rfl⟩⟩

/-- When storing a node, a statement or a binding or deleting a statement fails, then the node,
statement or binding is unchanged, and so is what the connection sees in the tables, whatever the
database, the lock and the connection were. The exception is storing a statement without an id
that has a context and only stored nodes: its id is the next one of the counter then. -/
theorem failed_writes_change_nothing (w : Workspace) :
    (∀ n, storeNode.FailsClean w n) ∧ (∀ ns, storeNamespace.FailsClean w ns) ∧
      (∀ t, deleteStatement.FailsClean w t) ∧
      (∀ t : Statement, 0 ≤ t.id ∨ ¬t.Seated → storeStatement.FailsClean w t) ∧
      ∀ t : Statement, t.id < 0 → t.Seated →
      ∀ e w' t', storeStatement (w, t) = .error e (w', t') →
        w'.view = w.view ∧ t' = { t with id := w.store.counters.statements + 1 } := by
  refine ⟨storeNode_failsClean, storeNamespace_failsClean, deleteStatement_failsClean, ?_, ?_⟩
  · intro t ht e w' t' h
    obtain ⟨hview, ⟨-, rfl⟩ | ⟨hseated, rfl⟩⟩ := storeStatement_eq_error h
    · exact ⟨rfl, hview⟩
    · have hid : ¬t.id < 0 := by
        have hnonneg := ht.resolve_right (not_not_intro hseated)
        omega
      rw [Statement.firstTried, if_neg hid]
      exact ⟨rfl, hview⟩
  · intro t hid hseated e w' t' h
    obtain ⟨hview, ⟨hnot, -⟩ | ⟨-, rfl⟩⟩ := storeStatement_eq_error h
    · exact absurd hseated hnot
    · rw [Statement.firstTried, if_pos hid]
      exact ⟨hview, rfl⟩

/-- A connection to a database that another one has locked. -/
def beforeLock : Workspace :=
  ⟨{ committed := { nodes := [.ofNode 1 (.uri "urn:a")] }, locked := true }, [], .make {} {} "w",
    { transaction := 1 }⟩

/-- A statement of a stored node with the given id. -/
def ofOneNode (id : Int) : Statement :=
  let a : Node := ⟨1, .uri "urn:a"⟩
  ⟨id, a, a, a, some a, none, false, false, false, false⟩

theorem failed_writes_change_nothing_before_lock :
    (∃ w', storeNode (beforeLock, .uri "urn:b") = .error (.data .locked) (w', .uri "urn:b") ∧
      w'.view = beforeLock.view) ∧
    (∃ w', storeNamespace (beforeLock, .make "p" "urn:u") =
      .error (.data .locked) (w', .make "p" "urn:u") ∧
      w'.view = beforeLock.view) ∧
    (∃ w', deleteStatement (beforeLock, ofOneNode 1) = .error (.data .locked) (w', ofOneNode 1) ∧
      w'.view = beforeLock.view) ∧
    (∃ w', storeStatement (beforeLock, ofOneNode 7) = .error (.data .locked) (w', ofOneNode 7) ∧
      w'.view = beforeLock.view) ∧
    ∃ w', storeStatement (beforeLock, ofOneNode (-1)) = .error (.data .locked) (w', ofOneNode 1) ∧
      w'.view = beforeLock.view := by
  obtain ⟨hnode, hnamespace, hdelete, hstore, htransient⟩ :=
    failed_writes_change_nothing beforeLock
  have hseated : (ofOneNode (-1)).Seated := ⟨⟨_, rfl, by decide⟩, by decide, by decide, by decide⟩
  have nodeFails : storeNode (beforeLock, .uri "urn:b") =
    .error (.data .locked) (_, .uri "urn:b") := rfl
  have namespaceFails : storeNamespace (beforeLock, .make "p" "urn:u") =
      .error (.data .locked) (_, .make "p" "urn:u") := rfl
  have deleteFails : deleteStatement (beforeLock, ofOneNode 1) =
    .error (.data .locked) (_, ofOneNode 1) := rfl
  have storeFails : storeStatement (beforeLock, ofOneNode 7) =
    .error (.data .locked) (_, ofOneNode 7) := rfl
  have transientFails : storeStatement (beforeLock, ofOneNode (-1)) =
      .error (.data .locked) (_, ofOneNode 1) := rfl
  exact ⟨⟨_, nodeFails, (hnode _ _ _ _ nodeFails).2⟩,
    ⟨_, namespaceFails, (hnamespace _ _ _ _ namespaceFails).2⟩,
    ⟨_, deleteFails, (hdelete _ _ _ _ deleteFails).2⟩,
    ⟨_, storeFails, (hstore _ (.inl (by decide)) _ _ _ storeFails).2⟩,
    _, transientFails, (htransient _ (by decide) hseated _ _ _ transientFails).1⟩

/-- Storing fails since the database is locked, and the statement has an
id that it did not have. -/
theorem id_left_by_failed_write :
    ∃ w', storeStatement (beforeLock, ofOneNode (-1)) = .error (.data .locked) (w', ofOneNode 1) ∧
      ofOneNode 1 ≠ ofOneNode (-1) :=
  ⟨_, rfl, by decide⟩

end InPlace
end QuadStore
