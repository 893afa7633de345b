import QuadStore.Proofs.ClearedCaches
import QuadStore.Proofs.ReferencedNodes

namespace QuadStore

open Transaction

/-- Whether a fault is that a node is missing. -/
def DataFault.missesNode : DataFault → Bool
  | .danglingNode _ => true
  | _ => false

def StoreError.missesNode : StoreError → Bool
  | .data fault => fault.missesNode
  | _ => false

namespace NodeRow

variable {r : NodeRow} {fault : DataFault}

theorem missesNode_checkOffset (h : r.checkOffset = .error fault) : fault.missesNode = false := by
  unfold checkOffset at h
  split at h
  · split at h <;> cases h
    rfl
  · cases h

theorem missesNode_readKind (h : r.readKind = .error fault) : fault.missesNode = false := by
  unfold readKind at h
  split at h <;> cases h
  rfl

theorem missesNode_check {s : Stamp} (h : s.check = .error fault) : fault.missesNode = false := by
  cases s with
  | clock => cases h
  | text written =>
      unfold Stamp.check at h
      dsimp only at h
      split at h <;> cases h
      rfl

theorem missesNode_require {α : Type} {column : String} {value : Option α}
    (h : r.require column value = .error fault) : fault.missesNode = false := by
  cases value <;> cases h
  rfl

theorem missesNode_bind {α β : Type} {x : Except DataFault α} {f : α → Except DataFault β}
    (hx : ∀ fault, x = .error fault → fault.missesNode = false)
    (hf : ∀ v fault, f v = .error fault → fault.missesNode = false)
    (h : (x >>= f) = .error fault) : fault.missesNode = false := by
  cases x with
  | ok v => exact hf v fault h
  | error e =>
      cases h
      exact hx fault rfl

theorem missesNode_readMoment (h : r.readMoment = .error fault) : fault.missesNode = false := by
  refine missesNode_bind (fun _ => missesNode_require) (fun time fault h => ?_) h
  dsimp only at h
  split at h
  · cases h
    rfl
  · split at h
    · exact missesNode_require h
    · cases h
      rfl

theorem missesNode_readTerm {kind : NodeKind} {datatype : Option UriResource}
    (h : r.readTerm kind datatype = .error fault) : fault.missesNode = false := by
  cases kind with
  | uri | blank | string => cases h
  | int | double | boolean =>
      exact missesNode_bind (fun _ => missesNode_require) (by rintro _ _ ⟨⟩) h
  | date => exact missesNode_bind (fun _ => missesNode_readMoment) (by rintro _ _ ⟨⟩) h

theorem missesNode_toNode {kind : NodeKind} {datatype : Option UriResource}
    (h : r.toNode kind datatype = .error fault) : fault.missesNode = false :=
  missesNode_bind (fun _ => missesNode_readTerm)
    (fun _ _ => missesNode_bind (fun _ => missesNode_check) (by rintro _ _ ⟨⟩)) h

end NodeRow

namespace Action

variable {α β : Type} {w : Workspace}

/-- Whether an operation does not fail for want of a node. -/
def FindsNodes (a : Action α) (w : Workspace) : Prop :=
  ∀ e w', a w = .error e w' → e.missesNode = false

theorem findsNodes_pure (v : α) : FindsNodes (pure v) w := by
  rintro e w' ⟨⟩

theorem findsNodes_view (f : Tables → α) : FindsNodes (view f) w := by
  rintro e w' ⟨⟩

theorem findsNodes_throw {e : StoreError} (h : e.missesNode = false) :
    FindsNodes (throw e : Action α) w := by
  rintro e' w' ⟨⟩
  exact h

theorem findsNodes_ofStatement (x : Except StatementFault α) : FindsNodes (ofStatement x) w := by
  cases x with
  | ok v => exact findsNodes_pure v
  | error fault => exact findsNodes_throw rfl

theorem findsNodes_ofData {x : Except DataFault α}
    (h : ∀ fault, x = .error fault → fault.missesNode = false) :
    FindsNodes (ofData x) w := by
  cases x with
  | ok v => exact findsNodes_pure v
  | error fault => exact findsNodes_throw (h fault rfl)

theorem FindsNodes.bind {a : Action α} {f : α → Action β} (ha : FindsNodes a w)
    (hf : ∀ v w₁, a w = .ok v w₁ → FindsNodes (f v) w₁) : FindsNodes (a >>= f) w := by
  intro e w' h
  cases hop : a w with
  | ok v w₁ =>
      rw [bind_of_ok hop] at h
      exact hf v w₁ hop e w' h
  | error e' w₁ =>
      rw [bind_of_error hop] at h
      cases h
      exact ha e w' hop

theorem findsNodes_mapM {f : α → Action β}
    (hreads : ∀ x, Keeps Reads (f x)) {P : Tables → α → Prop}
    (hf : ∀ x w, P w.view x → FindsNodes (f x) w) {xs : List α} (h : ∀ x ∈ xs, P w.view x) :
    FindsNodes (xs.mapM f) w := by
  induction xs generalizing w with
  | nil =>
      rw [List.mapM_nil]
      exact findsNodes_pure _
  | cons x rest ih =>
      rw [List.mapM_cons]
      refine (hf x w (h x (by simp))).bind fun y w₁ hy => ?_
      have hview := ((hreads x).ok hy).view_eq
      refine (ih fun z hz => ?_).bind fun ys w₂ _ => findsNodes_pure _
      rw [hview]
      exact h z (by simp [hz])

theorem findsNodes_cacheNode (n : Node) : FindsNodes (cacheNode n) w := by
  intro e w' h
  unfold cacheNode at h
  split at h
  · rw [bind_of_ok (a := (get : Action Workspace)) (s := w) rfl] at h
    split at h <;> cases h
  · cases h

theorem findsNodes_resolveWith {decode : NodeRow → Action Node}
    (hdecode : ∀ row w, FindsNodes (decode row) w) (id : Int) :
    FindsNodes (resolveWith decode id) w := by
  unfold resolveWith
  refine FindsNodes.bind (by rintro e w' ⟨⟩) fun v w₁ _ => ?_
  split
  · exact findsNodes_pure _
  refine (findsNodes_view _).bind fun row w₂ _ => ?_
  cases row with
  | none => exact findsNodes_pure _
  | some row =>
      exact (hdecode row w₂).bind fun n w₃ _ => (findsNodes_cacheNode n).bind fun _ _ _ =>
        findsNodes_pure _

theorem findsNodes_decodeRow (fuel : Nat) (row : NodeRow) :
    FindsNodes (decodeRow fuel row) w := by
  induction fuel generalizing row w with
  | zero => exact findsNodes_throw rfl
  | succ fuel ih =>
      refine (findsNodes_ofData fun _ => NodeRow.missesNode_checkOffset).bind fun _ w₁ _ => ?_
      refine (findsNodes_ofData fun _ => NodeRow.missesNode_readKind).bind fun kind w₂ _ => ?_
      refine FindsNodes.bind ?_ fun datatype w₃ _ =>
        findsNodes_ofData fun _ => NodeRow.missesNode_toNode
      unfold rowDatatype
      split
      · split
        · refine (findsNodes_resolveWith (fun row w => ih row) _).bind fun found w₃ _ => ?_
          split
          · exact findsNodes_pure _
          · exact findsNodes_throw rfl
        · exact findsNodes_pure _
      · exact findsNodes_pure _

theorem findsNodes_nodeOfRow (row : NodeRow) : FindsNodes (nodeOfRow row) w :=
  (findsNodes_view _).bind fun _ _ _ => findsNodes_decodeRow _ row

theorem findsNodes_nodeOfRow? (row : Option NodeRow) : FindsNodes (nodeOfRow? row) w := by
  cases row with
  | none => exact findsNodes_pure _
  | some row => exact (findsNodes_nodeOfRow row).bind fun _ _ _ => findsNodes_pure _

theorem findsNodes_loadNode (n : Node) : FindsNodes (loadNode n) w := by
  unfold loadNode
  split
  · exact (findsNodes_view _).bind fun row _ _ => findsNodes_nodeOfRow? row
  · exact (findsNodes_view _).bind fun row _ _ => findsNodes_nodeOfRow? row
  · split
    · split
      · exact findsNodes_pure _
      · exact (findsNodes_view _).bind fun row _ _ => findsNodes_nodeOfRow? row
    · exact (findsNodes_view _).bind fun row _ _ => findsNodes_nodeOfRow? row

theorem findsNodes_slotIds (slots : List (Option Node)) : FindsNodes (slotIds slots) w := by
  induction slots generalizing w with
  | nil => exact findsNodes_pure _
  | cons slot rest ih =>
      cases slot with
      | none => exact ih.bind fun _ _ _ => findsNodes_pure _
      | some n =>
          refine FindsNodes.bind ?_ fun id w₁ _ => ?_
          · unfold nodeId
            split
            · exact findsNodes_pure _
            · exact (findsNodes_loadNode n).bind fun _ _ _ => findsNodes_pure _
          · split
            · exact ih.bind fun _ _ _ => findsNodes_pure _
            · exact findsNodes_pure _

theorem findsNodes_requireNode {id : Int} (h : id ∈ w.view.nodeIds) :
    FindsNodes (requireNode id) w := by
  refine (findsNodes_resolveWith (fun row _ => findsNodes_nodeOfRow row) id).bind
    fun found w₁ hfound => ?_
  cases found with
  | some n => exact findsNodes_pure _
  | none =>
      -- Nothing is cached under the id then, and no row has it.
      obtain ⟨_, w₂, hget, hfound⟩ := bind_eq_ok_iff.mp hfound
      obtain ⟨rfl, rfl⟩ := get_eq_ok_iff.mp hget
      cases hcached : w.store.caches.node.get? id with
      | some cached =>
          rw [hcached] at hfound
          cases hfound
      | none =>
      rw [hcached] at hfound
      obtain ⟨row, w₂, hview, hfound⟩ := bind_eq_ok_iff.mp hfound
      obtain ⟨hfind, rfl⟩ := view_eq_ok_iff.mp hview
      cases row with
      | none =>
          obtain ⟨r, hr, hid⟩ := List.mem_map.mp h
          have hnone := List.find?_eq_none.mp hfind r hr
          simp [hid] at hnone
      | some row =>
          obtain ⟨n, w₃, -, hfound⟩ := bind_eq_ok_iff.mp hfound
          obtain ⟨_, w₄, -, hfound⟩ := bind_eq_ok_iff.mp hfound
          cases hfound

theorem findsNodes_statementOfRow {row : StatementRow}
    (h : ∀ id ∈ row.key.slots, id ∈ w.view.nodeIds) :
    FindsNodes (statementOfRow row) w := by
  have slot : ∀ {id : Int} {f : Node → Action Statement} {w₁ : Workspace}, id ∈ row.key.slots →
      w₁.view = w.view → (∀ n w₂, w₂.view = w.view → FindsNodes (f n) w₂) →
        FindsNodes (requireNode id >>= f) w₁ := by
    intro id f w₁ hid hview hf
    refine (findsNodes_requireNode (by rw [hview]; exact h id hid)).bind fun n w₂ hn => hf n w₂ ?_
    exact ((requireNode_reads id).ok hn).view_eq.trans hview
  refine slot (.head _) rfl fun subject w₁ hview₁ => ?_
  refine slot (.tail _ (.head _)) hview₁ fun predicate w₂ hview₂ => ?_
  refine slot (.tail _ (.tail _ (.head _))) hview₂ fun object w₃ hview₃ => ?_
  refine slot (.tail _ (.tail _ (.tail _ (.head _)))) hview₃ fun context w₄ _ => ?_
  have made : ∀ (creator : Option Node) (w₅ : Workspace), FindsNodes (do
      let t ← ofStatement (Statement.make subject predicate object (some context))
      ofData row.created.check
      ofData (row.deletedAt.forM Stamp.check)
      pure { t with
        id := row.id, creator, inferred := row.isInferred, deleted := !row.live,
        deletionTimed := row.deletedAt.isSome } : Action Statement) w₅ := by
    intro creator w₅
    refine (findsNodes_ofStatement _).bind fun t w₆ _ => ?_
    refine (findsNodes_ofData fun _ => NodeRow.missesNode_check).bind fun _ w₇ _ => ?_
    refine (findsNodes_ofData fun fault hfault => ?_).bind fun _ _ _ => findsNodes_pure _
    cases hdeleted : row.deletedAt with
    | none =>
        rw [hdeleted] at hfault
        cases hfault
    | some s =>
        rw [hdeleted] at hfault
        exact NodeRow.missesNode_check hfault
  dsimp only
  cases row.creator with
  | none => exact (findsNodes_pure _).bind fun creator w₅ _ => made creator w₅
  | some id =>
      exact (findsNodes_resolveWith (fun row _ => findsNodes_nodeOfRow row) id).bind
        fun creator w₅ _ => made creator w₅

theorem findsNodes_listStatements (h : w.view.Refers)
    (subject predicate object context : Option Node)
    (includeInferred : Bool) :
    FindsNodes (listStatements subject predicate object context includeInferred) w := by
  refine (findsNodes_slotIds _).bind fun ids w₁ hids => ?_
  have hview₁ := ((slotIds_reads _).ok hids).view_eq
  cases ids with
  | none => exact findsNodes_pure _
  | some ids =>
      refine (findsNodes_view _).bind fun rows w₂ hrows => ?_
      obtain ⟨rfl, rfl⟩ := view_eq_ok_iff.mp hrows
      refine findsNodes_mapM statementOfRow_reads (P :=
        fun t r => ∀ id ∈ r.key.slots, id ∈ t.nodeIds)
        (fun _ _ => findsNodes_statementOfRow) fun r hr => ?_
      rw [hview₁] at hr ⊢
      refine h r ?_
      rw [List.mem_filter, Tables.liveStatements, List.mem_mergeSort, List.mem_filter] at hr
      exact hr.1.1

theorem findsNodes_listContexts (h : w.view.Refers) : FindsNodes listContexts w := by
  refine (findsNodes_view _).bind fun ids w₁ hids => ?_
  obtain ⟨rfl, rfl⟩ := view_eq_ok_iff.mp hids
  refine findsNodes_mapM requireNode_reads (P := fun t id => id ∈ t.nodeIds)
    (fun _ _ => findsNodes_requireNode) fun id hid => ?_
  rw [List.mem_mergeSort, List.mem_eraseDups, List.mem_map] at hid
  obtain ⟨r, hr, rfl⟩ := hid
  rw [Tables.liveStatements, List.mem_mergeSort, List.mem_filter] at hr
  exact h r hr.1 _ (by simp [StatementKey.slots, StatementRow.key])

end Action

/-- Whether a call lists statements or contexts. -/
def Call.lists : Call → Bool
  | .list _ _ _ _ _ | .contexts => true
  | _ => false

/-- How a call fails, if it does. -/
def Call.failure? (c : Call) (x : Scope) : Option StoreError :=
  match c.run x with
  | .ok _ _ => none
  | .error e _ => some e

theorem Call.failure?_eq_none {c : Call} {x y : Scope} {v : c.Answer} (h : c.run x = .ok v y) :
    c.failure? x = none := by
  rw [failure?, h]

theorem Transaction.findsNodes_perform {α : Type} {a : Action α} {x y : Scope} {e : StoreError}
    (ha : Action.FindsNodes a x.work) (h : perform a x = .error e y) : e.missesNode = false := by
  cases hclosed : x.closed with
  | true =>
      rw [perform, whileOpen_of_closed hclosed] at h
      cases h
      rfl
  | false =>
      rw [perform, whileOpen_of_open hclosed] at h
      cases hop : a x.work with
      | ok v w =>
          rw [work_of_ok hop] at h
          cases h
      | error e' w =>
          rw [work_of_error hop] at h
          cases h
          exact ha e w hop

theorem Call.findsNodes {c : Call} (hlists : c.lists = true) {x : Scope} {e : StoreError}
    (hrefers : x.work.view.Refers) (h : c.failure? x = some e) : e.missesNode = false := by
  unfold failure? at h
  split at h
  · cases h
  rename_i e' y h'
  cases h
  cases c with
  | list s p o c inferred =>
      exact findsNodes_perform (Action.findsNodes_listStatements hrefers s p o c inferred) h'
  | contexts => exact findsNodes_perform (Action.findsNodes_listContexts hrefers) h'
  | _ => cases hlists

namespace OpenStore

variable {s : OpenStore} {log : List Event}
variable {config : Config} {tables : Tables} {registryFile : RegistryFile} {labelStart : String}

/-- As long as every node with an id that is put into a statement has a row that its transaction
sees, the slots of all committed rows have the ids of committed rows of nodes, and neither
statements nor contexts fail to be listed for want of a node. -/
theorem references_kept (hsound : tables.Sound) (hrefers : tables.Refers)
    (h : (opened config tables registryFile labelStart).Run log s)
    (hgrounded : ∀ e ∈ log, e.Grounded) :
    s.database.committed.Refers ∧ ∀ i x, s.scope? i = some x → ∀ c : Call, c.lists = true →
      ∀ e, c.failure? x = some e → e.missesNode = false := by
  have hs := refers_run (good_opened config hsound registryFile labelStart)
    (refers_opened hrefers) h hgrounded
  exact ⟨hs.committed, fun i x hx c hlists e hfailure =>
    Call.findsNodes hlists (hs.scopes i x hx) hfailure⟩

/-- A node that was stored by a transaction that has committed is put into a
statement by another one. -/
theorem references_kept_after_commit :
    let a : Node := ⟨1, .uri "urn:a"⟩
    let s := (opened {} {} [] "w").begin.after 0 (.uri "urn:a") |>.after 0 (.commit none)
      |>.begin.after 1 (.add a a a none) |>.after 1 (.commit none)
    s.database.committed.Refers ∧ s.database.committed.statements ≠ [] := by
  intro a s
  have hrun := Run.nil (s := opened {} {} [] "w") |>.snoc .begin |>.call 0 (.uri "urn:a")
    |>.call 0 (.commit none) |>.snoc .begin |>.call 1 (.add a a a none) |>.call 1 (.commit none)
  exact ⟨(references_kept Tables.sound_empty Tables.refers_empty hrun (by decide +kernel)).1,
    by decide +kernel⟩

/-- A node that was stored by a transaction that was rolled back can still be put into a
statement, whose row refers to no row of a node then, and statements cannot be listed any more. -/
theorem references_lost_after_rollback :
    let a : Node := ⟨1, .uri "urn:a"⟩
    let t := (opened {} {} [] "w").begin.after 0 (.uri "urn:a")
    let s := t.after 0 .rollback |>.begin.after 1 (.add a a a none)
      |>.after 1 (.commit none) |>.begin
    ∃ log log', (opened {} {} [] "w").Run log t ∧ Event.Answered log 0 a ∧ t.Run log' s ∧
      ¬s.database.committed.Refers ∧ ((s.scope? 2).bind
        (Call.list none none none none true).failure?) = some (.data (.danglingNode 1)) := by
  intro a t s
  have hrun := Run.nil (s := opened {} {} [] "w") |>.snoc .begin |>.call 0 (.uri "urn:a")
  have hrun' := Run.nil (s := t) |>.call 0 .rollback |>.snoc .begin |>.call 1 (.add a a a none)
    |>.call 1 (.commit none) |>.snoc .begin
  exact ⟨_, _, hrun, ⟨_, .tail _ (.head _), .head _⟩, hrun', by decide +kernel,
    by decide +kernel⟩

end OpenStore
end QuadStore
