import QuadStore.Proofs.FaithfulCaches
import QuadStore.Proofs.NodeWork

namespace QuadStore

/-- Whether an operation relates the state before it to the one after it when it fails, and when
what it answers satisfies a condition. -/
def KeepsIf {ε σ α : Type} (F : α → Prop) (R : σ → σ → Prop) (a : EStateM ε σ α) : Prop :=
  ∀ s, (∀ v s', a s = .ok v s' → F v → R s s') ∧ ∀ e s', a s = .error e s' → R s s'

namespace KeepsIf

variable {ε σ α β : Type} {F : β → Prop}

theorem bind {R : σ → σ → Prop} [IsPreorder σ R] {a : EStateM ε σ α} {f : α → EStateM ε σ β}
    (ha : Keeps R a) (hf : ∀ x, KeepsIf F R (f x)) : KeepsIf F R (a >>= f) := by
  refine fun s => ⟨fun v s' h hv => ?_, KeepsFailing.bind ha (fun x s₁ => (hf x s₁).2) s⟩
  obtain ⟨x, s₁, hx, h⟩ := bind_eq_ok_iff.mp h
  exact IsTrans.trans _ _ _ (ha.ok hx) ((hf x s₁).1 v s' h hv)

open Transaction in
theorem whileOpen {R : Scope → Scope → Prop} [IsPreorder Scope R]
    {op : Operation β} (h : KeepsIf F R op) :
    KeepsIf F R (Transaction.whileOpen op) := by
  intro x
  cases hclosed : x.closed with
  | false =>
      rw [whileOpen_of_open hclosed]
      exact h x
  | true =>
      rw [whileOpen_of_closed hclosed]
      refine ⟨?_, ?_⟩
      · rintro v x' ⟨⟩
      · rintro e x' ⟨⟩
        exact refl x

end KeepsIf

/-- Whether the marks of a statement are those of a row, and it is not marked as new. -/
structure Statement.ReadFrom (t : Statement) (r : StatementRow) : Prop where
  deleted : t.deleted = !r.live
  timed : t.deletionTimed = r.deletedAt.isSome
  known : t.isNew = false

theorem Action.readFrom_of_statementOfRow {r : StatementRow} {w w' : Workspace} {t : Statement}
    (h : statementOfRow r w = .ok t w') : t.ReadFrom r := by
  obtain ⟨subject, w₁, -, h⟩ := bind_eq_ok_iff.mp h
  obtain ⟨predicate, w₂, -, h⟩ := bind_eq_ok_iff.mp h
  obtain ⟨object, w₃, -, h⟩ := bind_eq_ok_iff.mp h
  obtain ⟨context, w₄, -, h⟩ := bind_eq_ok_iff.mp h
  cases hcreator : r.creator <;> rw [hcreator] at h
  all_goals
    obtain ⟨creator, w₅, -, h⟩ := bind_eq_ok_iff.mp h
    obtain ⟨made, w₆, hmade, h⟩ := bind_eq_ok_iff.mp h
    obtain ⟨_, w₇, -, h⟩ := bind_eq_ok_iff.mp h
    obtain ⟨_, w₈, -, h⟩ := bind_eq_ok_iff.mp h
    obtain ⟨rfl, -⟩ := pure_eq_ok_iff.mp h
    obtain rfl := make_eq_ok (ofStatement_eq_ok_iff.mp hmade).1
    exact ⟨rfl, rfl, rfl⟩

/-- Conditions on rows, on cached copies and on copies that await publication which reading and
deleting rows keep to. -/
class Marking (P : StatementRow → Prop) (C F : Statement → Prop) : Prop where
  read : ∀ {r : StatementRow} {t : Statement}, P r → t.ReadFrom r → C t ∧ F t
  delete : ∀ {r : StatementRow}, P r → P r.mark

/-- Whether the rows of some tables satisfy a condition. -/
def Tables.Marked (t : Tables) (P : StatementRow → Prop) : Prop :=
  ∀ r ∈ t.statements, P r

/-- Whether the cached copies of statements satisfy a condition. -/
def Caches.Marked (c : Caches) (C : Statement → Prop) : Prop :=
  c.All (fun _ => True) C

theorem Caches.Marked.of_same {c c' : Caches} {C : Statement → Prop} (h : c.Marked C)
    (hsame : c'.statement = c.statement) : c'.Marked C :=
  ⟨fun _ _ _ => trivial, fun _ _ _ => trivial, fun _ _ _ => trivial, fun _ _ _ => trivial,
    hsame ▸ h.statement⟩

/-- Whether rows, cached copies and those that await publication satisfy some conditions. -/
structure Workspace.Marked (w : Workspace) (P : StatementRow → Prop)
    (C F : Statement → Prop) : Prop where
  committed : w.database.committed.Marked P
  rows : w.view.Marked P
  cached : w.store.caches.Marked C
  fresh : ∀ t ∈ w.conn.freshStatements, F t

/-- Whether rows and copies that satisfy some conditions go on to. -/
def KeepsMarks (P : StatementRow → Prop) (C F : Statement → Prop) (w w' : Workspace) : Prop :=
  w.Marked P C F → w'.Marked P C F

variable {P : StatementRow → Prop} {C F : Statement → Prop} {w w' : Workspace}

instance : IsPreorder Workspace (KeepsMarks P C F) where
  refl _ h := h
  trans _ _ _ h h' hw := h' (h hw)

namespace KeepsMarks

theorem of_same (hcommitted : w'.database.committed = w.database.committed)
    (hrows : w'.view.statements = w.view.statements)
    (hcached : w'.store.caches.statement = w.store.caches.statement)
    (hfresh : w'.conn.freshStatements = w.conn.freshStatements) : KeepsMarks P C F w w' :=
  fun h => ⟨hcommitted ▸ h.committed, fun r hr => h.rows r (hrows ▸ hr), h.cached.of_same hcached,
    hfresh ▸ h.fresh⟩

theorem of_apart (h : Apart w w') : KeepsMarks P C F w w' :=
  of_same h.committed h.statements h.statement h.freshStatements

theorem cacheNode (n : Node) : KeepsMarks P C F w (finalState (Action.cacheNode n w)) := by
  unfold Action.cacheNode
  split
  · rw [bind_of_ok (a := (get : Action Workspace)) (s := w) rfl]
    split
    · exact of_same rfl rfl rfl rfl
    · exact fun h => ⟨h.committed, h.rows, h.cached.addNode trivial, h.fresh⟩
  · exact refl w

instance : AllowsStoring (KeepsMarks P C F) where
  cacheNode _ := cacheNode _
  apart := of_apart
  insertNode _ hinsert := by
    obtain ⟨rfl, -⟩ := Tables.insertNode?_eq_some hinsert
    exact of_same rfl rfl rfl rfl
  keepNode _ _ := of_same rfl rfl rfl rfl

theorem storeNamespace (ns : Namespace) :
    Keeps (KeepsMarks P C F) (Action.storeNamespace ns) := by
  refine (Action.storing_of_apart Action.beginWrite_apart).bind fun _ => ?_
  refine (Action.storing_of_apart (Action.nextId_apart .namespaces)).bind fun id => ?_
  refine Action.keeps_get.bind_of fun w v w₁ hget => ?_
  obtain ⟨rfl, rfl⟩ := Action.get_eq_ok_iff.mp hget
  refine finalState_bind (Action.keeps_ofData _ w) fun t w₁ hfound => ?_
  obtain ⟨hinsert, rfl⟩ := Action.ofData_eq_ok_iff.mp hfound
  obtain ⟨rfl, -⟩ := Tables.insertNamespace_eq_ok_iff.mp hinsert
  exact of_same rfl rfl rfl rfl

theorem deleteNamespace (ns : Namespace) :
    Keeps (KeepsMarks P C F) (Action.deleteNamespace ns) := by
  refine (Action.storing_of_apart Action.beginWrite_apart).bind fun _ =>
    (Action.keeps_view _).bind_of fun w t w₁ hview => ?_
  obtain ⟨rfl, rfl⟩ := Action.view_eq_ok_iff.mp hview
  exact of_same rfl rfl rfl rfl

theorem cacheStatement {t : Statement} (hC : C t) (hF : F t) :
    KeepsMarks P C F w (finalState (Action.cacheStatement t w)) := by
  unfold Action.cacheStatement
  rw [bind_of_ok (a := (get : Action Workspace)) (s := w) rfl]
  split
  · refine fun h => ⟨h.committed, h.rows, h.cached, fun u hu => ?_⟩
    rcases List.mem_append.mp hu with hu | hu
    · exact h.fresh u hu
    · rwa [List.mem_singleton.mp hu]
  · exact fun h => ⟨h.committed, h.rows, h.cached.addStatement hC, h.fresh⟩

variable [Marking P C F]

theorem loadStatement (id : Int) : Keeps (KeepsMarks P C F) (Action.loadStatement id) := by
  refine Action.keeps_get.bind fun _ => ?_
  split
  · exact .pure _
  refine (Action.keeps_view _).bind_of fun w row w₁ hview hmarked => ?_
  obtain ⟨hfind, rfl⟩ := Action.view_eq_ok_iff.mp hview
  cases row with
  | none => exact hmarked
  | some row =>
      have hrow : P row := hmarked.rows row (List.mem_of_find?_eq_some hfind)
      refine finalState_bind (R :=
        KeepsMarks P C F) (Action.statementOfRow_keeps row w) (fun t w₁ ht => ?_)
        hmarked
      obtain ⟨hC, hF⟩ : C t ∧ F t := Marking.read hrow (Action.readFrom_of_statementOfRow ht)
      exact finalState_bind (cacheStatement hC hF) fun _ w₂ _ => Keeps.pure _ w₂

theorem deleteStatement (t : Statement) :
    Keeps (KeepsMarks P C F) (Action.deleteStatement t) := by
  intro w
  by_cases hid : 0 ≤ t.id
  · cases hbegin : Action.beginWrite w with
    | error e w₁ =>
        rw [Action.deleteStatement_error hid hbegin]
        exact of_apart (Action.beginWrite_apart.error hbegin)
    | ok u w₁ =>
        obtain ⟨t', removed, hop, -⟩ := Action.deleteStatement_eq hid hbegin
        rw [hop]
        refine IsTrans.trans _ _ _ (of_apart (Action.beginWrite_apart.ok hbegin)) fun h => ?_
        refine ⟨h.committed, fun r hr => ?_, h.cached,
          fun u hu => h.fresh u (List.mem_filter.mp hu).1⟩
        rcases Tables.mem_withDeleted_iff.mp hr with ⟨hr, -⟩ | ⟨r', hr', -, -, rfl⟩
        · exact h.rows r hr
        · exact Marking.delete C F (h.rows r' hr')
  · unfold Action.deleteStatement
    rw [if_pos (by omega)]
    exact refl w

instance : AllowsSteps (KeepsMarks P C F) where
  loadStatement := loadStatement
  apart := of_apart
  deleteStatement := deleteStatement
  storeNamespace := storeNamespace
  deleteNamespace := deleteNamespace

/-- Storing a statement keeps to the conditions if they allow the row and
the copy that it may add. -/
theorem storeIdentified {t t' : Statement} {added : Bool} (hrow : P (.ofStatement t'))
    (hfresh : added = true → F t') (h : Action.storeIdentified t w = .ok (t', added) w') :
    KeepsMarks P C F w w' := by
  obtain ⟨_, w₁, hbegin, h⟩ := bind_eq_ok_iff.mp h
  refine IsTrans.trans _ _ _ (of_apart (Action.beginWrite_apart.ok hbegin)) ?_
  obtain ⟨live, w₂, hlive, h⟩ := bind_eq_ok_iff.mp h
  obtain rfl : w₁ = w₂ := (Action.view_eq_ok_iff.mp hlive).2
  cases live with
  | some existing =>
      obtain ⟨stored, w₃, hload, h⟩ := bind_eq_ok_iff.mp h
      have hloaded : KeepsMarks P C F w₁ w₃ := (loadStatement existing).ok hload
      cases stored <;>
      · obtain ⟨-, rfl⟩ := pure_eq_ok_iff.mp h
        exact hloaded
  | none =>
      obtain ⟨id, counter, hinsert, -⟩ :=
        Action.insertRow_eq (Action.liveStatementId_eq_none hlive)
      dsimp only at h
      rw [bind_of_ok hinsert] at h
      cases h
      refine fun hmarked => ⟨hmarked.committed, fun r hr => ?_, hmarked.cached, fun u hu => ?_⟩
      · rcases List.mem_append.mp hr with hr | hr
        · exact hmarked.rows r hr
        · rwa [List.mem_singleton.mp hr]
      · rcases List.mem_append.mp hu with hu | hu
        · exact hmarked.fresh u hu
        · rw [List.mem_singleton.mp hu]
          exact hfresh rfl

theorem storeIdentified_failing (t : Statement) :
    KeepsFailing (KeepsMarks P C F) (Action.storeIdentified t) :=
  Action.storeIdentified_failing (fun w => of_apart (Action.beginWrite_apart w)) loadStatement t

open Transaction in
theorem store (hrow : ∀ t, P (.ofStatement t)) (t : Statement) :
    KeepsIf F (WorkChanges (KeepsMarks P C F)) (Transaction.store t) := by
  have identified : Keeps (KeepsMarks P C F) (Action.identify t) := Action.identify_keeps t
  have stored : ∀ w t' added w', Action.storeStatement t w = .ok (t', added) w' → F t' →
      KeepsMarks P C F w w' := by
    intro w t' added w' h hfresh
    obtain ⟨t₁, w₁, hidentify, hstore⟩ := bind_eq_ok_iff.mp h
    exact IsTrans.trans _ _ _ (identified.ok hidentify)
      (storeIdentified (hrow t') (fun _ => hfresh) hstore)
  refine fun x => ⟨fun t' y h hfresh => ?_, fun e y h => ?_⟩
  · obtain ⟨added, -, -, -, hstore, -⟩ := store_eq_ok h
    exact stored x.work t' added y.work hstore hfresh
  · cases hstore : Action.storeStatement t x.work with
    | ok result w' =>
        obtain ⟨t', added⟩ := result
        rw [Transaction.store, bind_of_ok (work_of_ok hstore)] at h
        cases added <;> cases h
    | error e' w' =>
        rw [Transaction.store, bind_of_error (work_of_error hstore)] at h
        cases h
        exact KeepsFailing.bind identified storeIdentified_failing x.work _ w' hstore

open Transaction in
theorem addMade (hrow : ∀ t, P (.ofStatement t))
    (subject predicate object : Node) (context : Option Node)
    (mark : Statement → Statement) :
    KeepsIf F (WorkChanges (KeepsMarks P C F))
      (Transaction.addMade subject predicate object context mark) :=
  .bind (work_changes (Action.createStatement_keeps subject predicate object context)) fun _ =>
    store hrow _

open Transaction in
theorem add (hrow : ∀ t, P (.ofStatement t)) (subject predicate object : Node)
    (context : Option Node) :
    KeepsIf F (WorkChanges (KeepsMarks P C F))
      (Transaction.add subject predicate object context) :=
  .whileOpen (addMade hrow subject predicate object context fun t => t)

open Transaction in
theorem addInferred (hrow : ∀ t, P (.ofStatement t)) (subject predicate object : Node)
    (context : Option Node) :
    KeepsIf F (WorkChanges (KeepsMarks P C F))
      (Transaction.addInferred subject predicate object context) := by
  have made (c : Node) :=
    addMade (P := P) (C := C) (F := F) hrow subject predicate object (some c)
    fun t => { t with inferred := true }
  apply KeepsIf.whileOpen
  cases context with
  | some c => exact made c
  | none =>
      exact .bind (work_changes (keeps_inferredContext Action.createUri_keeps)) made

end KeepsMarks

namespace Action

variable [Marking P C F]

theorem loadStatement_marks {id : Int} {found : Option Statement} (hmarked : w.Marked P C F)
    (h : loadStatement id w = .ok found w') : ∀ t ∈ found, C t := by
  rintro t rfl
  obtain ⟨_, w₁, hget, h⟩ := bind_eq_ok_iff.mp h
  obtain ⟨rfl, rfl⟩ := get_eq_ok_iff.mp hget
  cases hcached : w.store.caches.statement.get? id with
  | some cached =>
      rw [hcached] at h
      obtain ⟨hfound, -⟩ := pure_eq_ok_iff.mp h
      cases hfound
      exact hmarked.cached.statement id t hcached
  | none =>
      rw [hcached] at h
      obtain ⟨row, w₂, hview, h⟩ := bind_eq_ok_iff.mp h
      obtain ⟨hfind, rfl⟩ := view_eq_ok_iff.mp hview
      cases row with
      | none => cases (pure_eq_ok_iff.mp h).1
      | some row =>
          obtain ⟨t', w₃, hread, h⟩ := bind_eq_ok_iff.mp h
          obtain ⟨_, w₄, -, h⟩ := bind_eq_ok_iff.mp h
          cases (pure_eq_ok_iff.mp h).1
          have hrow : P row := hmarked.rows row (List.mem_of_find?_eq_some hfind)
          exact (Marking.read (F := F) hrow (readFrom_of_statementOfRow hread)).1

theorem createStatement_identifies {R : Workspace → Workspace → Prop} [IsPreorder Workspace R]
    (hconvert : ∀ n, Keeps R (convert n)) (huri : ∀ uri, Keeps R (createUri uri))
    {subject predicate object : Node} {context : Option Node} {t : Statement}
    (h : createStatement subject predicate object context w = .ok t w') :
    ∃ s p o c made w₁, R w w₁ ∧ Statement.make s p o (some c) = .ok made ∧
      identifyShared made w₁ = .ok t w' := by
  obtain ⟨s, p, o, c, w₁, hR, -, -, -, -, hop⟩ :=
    createStatement_made (I := R w) (P := fun _ _ _ => True) w.store.config.defaultContext
      (refl w) (fun n _ w₁ m w₂ h₁ hm => ⟨IsTrans.trans _ _ _ h₁ ((hconvert n).ok hm), by simp⟩)
      (fun w₁ m w₂ h₁ hm => ⟨IsTrans.trans _ _ _ h₁ ((huri _).ok hm), by simp⟩) h
  obtain ⟨made, w₂, hof, hop⟩ := bind_eq_ok_iff.mp hop
  obtain ⟨hmade, rfl⟩ := ofStatement_eq_ok_iff.mp hof
  exact ⟨s, p, o, c, made, w₁, hR, hmade, hop⟩

end Action

namespace Workspace.Marked

theorem publishTo (h : w.Marked P C F) (hFC : ∀ t, F t → C t) :
    (w.conn.publishTo w.store.caches).Marked C :=
  Caches.All.publishTo (h.cached.eraseStatements fun k s _ hs => h.cached.statement k s hs)
    (fun _ _ => trivial) fun s hs => hFC s (h.fresh s hs)

theorem discardFrom (h : w.Marked P C F) : (w.conn.discardFrom w.store.caches).Marked C :=
  Caches.All.discardFrom h.cached w.conn

theorem of_idle (hpending : w.conn.pending = none) (hcommitted : w.database.committed.Marked P)
    (hcached : w.store.caches.Marked C) (hfresh : ∀ t ∈ w.conn.freshStatements, F t) :
    w.Marked P C F where
  committed := hcommitted
  rows := by
    rw [Workspace.view_eq_committed (by simp [Connection.writing, hpending])]
    exact hcommitted
  cached := hcached
  fresh := hfresh

open Transaction

theorem finished {x : Scope} (h : x.work.Marked P C F) (hFC : ∀ t, F t → C t) :
    x.finished.work.Marked P C F := by
  refine of_idle rfl ?_ (h.publishTo hFC) (List.forall_mem_nil _)
  have hrows := h.rows
  obtain ⟨⟨database, file, store, ⟨transaction, pending, _, _, _, _, _⟩⟩, changes, closed⟩ := x
  cases pending with
  | none => exact h.committed
  | some t => exact hrows

theorem abandoned {x : Scope} (h : x.work.Marked P C F) : x.abandoned.work.Marked P C F :=
  of_idle rfl h.committed h.discardFrom (List.forall_mem_nil _)

end Workspace.Marked
end QuadStore
