import QuadStore.Proofs.FailedWrites
import QuadStore.Proofs.SiteMarks

/-!
Held statements. Whoever works at a site holds statements: they are made and copied, loaded
and asked for, and stored, deleted and removed in place through any session. Main statements:
what writing a statement makes of its marks, and that what is done through one connection
alone is done in its workspace.
-/

namespace QuadStore

namespace Action

variable {w w' : Workspace} {t t' : Statement}

theorem marks_of_storeIdentified {added : Bool} (h : storeIdentified t w = .ok (t', added) w') :
    t'.deleted = false ∧ t'.deletionTimed = (!added && t.deletionTimed) := by
  obtain ⟨_, w₁, -, h⟩ := bind_eq_ok_iff.mp h
  obtain ⟨live, w₂, -, h⟩ := bind_eq_ok_iff.mp h
  cases live with
  | some existing =>
      obtain ⟨stored, w₃, -, h⟩ := bind_eq_ok_iff.mp h
      cases stored <;>
      · obtain ⟨hresult, -⟩ := pure_eq_ok_iff.mp h
        cases hresult
        exact ⟨rfl, rfl⟩
  | none =>
      obtain ⟨inserted, w₃, -, h⟩ := bind_eq_ok_iff.mp h
      obtain ⟨_, w₄, -, h⟩ := bind_eq_ok_iff.mp h
      obtain ⟨hresult, -⟩ := pure_eq_ok_iff.mp h
      cases hresult
      exact ⟨rfl, rfl⟩

theorem marks_of_identify (h : identify t w = .ok t' w') :
    t'.deleted = t.deleted ∧ t'.deletionTimed = t.deletionTimed := by
  obtain ⟨_, w₁, -, h⟩ := bind_eq_ok_iff.mp h
  split at h
  · obtain ⟨id, w₂, -, h⟩ := bind_eq_ok_iff.mp h
    obtain ⟨rfl, -⟩ := pure_eq_ok_iff.mp h
    exact ⟨rfl, rfl⟩
  · obtain ⟨rfl, -⟩ := pure_eq_ok_iff.mp h
    exact ⟨rfl, rfl⟩

theorem deleteStatement_answers {removed : Bool}
    (h : deleteStatement t w = .ok (t', removed) w') :
    t' = deleted t removed := by
  by_cases hid : 0 ≤ t.id
  · cases hbegin : beginWrite w with
    | ok u w₁ =>
        classical
        have hremoved : decide (t.id ∈ w.view.liveIds) = true ↔ t.id ∈ w.view.liveIds :=
          decide_eq_true_iff
        rw [deleteStatement_eq_ok hid hbegin hremoved] at h
        cases h
        rfl
    | error e w₁ =>
        rw [deleteStatement_error hid hbegin] at h
        cases h
  · unfold deleteStatement at h
    rw [if_pos (by omega)] at h
    cases h
    rfl

theorem removeStatement_answers {removed : Bool}
    (h : removeStatement t w = .ok (t', removed) w') :
    t' = deleted t removed := by
  obtain ⟨result, w₁, hdelete, h⟩ := bind_eq_ok_iff.mp h
  obtain ⟨_, w₂, -, h⟩ := bind_eq_ok_iff.mp h
  cases h
  exact deleteStatement_answers hdelete

end Action

namespace InPlace

variable {ν α : Type} {w w' : Workspace} {R : Workspace → Workspace → Prop}

/-- A write in place as an operation of a connection, which gives back the value as it is then,
also when the write fails. -/
def on (op : InPlace ν α) (v : ν) : Action (Except StoreError α × ν) := fun w =>
  .ok (answerOf (op (w, v)), (finalState (op (w, v))).2) (finalState (op (w, v))).1

/-- The workspace changes in some way, and the value in any. -/
def OnWork (ν : Type) (R : Workspace → Workspace → Prop) (s s' : Workspace × ν) : Prop :=
  R s.1 s'.1

instance [IsPreorder Workspace R] : IsPreorder (Workspace × ν) (OnWork ν R) where
  refl s := refl s.1
  trans _ _ _ h h' := IsTrans.trans (r := R) _ _ _ h h'

theorem keeps_of_settle {op : InPlace ν α} {a : ν → Action (ν × α)}
    (heq : ∀ v w, op (w, v) = settle (a v) (w, v)) (h : ∀ v, Keeps R (a v)) :
    Keeps (OnWork ν R) op := by
  rintro ⟨w, v⟩
  have hkeeps := h v w
  rw [heq, settle]
  cases ha : a v w <;>
  · rw [ha] at hkeeps
    exact hkeeps

theorem Keeps.on {op : InPlace ν α} (h : Keeps (OnWork ν R) op) (v : ν) : Keeps R (op.on v) :=
  fun w => h (w, v)

end InPlace

/-- How a held statement is written. -/
inductive Writing
  | store
  | delete
  | remove

namespace Writing

def op : Writing → InPlace Statement Bool
  | store => InPlace.storeStatement
  | delete => InPlace.deleteStatement
  | remove => InPlace.removeStatement

/-- The statement after it has been written, its id and its other marks apart. -/
def mark (how : Writing) (t : Statement) (answer : Except StoreError Bool) : Statement :=
  match how, answer with
  | _, .error _ => t
  | store, .ok added => { t with deleted := false, deletionTimed := !added && t.deletionTimed }
  | delete, .ok removed | remove, .ok removed => Action.deleted t removed

/-- Whether two statements are marked as deleted alike. -/
structure Alike (t t' : Statement) : Prop where
  deleted : t'.deleted = t.deleted
  timed : t'.deletionTimed = t.deletionTimed

variable {t : Statement} {w : Workspace}

theorem op_settled {op : InPlace Statement Bool} {a : Action (Statement × Bool)}
    (heq : op (w, t) = InPlace.settle a (w, t)) :
    (∃ t' done w', a w = .ok (t', done) w' ∧ op (w, t) = .ok done (w', t')) ∨
      ∃ e w', op (w, t) = .error e (w', t) := by
  rw [heq, InPlace.settle]
  cases ha : a w with
  | ok result w' => exact .inl ⟨result.1, result.2, w', rfl, rfl⟩
  | error e w' => exact .inr ⟨e, w', rfl⟩

/-- What writing makes of the marks of a statement. -/
theorem mark_op (how : Writing) (t : Statement) (w : Workspace) :
    Alike (how.mark t (answerOf (how.op (w, t)))) (finalState (how.op (w, t))).2 := by
  cases how with
  | store =>
      cases hidentify : Action.identify t w with
      | error e w₁ =>
          have hop : InPlace.storeStatement (w, t) = .error e (w₁, t) :=
            bind_of_error (InPlace.identify_of_error hidentify)
          rw [op, hop]
          exact ⟨rfl, rfl⟩
      | ok t₁ w₁ =>
          obtain ⟨hdeleted₁, htimed₁⟩ := Action.marks_of_identify hidentify
          have hop : InPlace.storeStatement (w, t) = InPlace.storeIdentified (w₁, t₁) :=
            bind_of_ok (InPlace.identify_of_ok hidentify)
          rw [op, hop]
          rcases op_settled (InPlace.storeIdentified_eq t₁ w₁) with
            ⟨t', added, w', ha, hop⟩ | ⟨e, w', hop⟩
          · obtain ⟨hdeleted, htimed⟩ := Action.marks_of_storeIdentified ha
            rw [hop]
            exact ⟨hdeleted, by rw [finalState_ok, htimed, htimed₁]; rfl⟩
          · rw [hop]
            exact ⟨hdeleted₁, htimed₁⟩
  | delete =>
      rcases op_settled (InPlace.deleteStatement_eq t w) with
        ⟨t', removed, w', ha, hop⟩ | ⟨e, w', hop⟩
      · rw [op, hop, Action.deleteStatement_answers ha]
        exact ⟨rfl, rfl⟩
      · rw [op, hop]
        exact ⟨rfl, rfl⟩
  | remove =>
      rcases op_settled (InPlace.removeStatement_eq t w) with
        ⟨t', removed, w', ha, hop⟩ | ⟨e, w', hop⟩
      · rw [op, hop, Action.removeStatement_answers ha]
        exact ⟨rfl, rfl⟩
      · rw [op, hop]
        exact ⟨rfl, rfl⟩

theorem keeps_op {R : Workspace → Workspace → Prop} [AllowsAdding R] (how : Writing) :
    Keeps (InPlace.OnWork Statement R) how.op := by
  cases how with
  | store =>
      refine Keeps.bind (InPlace.keeps_of_settle InPlace.identify_eq fun t => ?_) fun _ =>
        InPlace.keeps_of_settle InPlace.storeIdentified_eq AllowsAdding.storeIdentified
      rw [map_eq_pure_bind]
      exact (Action.identify_keeps t).bind fun _ => .pure _
  | delete => exact InPlace.keeps_of_settle InPlace.deleteStatement_eq AllowsSteps.deleteStatement
  | remove =>
      exact InPlace.keeps_of_settle InPlace.removeStatement_eq Action.removeStatement_keeps

end Writing

/-- A site, and the statements that someone holds who works there. -/
structure Holding where
  site : Site
  held : List Statement := []

/-- What can be done by who holds statements. -/
inductive Handling
  /-- A statement is made. -/
  | make (subject predicate object : Node) (context creator : Option Node)
  | copy (k : Nat)
  /-- A statement is loaded in a session. -/
  | load (name : String) (id : Int)
  /-- A session is asked for a statement. -/
  | create (name : String) (subject predicate object : Node) (context : Option Node)
  /-- A held statement is written in a session. -/
  | write (name : String) (how : Writing) (k : Nat)
  | other (e : Errand)

/-- What is noted of it: who has been copied where, and how a statement has been written. -/
inductive Note
  | other
  | copied (k place : Nat)
  | written (k : Nat) (how : Writing) (t : Statement) (answer : Except StoreError Bool)

namespace Holding

/-- What has been found is held from then on. -/
def gain (b : Holding) (found : SiteAction (Option Statement)) : Holding where
  site := finalState (found b.site)
  held := b.held ++ ((answerOf (found b.site)).toOption.bind id).toList

def handle (b : Holding) : Handling → Note × Holding
  | .make subject predicate object context creator =>
      match Statement.make subject predicate object context with
      | .ok t => (.other, { b with held := b.held ++ [{ t with creator }] })
      | .error _ => (.other, b)
  | .copy k =>
      match b.held[k]? with
      | some t => (.copied k b.held.length, { b with held := b.held ++ [t] })
      | none => (.other, b)
  | .load name id => (.other, b.gain (SiteAction.ask name (.work (Action.loadStatement id))))
  | .create name subject predicate object context =>
      (.other, b.gain (some <$> SiteAction.ask name
        (.work (Action.createStatement subject predicate object context))))
  | .write name how k =>
      match b.held[k]? with
      | some t =>
          match SiteAction.ask name (.work (how.op.on t)) b.site with
          | .ok (answer, t') site => (.written k how t answer, ⟨site, b.held.set k t'⟩)
          | .error _ site => (.other, { b with site })
      | none => (.other, b)
  | .other e => (.other, { b with site := finalState (e.act b.site) })

/-- What is left after one thing after another, with what is noted of each. -/
def after (b : Holding) (handlings : List Handling) : List Note × Holding :=
  handlings.foldl (fun s h => (s.1 ++ [(s.2.handle h).1], (s.2.handle h).2)) ([], b)

theorem after_append_singleton (b : Holding) (handlings : List Handling) (what : Handling) :
    b.after (handlings ++ [what]) =
      ((b.after handlings).1 ++ [((b.after handlings).2.handle what).1],
        ((b.after handlings).2.handle what).2) := by
  rw [after, List.foldl_append]
  rfl

end Holding

/-- Whether a session of a site is a connection with the given workspace. -/
structure Site.Connects (s : Site) (name : String) (number : Nat) (w : Workspace) : Prop where
  handle : s.handles.get? name = some ⟨number, .connection w.conn⟩
  store : s.stores[number]? = some w.store
  database : s.database w.store.config.databasePath = w.database
  registryFile : s.registryFile w.store.config.registryPath = w.registryFile

theorem Site.Connects.ask {s : Site} {name : String} {number : Nat} {w w' : Workspace} {α : Type}
    {a : Action α} {v : α} (h : s.Connects name number w) (ha : a w = .ok v w') :
    ∃ s', SiteAction.ask name (.work a) s = .ok v s' ∧ s'.Connects name number w' := by
  have hwork : s.workspace? number w.conn = some w := by
    rw [Site.workspace?, h.store, Option.map_some, h.database, h.registryFile]
  have hask : s.ask ⟨number, .connection w.conn⟩ (.work a) =
      some (.ok v, ⟨number, .connection w'.conn⟩, s.putBack number w') := by
    change (s.workspace? number w.conn).bind _ = _
    rw [hwork, Option.bind_some]
    change (Option.some (Session.runConnection w a)).bind _ = _
    rw [Session.runConnection, ha]
    rfl
  refine ⟨{ s.putBack number w' with
    handles := s.handles.insert name ⟨number, .connection w'.conn⟩ }, ?_, ?_⟩
  · rw [SiteAction.ask, bind_of_ok (a := (get : SiteAction Site)) (s := s) rfl,
      h.handle, Option.bind_some,
      hask]
    rfl
  · refine ⟨?_, ?_, ?_, ?_⟩
    · show Dict.get? (Dict.insert s.handles name _) name = _
      rw [Dict.get?_insert, if_pos rfl]
    · exact List.getElem?_set_self (List.getElem?_eq_some_iff.mp h.store).1
    · show Option.getD (Dict.get? (Dict.insert s.databases _ w'.database) _) {} = w'.database
      rw [Dict.get?_insert, if_pos rfl, Option.getD_some]
    · show Option.getD (Dict.get? (Dict.insert s.registryFiles _ w'.registryFile) _) [] = _
      rw [Dict.get?_insert, if_pos rfl, Option.getD_some]

namespace Handling

/-- Whether statements are made, copied, and written through one connection. -/
def Through (name : String) : Handling → Prop
  | .make .. | .copy _ => True
  | .write session _ _ => session = name
  | .load .. | .create .. | .other _ => False

/-- What is done then to the workspace of the connection and to the statements that are held. -/
def follow (s : Workspace × List Statement) : Handling → Workspace × List Statement
  | .make subject predicate object context creator =>
      match Statement.make subject predicate object context with
      | .ok t => (s.1, s.2 ++ [{ t with creator }])
      | .error _ => s
  | .copy k => (s.1, s.2 ++ s.2[k]?.toList)
  | .write _ how k =>
      match s.2[k]? with
      | some t => ((finalState (how.op (s.1, t))).1, s.2.set k (finalState (how.op (s.1, t))).2)
      | none => s
  | .load .. | .create .. | .other _ => s

end Handling

namespace Holding

variable {b : Holding} {name : String} {number : Nat} {w : Workspace}

theorem follow_handle (h : b.site.Connects name number w) {what : Handling}
    (hwhat : what.Through name) :
    (b.handle what).2.site.Connects name number (what.follow (w, b.held)).1 ∧
      (b.handle what).2.held = (what.follow (w, b.held)).2 := by
  cases what with
  | make subject predicate object context creator =>
      cases hmake : Statement.make subject predicate object context with
      | ok t =>
          simp only [Holding.handle, Handling.follow, hmake]
          exact ⟨h, trivial⟩
      | error fault =>
          simp only [Holding.handle, Handling.follow, hmake]
          exact ⟨h, trivial⟩
  | copy k =>
      cases hk : b.held[k]? <;> simp only [Holding.handle, Handling.follow, hk]
      · exact ⟨h, (List.append_nil _).symm⟩
      · exact ⟨h, rfl⟩
  | write session how k =>
      obtain rfl : session = name := hwhat
      cases hk : b.held[k]? with
      | none =>
          simp only [Holding.handle, Handling.follow, hk]
          exact ⟨h, trivial⟩
      | some t =>
          obtain ⟨s', hask, hconnects⟩ := h.ask (a := how.op.on t) rfl
          simp only [Holding.handle, Handling.follow, hk, hask]
          exact ⟨hconnects, trivial⟩
  | load | create | other => exact hwhat.elim

theorem follow_after (h : b.site.Connects name number w) {handlings : List Handling}
    (hall : ∀ what ∈ handlings, what.Through name) :
    (b.after handlings).2.site.Connects name number
    (handlings.foldl Handling.follow (w, b.held)).1 ∧
      (b.after handlings).2.held = (handlings.foldl Handling.follow (w, b.held)).2 := by
  induction handlings using List.reverseRecOn with
  | nil => exact ⟨h, rfl⟩
  | append_singleton rest what ih =>
      rw [List.forall_mem_append, List.forall_mem_singleton] at hall
      obtain ⟨hconnects, hheld⟩ := ih hall.1
      have hlast := follow_handle hconnects hall.2
      rw [hheld] at hlast
      rw [after_append_singleton, List.foldl_append]
      exact hlast

end Holding
end QuadStore
