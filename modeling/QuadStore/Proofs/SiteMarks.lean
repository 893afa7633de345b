import QuadStore.Proofs.Reopenings
import QuadStore.Proofs.SiteRuns
import QuadStore.Proofs.StatementMarks

namespace QuadStore

open Transaction

/-- Whether the tables and the copies that a connection keeps to itself
satisfy some conditions. -/
structure Connection.Marked (c : Connection) (P : StatementRow → Prop)
    (F : Statement → Prop) : Prop where
  pending : ∀ t ∈ c.pending, Tables.Marked t P
  fresh : ∀ t ∈ c.freshStatements, F t

/-- Whether all rows, all cached copies and all that await publication satisfy some conditions. -/
structure Site.Marked (s : Site) (P : StatementRow → Prop) (C F : Statement → Prop) : Prop where
  databases : ∀ entry ∈ s.databases, entry.2.committed.Marked P
  stores : ∀ store ∈ s.stores, store.caches.Marked C
  handles : ∀ entry ∈ s.handles, entry.2.session.conn.Marked P F

/-- Whether rows and copies that satisfy some conditions go on to at the whole site. -/
def KeepsSiteMarks (P : StatementRow → Prop) (C F : Statement → Prop) (s s' : Site) : Prop :=
  s.Marked P C F → s'.Marked P C F

/-- What a connection may be asked that serves no transaction. -/
inductive Chore
  | storeNode (n : Node)
  | storeNamespace (ns : Namespace)
  | deleteNamespace (ns : Namespace)
  | commit
  | rollback
  | publish
  | discard
  | release

/-- How it is done. -/
def Chore.action : Chore → Action Unit
  | .storeNode n => Functor.discard (Action.storeNode n)
  | .storeNamespace ns => Functor.discard (Action.storeNamespace ns)
  | .deleteNamespace ns => Functor.discard (Action.deleteNamespace ns)
  | .commit => Action.commit
  | .rollback => Action.rollback
  | .publish => Action.publish
  | .discard => Action.discard
  | .release => Action.releaseRegistry

/-- What can be done at a site: with its stores, with its sessions, and in them. -/
inductive Errand
  | openStore (name : String) (config : Config) (labelStart : String)
  | closeStore (name : String)
  | shutdown (name : String)
  | clearCaches (name : String)
  | begin (storeName name : String)
  | connect (storeName name : String)
  | drop (name : String)
  | call (name : String) (c : Call)
  | chore (name : String) (c : Chore)

/-- How it is done. -/
def Errand.act : Errand → SiteAction Unit
  | .openStore name config labelStart => SiteAction.openStore name config labelStart
  | .closeStore name => SiteAction.closeStore name
  | .shutdown name => SiteAction.shutdown name
  | .clearCaches name => SiteAction.onStore name 0 (Action.modifyStore Store.clearCaches)
  | .begin storeName name => Functor.discard (SiteAction.begin storeName name)
  | .connect storeName name => Functor.discard (SiteAction.connect storeName name)
  | .drop name => Functor.discard (SiteAction.drop name)
  | .call name c => Functor.discard (SiteAction.ask name ⟨some c.run, none⟩)
  | .chore name c => SiteAction.ask name ⟨none, some c.action⟩

/-- Whether a request keeps a relation in whatever session it is made. -/
structure Request.Keeps {α : Type} (R : Workspace → Workspace → Prop) (r : Request α) : Prop where
  inTransaction : ∀ op ∈ r.inTransaction, QuadStore.Keeps (WorkChanges R) op
  onConnection : ∀ a ∈ r.onConnection, QuadStore.Keeps R a

section

variable {P : StatementRow → Prop} {C F : Statement → Prop}

instance : IsPreorder Site (KeepsSiteMarks P C F) where
  refl _ h := h
  trans _ _ _ h h' hs := h' (h hs)

theorem Connection.marked_of_new (transaction : Int) : Connection.Marked { transaction } P F :=
  ⟨by rintro t ⟨⟩, List.forall_mem_nil _⟩

theorem Workspace.marked_iff {w : Workspace} : w.Marked P C F ↔
    w.database.committed.Marked P ∧ w.store.caches.Marked C ∧ w.conn.Marked P F := by
  constructor
  · intro h
    refine ⟨h.committed, h.cached, ?_, h.fresh⟩
    intro t ht
    have hview : w.view = t := by rw [Workspace.view, ht, Option.getD_some]
    exact hview ▸ h.rows
  · rintro ⟨hcommitted, hcached, hconn⟩
    refine ⟨hcommitted, ?_, hcached, hconn.fresh⟩
    cases hpending : w.conn.pending with
    | none => rwa [Workspace.view, hpending]
    | some t =>
        rw [Workspace.view, hpending]
        exact hconn.pending t hpending

/-! Ending work on a connection -/

namespace KeepsMarks

theorem commit : Keeps (KeepsMarks P C F) Action.commit := by
  intro w hw
  obtain ⟨hcommitted, hcached, hconn⟩ := Workspace.marked_iff.mp hw
  obtain ⟨database, file, store, ⟨transaction, pending, _, _, _, _, _⟩⟩ := w
  cases pending with
  | none => exact hw
  | some t =>
      exact Workspace.marked_iff.mpr ⟨hconn.pending t rfl, hcached, by rintro t ⟨⟩, hconn.fresh⟩

theorem rollback : Keeps (KeepsMarks P C F) Action.rollback := by
  intro w hw
  obtain ⟨hcommitted, hcached, hconn⟩ := Workspace.marked_iff.mp hw
  obtain ⟨database, file, store, ⟨transaction, pending, _, _, _, _, _⟩⟩ := w
  cases pending with
  | none => exact hw
  | some t => exact Workspace.marked_iff.mpr ⟨hcommitted, hcached, by rintro t ⟨⟩, hconn.fresh⟩

theorem publish (hFC : ∀ t, F t → C t) : Keeps (KeepsMarks P C F) Action.publish := by
  intro w hw
  obtain ⟨hcommitted, -, hconn⟩ := Workspace.marked_iff.mp hw
  exact Workspace.marked_iff.mpr ⟨hcommitted, hw.publishTo hFC,
    hconn.pending, List.forall_mem_nil _⟩

theorem discard : Keeps (KeepsMarks P C F) Action.discard := by
  intro w hw
  obtain ⟨hcommitted, -, hconn⟩ := Workspace.marked_iff.mp hw
  exact Workspace.marked_iff.mpr ⟨hcommitted, hw.discardFrom,
    hconn.pending, List.forall_mem_nil _⟩

theorem shutdown : Keeps (KeepsMarks P C F) Action.shutdown := by
  refine (Action.storing_of_apart Action.beginWrite_apart).bind fun _ =>
    commit.bind fun _ w hw => ?_
  obtain ⟨hcommitted, -, hconn⟩ := Workspace.marked_iff.mp hw
  exact Workspace.marked_iff.mpr ⟨hcommitted, .clear _, hconn⟩

end KeepsMarks
theorem Call.keeps_marks [AllowsAdding (KeepsMarks P C F)] (hFC : ∀ t, F t → C t) (c : Call) :
    Keeps (WorkChanges (KeepsMarks P C F)) c.run := by
  cases hends : c.ends with
  | false => exact Call.keeps hends
  | true =>
      intro x
      cases hclosed : x.closed with
      | true =>
          rw [Call.run_of_closed c hclosed]
          exact refl x
      | false =>
          intro hx
          rcases Call.finished_or_abandoned hends hclosed with hended | hended <;> rw [hended]
          · exact hx.finished hFC
          · exact hx.abandoned

theorem KeepsMarks.drop : Keeps (WorkChanges (KeepsMarks P C F)) Transaction.drop := by
  intro x
  cases hclosed : x.closed with
  | true =>
      have hrun : finalState (Transaction.drop x) = x := Call.run_of_closed .drop hclosed
      rw [hrun]
      exact refl x
  | false =>
      have habandoned : finalState (Transaction.drop x) = x.abandoned := by
        rcases Call.commits_or_abandons (c := .drop) rfl hclosed with
          ⟨refusal, hdrop, -⟩ | habandoned
        · cases hdrop
        · exact habandoned
      rw [habandoned]
      exact fun hx => Workspace.Marked.abandoned hx

/-! Requests -/

namespace Request

variable {α : Type} {R : Workspace → Workspace → Prop}

theorem keeps_work [IsPreorder Workspace R] {a : Action α} (h : QuadStore.Keeps R a) :
    (Request.work a).Keeps R where
  inTransaction := by
    rintro op ⟨⟩
    exact perform_changes h
  onConnection := by
    rintro a' ⟨⟩
    exact h

theorem keeps_transaction {op : Operation α} (h : QuadStore.Keeps (WorkChanges R) op) :
    Request.Keeps R ⟨some op, none⟩ where
  inTransaction := by
    rintro op' ⟨⟩
    exact h
  onConnection := by rintro a ⟨⟩

theorem keeps_connection {a : Action α} (h : QuadStore.Keeps R a) :
    Request.Keeps R ⟨none, some a⟩ where
  inTransaction := by rintro op ⟨⟩
  onConnection := by
    rintro a' ⟨⟩
    exact h

theorem keeps_drop : Request.drop.Keeps (KeepsMarks P C F) where
  inTransaction := by
    rintro op ⟨⟩
    exact KeepsMarks.drop
  onConnection := by
    rintro a ⟨⟩
    exact KeepsMarks.rollback

end Request

/-! What is done in the stores of a site -/

namespace Site.Marked

variable {α : Type} {s : Site}

theorem database (h : s.Marked P C F) (path : String) : (s.database path).committed.Marked P := by
  unfold Site.database
  cases hfound : s.databases.get? (Text.pathParts path) with
  | none => exact fun r hr => nomatch hr
  | some d => exact h.databases _ (Dict.mem_of_get? hfound)

theorem putDatabase (h : s.Marked P C F) (path : String) {d : Database}
    (hd : d.committed.Marked P) :
    (s.putDatabase path d).Marked P C F := by
  refine ⟨fun entry hentry => ?_, h.stores, h.handles⟩
  rcases Dict.mem_insert hentry with rfl | hentry
  · exact hd
  · exact h.databases entry hentry

theorem insert_handle (h : s.Marked P C F) (name : String) {handle : Handle}
    (hhandle : handle.session.conn.Marked P F) :
    ∀ entry ∈ s.handles.insert name handle, entry.2.session.conn.Marked P F := by
  intro entry hentry
  rcases Dict.mem_insert hentry with rfl | hentry
  · exact hhandle
  · exact h.handles entry hentry

theorem withHandles (h : s.Marked P C F) {handles : Dict String Handle}
    (hhandles : ∀ entry ∈ handles, entry.2.session.conn.Marked P F) (names : Dict String Nat) :
    Site.Marked { s with handles, names } P C F :=
  ⟨h.databases, h.stores, hhandles⟩

theorem workspace (h : s.Marked P C F) {number : Nat}
    {conn : Connection} (hconn : conn.Marked P F)
    {w : Workspace} (hw : s.workspace? number conn = some w) : w.Marked P C F := by
  obtain ⟨store, hstore, rfl⟩ := Option.map_eq_some_iff.mp hw
  exact Workspace.marked_iff.mpr ⟨h.database _,
    h.stores store (List.mem_of_getElem? hstore), hconn⟩

theorem putBack (h : s.Marked P C F) (number : Nat) {w : Workspace} (hw : w.Marked P C F) :
    (s.putBack number w).Marked P C F := by
  have hput := h.putDatabase w.store.config.databasePath hw.committed
  refine ⟨hput.databases, fun store hstore => ?_, hput.handles⟩
  rcases List.mem_or_eq_of_mem_set hstore with hstore | rfl
  · exact h.stores store hstore
  · exact hw.cached

theorem ask (h : s.Marked P C F) {r : Request α} (hr : r.Keeps (KeepsMarks P C F))
    {handle handle' : Handle}
    (hhandle : handle.session.conn.Marked P F) {answer : Except StoreError α} {s' : Site}
    (hask : s.ask handle r = some (answer, handle', s')) :
    s'.Marked P C F ∧ handle'.session.conn.Marked P F := by
  obtain ⟨w, hw, hask⟩ := Option.bind_eq_some_iff.mp hask
  obtain ⟨reply, hreply, hask⟩ := Option.bind_eq_some_iff.mp hask
  cases hask
  have hmarked := h.workspace hhandle hw
  suffices hafter : reply.work.Marked P C F ∧ reply.session.conn = reply.work.conn by
    refine ⟨h.putBack handle.store hafter.1, ?_⟩
    rw [hafter.2]
    exact (Workspace.marked_iff.mp hafter.1).2.2
  obtain ⟨number, session⟩ := handle
  cases session with
  | transaction t =>
      obtain ⟨op, hop, rfl⟩ := Option.map_eq_some_iff.mp hreply
      have hkeeps := hr.inTransaction op hop ⟨w, t.changes, t.closed⟩ hmarked
      unfold Session.runTransaction
      cases hrun : op ⟨w, t.changes, t.closed⟩ <;>
      · rw [hrun] at hkeeps
        exact ⟨hkeeps, rfl⟩
  | connection c =>
      obtain ⟨a, ha, rfl⟩ := Option.map_eq_some_iff.mp hreply
      have hkeeps := hr.onConnection a ha w hmarked
      unfold Session.runConnection
      cases hrun : a w <;>
      · rw [hrun] at hkeeps
        exact ⟨hkeeps, rfl⟩

theorem giveUp (h : s.Marked P C F) {handle : Handle} (hhandle : handle.session.conn.Marked P F) :
    (s.giveUp handle).Marked P C F := by
  unfold Site.giveUp
  cases hask : s.ask handle .drop with
  | none => exact h
  | some result =>
      obtain ⟨answer, handle', s'⟩ := result
      exact (h.ask Request.keeps_drop hhandle hask).1

end Site.Marked
/-! Site actions -/

namespace KeepsSiteMarks

variable {α : Type}

theorem ofExcept (x : Except StoreError α) :
    Keeps (KeepsSiteMarks P C F) (SiteAction.ofExcept x) := by
  cases x with
  | ok v => exact .pure v
  | error e => exact .throw _

theorem number (name : String) : Keeps (KeepsSiteMarks P C F) (SiteAction.number name) := by
  refine Keeps.bind (fun s => refl s) fun s => ?_
  split
  · exact .pure _
  · exact .throw _

theorem ask (name : String) {r : Request α} (hr : r.Keeps (KeepsMarks P C F)) :
    Keeps (KeepsSiteMarks P C F) (SiteAction.ask name r) := by
  intro s
  rw [SiteAction.ask, bind_of_ok (a := (get : SiteAction Site)) (s := s) rfl]
  cases hask : (s.handles.get? name).bind fun h => s.ask h r with
  | none => exact refl s
  | some result =>
      obtain ⟨answer, handle', s'⟩ := result
      obtain ⟨handle, hhandle, hask⟩ := Option.bind_eq_some_iff.mp hask
      refine finalState_bind (R := KeepsSiteMarks P C F) (fun hs => ?_) fun _ s₁ _ =>
        ofExcept answer s₁
      obtain ⟨hs', hhandle'⟩ := hs.ask hr (hs.handles _ (Dict.mem_of_get? hhandle)) hask
      exact hs'.withHandles (hs'.insert_handle name hhandle') _

theorem onStore (name : String) (transaction : Int) {a : Action α}
    (ha : Keeps (KeepsMarks P C F) a) :
    Keeps (KeepsSiteMarks P C F) (SiteAction.onStore name transaction a) := by
  refine (number name).bind fun number s => ?_
  rw [bind_of_ok (a := (get : SiteAction Site)) (s := s) rfl]
  cases hask : s.ask ⟨number, .connection { transaction }⟩ (.work a) with
  | none => exact refl s
  | some result =>
      obtain ⟨answer, handle', s'⟩ := result
      refine finalState_bind (R := KeepsSiteMarks P C F) (fun hs => ?_) fun _ s₁ _ =>
        ofExcept answer s₁
      have hnew : (Handle.mk number (.connection { transaction })).session.conn.Marked P F :=
        Connection.marked_of_new transaction
      exact (hs.ask (Request.keeps_work ha) hnew hask).1

theorem openStore (name : String) (config : Config) (labelStart : String) :
    Keeps (KeepsSiteMarks P C F) (SiteAction.openStore name config labelStart) := by
  intro s
  unfold SiteAction.openStore
  cases config.validate with
  | error fault => exact refl s
  | ok _ =>
      dsimp only
      rw [bind_of_ok (a := (get : SiteAction Site)) (s := s) rfl]
      split
      · exact refl s
      · intro hs
        have hprepared : (s.database config.databasePath).committed.prepare.Marked P := by
          rw [Tables.Marked, Tables.statements_prepare]
          exact hs.database config.databasePath
        have hput := hs.putDatabase config.databasePath
          (d := { s.database config.databasePath with committed := _ }) hprepared
        refine ⟨hput.databases, fun store hstore => ?_, hput.handles⟩
        rcases List.mem_append.mp hstore with hstore | hstore
        · exact hs.stores store hstore
        · rw [List.mem_singleton.mp hstore]
          exact .make _

theorem closeStore (name : String) :
    Keeps (KeepsSiteMarks P C F) (SiteAction.closeStore name) := by
  refine (number name).bind fun number s hs => ?_
  have given_up : ∀ {entries : List (String × Handle)} {s₁ : Site}, s₁.Marked P C F →
      (∀ entry ∈ entries, entry.2.session.conn.Marked P F) →
        (entries.foldl (fun s entry => s.giveUp entry.2) s₁).Marked P C F := by
    intro entries
    induction entries with
    | nil => exact fun hs₁ _ => hs₁
    | cons entry rest ih =>
        intro s₁ hs₁ hentries
        exact ih (hs₁.giveUp (hentries entry List.mem_cons_self)) fun e he =>
          hentries e (List.mem_cons_of_mem _ he)
  rw [bind_of_ok (a := (get : SiteAction Site)) (s := s) rfl, List.partition_eq_filter_filter]
  refine (given_up hs fun entry hentry => ?_).withHandles (fun entry hentry => ?_) _
  · exact hs.handles entry (List.mem_filter.mp hentry).1
  · exact hs.handles entry (List.mem_filter.mp hentry).1

theorem shutdown (name : String) : Keeps (KeepsSiteMarks P C F) (SiteAction.shutdown name) :=
  onStore name 0 KeepsMarks.shutdown

theorem start (storeName name : String) {session : Connection → Session}
    (hsession : ∀ conn, (session conn).conn = conn) :
    Keeps (KeepsSiteMarks P C F) (SiteAction.start storeName name session) := by
  refine (number storeName).bind fun number =>
    (onStore storeName 0 (Action.storing_of_apart (Action.nextId_apart .transactions))).bind
      fun transaction s hs => ?_
  rw [bind_of_ok (a := (get : SiteAction Site)) (s := s) rfl]
  have hnew : (Handle.mk number (session { transaction })).session.conn.Marked P F := by
    rw [hsession]
    exact Connection.marked_of_new transaction
  have hstarted := hs.withHandles (hs.insert_handle name hnew) s.names
  cases hreplaced : s.handles.get? name with
  | none => exact hstarted
  | some handle => exact hstarted.giveUp (hs.handles _ (Dict.mem_of_get? hreplaced))

theorem drop (name : String) : Keeps (KeepsSiteMarks P C F) (SiteAction.drop name) := by
  intro s
  rw [SiteAction.drop, bind_of_ok (a := (get : SiteAction Site)) (s := s) rfl]
  cases hhandle : s.handles.get? name with
  | none => exact refl s
  | some handle =>
      intro hs
      refine (hs.withHandles (fun entry hentry => ?_) s.names).giveUp
        (hs.handles _ (Dict.mem_of_get? hhandle))
      exact hs.handles entry (List.mem_filter.mp hentry).1

end KeepsSiteMarks

/-! Answers -/

theorem SiteAction.ask_eq_ok {α : Type} {s s' : Site} {name : String} {r : Request α} {v : α}
    (h : SiteAction.ask name r s = .ok v s') :
    ∃ handle w reply, s.handles.get? name = some handle ∧
      s.workspace? handle.store handle.session.conn = some w ∧
      handle.session.ask w r = some reply ∧
        reply.answer = .ok v := by
  rw [SiteAction.ask, bind_of_ok (a := (get : SiteAction Site)) (s := s) rfl] at h
  cases hask : (s.handles.get? name).bind fun handle => s.ask handle r with
  | none =>
      rw [hask] at h
      cases h
  | some result =>
      rw [hask] at h
      obtain ⟨answer, handle', s₁⟩ := result
      obtain ⟨handle, hhandle, hask⟩ := Option.bind_eq_some_iff.mp hask
      obtain ⟨w, hw, hask⟩ := Option.bind_eq_some_iff.mp hask
      obtain ⟨reply, hreply, hask⟩ := Option.bind_eq_some_iff.mp hask
      cases hask
      obtain ⟨_, s₂, -, h⟩ := bind_eq_ok_iff.mp h
      refine ⟨handle, w, reply, hhandle, hw, hreply, ?_⟩
      cases hanswer : reply.answer with
      | error e =>
          rw [hanswer] at h
          cases h
      | ok u =>
          rw [hanswer] at h
          cases h
          rfl

theorem Session.ask_work_eq_ok {α : Type} {session : Session}
    {w : Workspace} {a : Action α} {v : α}
    {reply : Reply α} (h : session.ask w (.work a) = some reply)
    (hanswer : reply.answer = .ok v) :
    ∃ w', a w = .ok v w' := by
  cases session with
  | transaction t =>
      cases h
      unfold Session.runTransaction at hanswer
      cases hop : perform a ⟨w, t.changes, t.closed⟩ with
      | error e y =>
          rw [hop] at hanswer
          cases hanswer
      | ok u y =>
          rw [hop] at hanswer
          cases hanswer
          obtain ⟨w', ha, -⟩ := work_eq_ok_iff.mp (whileOpen_eq_ok_iff.mp hop).2
          exact ⟨w', ha⟩
  | connection c =>
      cases h
      unfold Session.runConnection at hanswer
      cases hop : a w with
      | error e w' =>
          rw [hop] at hanswer
          cases hanswer
      | ok u w' =>
          rw [hop] at hanswer
          cases hanswer
          exact ⟨w', rfl⟩

theorem Site.Marked.exists_answer {α : Type} {s s' : Site} (hs : s.Marked P C F) {name : String}
    {a : Action α} {v : α} (h : SiteAction.ask name (.work a) s = .ok v s') :
    ∃ w w', w.Marked P C F ∧ a w = .ok v w' := by
  obtain ⟨handle, w, reply, hhandle, hw, hreply, hanswer⟩ := SiteAction.ask_eq_ok h
  obtain ⟨w', ha⟩ := Session.ask_work_eq_ok hreply hanswer
  exact ⟨w, w', hs.workspace (hs.handles _ (Dict.mem_of_get? hhandle)) hw, ha⟩

/-! All that is done at a site -/

theorem Chore.keeps_marks (hFC : ∀ t, F t → C t) [Marking P C F] (c : Chore) :
    Keeps (KeepsMarks P C F) c.action := by
  cases c with
  | storeNode n => exact (Action.storeNode_keeps n).bind fun _ => .pure _
  | storeNamespace ns => exact (KeepsMarks.storeNamespace ns).bind fun _ => .pure _
  | deleteNamespace ns => exact (KeepsMarks.deleteNamespace ns).bind fun _ => .pure _
  | commit => exact KeepsMarks.commit
  | rollback => exact KeepsMarks.rollback
  | publish => exact KeepsMarks.publish hFC
  | discard => exact KeepsMarks.discard
  | release =>
      exact Action.keeps_get.bind fun _ => Action.storing_of_apart (Action.modifyRegistry_apart _)

/-- Whatever is done at a site, rows and copies of statements go on to be as is asked. -/
theorem Errand.keeps_marks [AllowsAdding (KeepsMarks P C F)]
    [Marking P C F] (hFC : ∀ t, F t → C t) (e : Errand) : Keeps (KeepsSiteMarks P C F) e.act := by
  cases e with
  | openStore name config labelStart => exact KeepsSiteMarks.openStore name config labelStart
  | closeStore name => exact KeepsSiteMarks.closeStore name
  | shutdown name => exact KeepsSiteMarks.shutdown name
  | clearCaches name =>
      refine KeepsSiteMarks.onStore name 0 fun w hw => ?_
      obtain ⟨hcommitted, -, hconn⟩ := Workspace.marked_iff.mp hw
      exact Workspace.marked_iff.mpr ⟨hcommitted, .clear _, hconn⟩
  | begin storeName name =>
      exact (KeepsSiteMarks.start storeName name fun _ => rfl).bind fun _ => .pure _
  | connect storeName name =>
      exact (KeepsSiteMarks.start storeName name fun _ => rfl).bind fun _ => .pure _
  | drop name => exact (KeepsSiteMarks.drop name).bind fun _ => .pure _
  | call name c =>
      exact (KeepsSiteMarks.ask name (Request.keeps_transaction (c.keeps_marks hFC))).bind
        fun _ => .pure _
  | chore name c => exact KeepsSiteMarks.ask name (Request.keeps_connection (c.keeps_marks hFC))

end
end QuadStore
