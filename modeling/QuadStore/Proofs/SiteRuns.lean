import QuadStore.Proofs.OpenStores
import QuadStore.Site

namespace QuadStore

open Transaction

theorem Dict.get?_insert_erase {κ ν : Type} [DecidableEq κ] (d : Dict κ ν)
    (key other : κ) (value : ν) :
    (d.insert key value).get? other =
      if key = other then some value else (d.erase key).get? other := by
  rw [get?_insert, get?_erase]
  split <;> rfl

namespace Site

/-- Whether a site holds what the transactions of an open store share. -/
structure Shares (site : Site) (storeName : String) (number : Nat) (s : OpenStore) : Prop where
  name : site.names.get? storeName = some number
  store : site.stores[number]? = some s.store
  database : site.database s.store.config.databasePath = s.database
  registryFile : site.registryFile s.store.config.registryPath = s.registryFile

/-- Whether a site holds an open store and nothing else is in use there. The transactions of the
store are called by the given names, as far as they have not been given up. -/
structure Holds (site : Site) (storeName : String) (number : Nat) (names : List (Option String))
    (s : OpenStore) : Prop extends Shares site storeName number s where
  length : names.length = s.transactions.length
  distinct : ∀ (i j : Nat) (name : String), names[i]? = some (some name) →
    names[j]? = some (some name) → i = j
  handles : ∀ name h, site.handles.get? name = some h ↔
    ∃ (i : Nat) (t : Transaction), names[i]? = some (some name) ∧ s.transactions[i]? = some t ∧
      h = ⟨number, .transaction t⟩

variable {site : Site} {storeName name : String} {number i : Nat} {names : List (Option String)}
variable {s : OpenStore} {x y : Scope} {t : Transaction}

theorem Shares.workspace?_eq (h : site.Shares storeName number s) (conn : Connection) :
    site.workspace? number conn = some { s.shared with conn } := by
  rw [workspace?, h.store, Option.map_some, h.database, h.registryFile]
  rfl

theorem Shares.of_handles (h : site.Shares storeName number s) (handles : Dict String Handle) :
    Shares { site with handles } storeName number s :=
  ⟨h.name, h.store, h.database, h.registryFile⟩

theorem Shares.putBack (h : site.Shares storeName number s) (w : Workspace)
    (transactions : List Transaction) :
    (site.putBack number w).Shares storeName number
      ⟨w.database, w.registryFile, w.store, transactions⟩ := by
  refine ⟨h.name, ?_, ?_, ?_⟩
  · obtain ⟨hlt, -⟩ := List.getElem?_eq_some_iff.mp h.store
    exact List.getElem?_set_self hlt
  · show Option.getD (Dict.get? (Dict.insert site.databases _ w.database) _) {} = w.database
    rw [Dict.get?_insert, if_pos rfl, Option.getD_some]
  · show Option.getD (Dict.get? (Dict.insert site.registryFiles _ w.registryFile) _) [] = _
    rw [Dict.get?_insert, if_pos rfl, Option.getD_some]

namespace Holds

theorem lt_of_named (h : site.Holds storeName number names s) {n : Option String}
    (hname : names[i]? = some n) : ∃ t, s.transactions[i]? = some t := by
  obtain ⟨hlt, -⟩ := List.getElem?_eq_some_iff.mp hname
  exact ⟨_, List.getElem?_eq_getElem (h.length ▸ hlt)⟩

theorem unname (h : site.Holds storeName number names s) (hname : names[i]? = some (some name)) :
    Holds { site with handles := site.handles.erase name } storeName
      number (names.set i none) s := by
  have hnamed : ∀ {j : Nat} {other : String},
      (names.set i none)[j]? = some (some other) ↔
        names[j]? = some (some other) ∧ name ≠ other := by
    intro j other
    rw [List.getElem?_set]
    constructor
    · intro hj
      split at hj
      · split at hj <;> cases hj
      · refine ⟨hj, ?_⟩
        rintro rfl
        exact absurd (h.distinct i j name hname hj) ‹_›
    · rintro ⟨hj, hne⟩
      rw [if_neg]
      · exact hj
      · rintro rfl
        exact hne (Option.some.inj (Option.some.inj (hname.symm.trans hj)))
  refine ⟨h.toShares.of_handles _, by rw [List.length_set, h.length], ?_, ?_⟩
  · intro j k other hj hk
    exact h.distinct j k other (hnamed.mp hj).1 (hnamed.mp hk).1
  · intro other handle
    show Dict.get? (Dict.erase site.handles name) other = some handle ↔ _
    rw [Dict.get?_erase]
    split
    · rename_i heq
      simp [hnamed, heq]
    · rename_i hne
      simp [hnamed, hne, h.handles]

theorem rename (h : site.Holds storeName number names s) (hname : names[i]? = some none)
    (ht : s.transactions[i]? = some t) {handles : Dict String Handle}
    (hhandles : ∀ other, handles.get? other =
      if name = other then some ⟨number, .transaction t⟩ else site.handles.get? other)
    (hfresh : site.handles.get? name = none) :
    Holds { site with handles } storeName number (names.set i (some name)) s := by
  have hunused : ∀ j : Nat, names[j]? ≠ some (some name) := by
    intro j hj
    obtain ⟨u, hu⟩ := h.lt_of_named hj
    rw [(h.handles name _).mpr ⟨j, u, hj, hu, rfl⟩] at hfresh
    cases hfresh
  have hnamed : ∀ {j : Nat} {other : String}, (names.set i (some name))[j]? = some (some other) ↔
      j = i ∧ name = other ∨ names[j]? = some (some other) := by
    intro j other
    by_cases hij : i = j
    · subst hij
      obtain ⟨hlt, hnone⟩ := List.getElem?_eq_some_iff.mp hname
      simp [hlt, hnone]
    · simp [hij, Ne.symm hij]
  refine ⟨h.toShares.of_handles _, by rw [List.length_set, h.length], ?_, ?_⟩
  · intro j k other hj hk
    rcases hnamed.mp hj with ⟨rfl, rfl⟩ | hj' <;> rcases hnamed.mp hk with ⟨rfl, hsame⟩ | hk'
    · rfl
    · exact absurd hk' (hunused k)
    · exact absurd (hsame ▸ hj') (hunused j)
    · exact h.distinct j k other hj' hk'
  · intro other handle
    show handles.get? other = some handle ↔ _
    rw [hhandles other]
    split
    · rename_i heq
      subst heq
      constructor
      · rintro ⟨⟩
        exact ⟨i, t, hnamed.mpr (.inl ⟨rfl, rfl⟩), ht, rfl⟩
      · rintro ⟨j, u, hj, hu, rfl⟩
        rcases hnamed.mp hj with ⟨rfl, -⟩ | hj
        · rw [Option.some.inj (ht.symm.trans hu)]
        · exact absurd hj (hunused j)
    · rename_i hne
      simp [hnamed, hne, h.handles]

theorem put (h : site.Holds storeName number names s) (hname : names[i]? = some none) :
    (site.putBack number y.work).Holds storeName number names (s.put i y) := by
  refine ⟨h.toShares.putBack _ _, ?_, h.distinct, ?_⟩
  · rw [OpenStore.put, List.length_set, h.length]
  · intro other handle
    show site.handles.get? other = some handle ↔ _
    rw [h.handles]
    have hother : ∀ {j : Nat}, names[j]? = some (some other) →
        (s.put i y).transactions[j]? = s.transactions[j]? := by
      intro j hj
      apply List.getElem?_set_ne
      rintro rfl
      cases hname.symm.trans hj
    constructor
    · rintro ⟨j, u, hj, hu, rfl⟩
      exact ⟨j, u, hj, (hother hj).trans hu, rfl⟩
    · rintro ⟨j, u, hj, hu, rfl⟩
      exact ⟨j, u, hj, (hother hj).symm.trans hu, rfl⟩

theorem begin (h : site.Holds storeName number names s) :
    (site.putBack number s.begin.shared).Holds storeName number (names ++ [none]) s.begin := by
  have hlast : ∀ {j : Nat} {other : String},
      (names ++ [none])[j]? = some (some other) ↔ names[j]? = some (some other) := by
    intro j other
    rw [List.getElem?_append]
    split
    · rfl
    · rename_i hlt
      rw [List.getElem?_singleton, List.getElem?_eq_none (Nat.le_of_not_lt hlt)]
      split <;> simp
  refine ⟨h.toShares.putBack _ _, ?_, ?_, ?_⟩
  · rw [OpenStore.transactions_begin, List.length_append, List.length_append, h.length]
    rfl
  · intro j k other hj hk
    exact h.distinct j k other (hlast.mp hj) (hlast.mp hk)
  · intro other handle
    show site.handles.get? other = some handle ↔ _
    rw [h.handles]
    have hbefore : ∀ {j : Nat}, names[j]? = some (some other) →
        s.begin.transactions[j]? = s.transactions[j]? := by
      intro j hj
      obtain ⟨hlt, -⟩ := List.getElem?_eq_some_iff.mp hj
      rw [OpenStore.transactions_begin, List.getElem?_append_left (h.length ▸ hlt)]
    constructor
    · rintro ⟨j, u, hj, hu, rfl⟩
      exact ⟨j, u, hlast.mpr hj, (hbefore hj).trans hu, rfl⟩
    · rintro ⟨j, u, hj, hu, rfl⟩
      exact ⟨j, u, hlast.mp hj, (hbefore (hlast.mp hj)).symm.trans hu, rfl⟩

end Holds

theorem Shares.ask_eq (h : site.Shares storeName number s) {α : Type} (op : Operation α)
    (onConnection : Option (Action α)) {y : Scope} (hy : finalState (op (s.scopeOf t)) = y) :
    site.ask ⟨number, .transaction t⟩ ⟨some op, onConnection⟩ =
      some (answerOf (op (s.scopeOf t)),
        ⟨number, .transaction ⟨y.work.conn, y.changes, y.closed⟩⟩,
          site.putBack number y.work) := by
  have hreply : Session.runTransaction t (s.scopeOf t).work op =
      ⟨answerOf (op (s.scopeOf t)), y.work, .transaction ⟨y.work.conn, y.changes, y.closed⟩⟩ := by
    have hscope : s.scopeOf t = ⟨(s.scopeOf t).work, t.changes, t.closed⟩ := rfl
    rw [← hy, Session.runTransaction, ← hscope]
    cases op (s.scopeOf t) <;> rfl
  have hwork := h.workspace?_eq t.conn
  change (site.workspace? number t.conn).bind _ = _
  rw [hwork, Option.bind_some]
  change (Option.some (Session.runTransaction t (s.scopeOf t).work op)).bind _ = _
  rw [hreply]
  rfl

theorem Shares.number_eq (h : site.Shares storeName number s) :
    SiteAction.number storeName site = .ok number site := by
  rw [SiteAction.number, bind_of_ok (a := (get : SiteAction Site)) (s := site) rfl, h.name]
  rfl

theorem Shares.onStore_eq_ok (h : site.Shares storeName number s) {α : Type} {a : Action α}
    {transaction : Int} {v : α} {w : Workspace}
    (ha : a { s.shared with conn := { transaction } } = .ok v w) :
    SiteAction.onStore storeName transaction a site = .ok v (site.putBack number w) := by
  have hask : site.ask ⟨number, .connection { transaction }⟩ (.work a) =
      some (.ok v, ⟨number, .connection w.conn⟩, site.putBack number w) := by
    have hwork := h.workspace?_eq { transaction }
    change (site.workspace? number { transaction }).bind _ = _
    rw [hwork, Option.bind_some]
    change (Option.some (Session.runConnection _ a)).bind _ = _
    rw [Session.runConnection, ha]
    rfl
  rw [SiteAction.onStore, bind_of_ok h.number_eq,
    bind_of_ok (a := (get : SiteAction Site)) (s := site) rfl, hask]
  rfl

namespace Holds

theorem exists_named (h : site.Holds storeName number names s) {handle : Handle}
    (hhandle : site.handles.get? name = some handle) :
    ∃ (i : Nat) (t : Transaction), names[i]? = some (some name) ∧
      s.scope? i = some (s.scopeOf t) ∧ s.begin.scope? i = some (s.begin.scopeOf t) ∧
        handle = ⟨number, .transaction t⟩ := by
  obtain ⟨i, t, hname, ht, hhandle⟩ := (h.handles name handle).mp hhandle
  have hlt := (List.getElem?_eq_some_iff.mp ht).1
  refine ⟨i, t, hname, ?_, ?_, hhandle⟩
  · rw [OpenStore.scope?, ht, Option.map_some]
  · rw [OpenStore.scope?, OpenStore.transactions_begin, List.getElem?_append_left hlt, ht,
      Option.map_some]

theorem ask (h : site.Holds storeName number names s) (hname : names[i]? = some (some name))
    (hx : s.scope? i = some x) {α : Type} (op : Operation α) (onConnection : Option (Action α)) :
    ∃ site', SiteAction.ask name ⟨some op, onConnection⟩ site =
        SiteAction.ofExcept (answerOf (op x)) site' ∧
      site'.Holds storeName number names (s.put i (finalState (op x))) := by
  obtain ⟨t, ht, rfl⟩ := Option.map_eq_some_iff.mp hx
  have hhandle := (h.handles name _).mpr ⟨i, t, hname, ht, rfl⟩
  obtain ⟨y, hy⟩ : ∃ y, finalState (op (s.scopeOf t)) = y := ⟨_, rfl⟩
  let left : Handle := ⟨number, .transaction ⟨y.work.conn, y.changes, y.closed⟩⟩
  refine ⟨{ site.putBack number y.work with handles := site.handles.insert name left }, ?_, ?_⟩
  · rw [SiteAction.ask, bind_of_ok (a := (get : SiteAction Site)) (s := site) rfl, hhandle,
      Option.bind_some, h.ask_eq op onConnection hy]
    exact bind_of_ok rfl
  · obtain ⟨hlt, hget⟩ := List.getElem?_eq_some_iff.mp hname
    have hnames : (names.set i none).set i (some name) = names := by
      rw [List.set_set, ← hget, List.set_getElem_self]
    have hput := (h.unname hname).put (y := y) (i := i) (by simp [hlt])
    have hnew : (s.put i y).transactions[i]? = some ⟨y.work.conn, y.changes, y.closed⟩ :=
      List.getElem?_set_self (List.getElem?_eq_some_iff.mp ht).1
    rw [hy]
    rw [← hnames]
    refine hput.rename (by simp [hlt]) hnew (Dict.get?_insert_erase _ name · left) ?_
    show (Dict.erase site.handles name).get? name = none
    rw [Dict.get?_erase, if_pos rfl]

theorem giveUp (h : site.Holds storeName number names s) (hname : names[i]? = some none) :
    (site.giveUp ⟨number, .transaction t⟩).Holds storeName number names
      (s.put i (finalState (Transaction.drop (s.scopeOf t)))) := by
  rw [Site.giveUp, Request.drop, h.ask_eq Transaction.drop _ rfl]
  exact h.put hname

end Holds

/-- What can be done at a site with the transactions of a store. -/
inductive Deed
  | begin (name : String)
  | clearCaches
  | ask (name : String) (c : Call)
  | drop (name : String)

/-- How it is done. -/
def Deed.act (storeName : String) : Deed → SiteAction Unit
  | .begin name => discard (SiteAction.begin storeName name)
  | .clearCaches => SiteAction.onStore storeName 0 (Action.modifyStore Store.clearCaches)
  | .ask name c => discard (SiteAction.ask name ⟨some c.run, none⟩)
  | .drop name => discard (SiteAction.drop name)

theorem finalState_discard {α : Type} (a : SiteAction α) (site : Site) :
    finalState ((discard a : SiteAction Unit) site) = finalState (a site) := by
  change finalState (EStateM.map _ a site) = _
  unfold EStateM.map
  cases a site <;> rfl

namespace Holds

theorem act_ask (h : site.Holds storeName number names s) (name : String) (c : Call) :
    ∃ log s', s.Run log s' ∧
      (finalState ((Deed.ask name c).act storeName site)).Holds storeName number names s' := by
  rw [Deed.act, finalState_discard]
  cases hhandle : site.handles.get? name with
  | none =>
      refine ⟨[], s, .nil, ?_⟩
      rw [SiteAction.ask, bind_of_ok (a := (get : SiteAction Site)) (s := site) rfl, hhandle]
      exact h
  | some handle =>
      obtain ⟨i, t, hname, hx, -, -⟩ := h.exists_named hhandle
      obtain ⟨site', hasked, hholds⟩ := h.ask hname hx c.run none
      refine ⟨_, _, .snoc .nil (.call c hx), ?_⟩
      rw [hasked]
      cases answerOf (c.run (s.scopeOf t)) <;> exact hholds

theorem act_drop (h : site.Holds storeName number names s) (name : String) :
    ∃ log s' names', s.Run log s' ∧
      (finalState ((Deed.drop name).act storeName site)).Holds storeName number names' s' := by
  rw [Deed.act, finalState_discard, SiteAction.drop,
    bind_of_ok (a := (get : SiteAction Site)) (s := site) rfl]
  cases hhandle : site.handles.get? name with
  | none => exact ⟨[], s, names, .nil, h⟩
  | some handle =>
      obtain ⟨i, t, hname, hx, -, rfl⟩ := h.exists_named hhandle
      obtain ⟨hlt, -⟩ := List.getElem?_eq_some_iff.mp hname
      exact ⟨_, _, _, .snoc .nil (.call .drop hx), (h.unname hname).giveUp (by simp [hlt])⟩

theorem act_begin (h : site.Holds storeName number names s) (name : String) :
    ∃ log s' names', s.Run log s' ∧
      (finalState ((Deed.begin name).act storeName site)).Holds storeName number names' s' := by
  have hbegun : SiteAction.onStore storeName 0 (Action.nextId .transactions) site =
      .ok (s.store.counters.transactions + 1) (site.putBack number s.begin.shared) :=
    h.onStore_eq_ok rfl
  have hlast : s.begin.transactions[names.length]? =
      some { conn := { transaction := s.store.counters.transactions + 1 } } := by
    rw [OpenStore.transactions_begin, h.length]
    simp
  have hbegin := h.begin
  obtain ⟨site₁, hsite₁⟩ : ∃ site₁, site.putBack number s.begin.shared = site₁ := ⟨_, rfl⟩
  have hhandles : site₁.handles = site.handles := by rw [← hsite₁]; rfl
  rw [hsite₁] at hbegun hbegin
  rw [Deed.act, finalState_discard, SiteAction.begin, SiteAction.start, bind_of_ok h.number_eq,
    bind_of_ok hbegun, bind_of_ok (a := (get : SiteAction Site)) rfl]
  cases hhandle : site.handles.get? name with
  | none =>
      have hfresh : site₁.handles.get? name = none := hhandles ▸ hhandle
      rw [hfresh]
      refine ⟨_, s.begin, (names ++ [none]).set names.length (some name), .snoc .nil .begin, ?_⟩
      exact hbegin.rename (by simp) hlast (Dict.get?_insert _ _ · _) hfresh
  | some handle =>
      obtain ⟨i, t, hname, -, hx, rfl⟩ := h.exists_named hhandle
      obtain ⟨hlt, -⟩ := List.getElem?_eq_some_iff.mp hname
      have hname' : (names ++ [none])[i]? = some (some name) := by
        rw [List.getElem?_append_left hlt, hname]
      have hrenamed := (hbegin.unname hname').rename (i := names.length) (by simp [hlt.ne]) hlast
        (Dict.get?_insert_erase site₁.handles name · _) (by rw [Dict.get?_erase, if_pos rfl])
      have hnamed : site₁.handles.get? name = some ⟨number, .transaction t⟩ := hhandles ▸ hhandle
      rw [hnamed]
      refine ⟨_, _, ((names ++ [none]).set i none).set names.length (some name),
        .snoc (.snoc .nil .begin) (.call .drop hx), ?_⟩
      refine hrenamed.giveUp (i := i) ?_
      rw [List.getElem?_set_ne hlt.ne', List.getElem?_set_self]
      rw [List.length_append]
      omega

theorem act_clearCaches (h : site.Holds storeName number names s) :
    (finalState (Deed.clearCaches.act storeName site)).Holds storeName
      number names s.clearCaches := by
  rw [Deed.act, h.onStore_eq_ok (w := { s.shared with store := s.store.clearCaches }) rfl]
  exact ⟨h.toShares.putBack _ _, h.length, h.distinct, h.handles⟩

theorem act (h : site.Holds storeName number names s) (d : Deed) :
    ∃ log s' names', s.Run log s' ∧
      (finalState (d.act storeName site)).Holds storeName number names' s' := by
  cases d with
  | begin name => exact h.act_begin name
  | clearCaches => exact ⟨_, _, names, .snoc .nil .clearCaches, h.act_clearCaches⟩
  | ask name c =>
      obtain ⟨log, s', hrun, hholds⟩ := h.act_ask name c
      exact ⟨log, s', names, hrun, hholds⟩
  | drop name => exact h.act_drop name

end Holds

/-- A site after one thing after another. -/
def after (site : Site) (storeName : String) (deeds : List Deed) : Site :=
  deeds.foldl (fun site d => finalState (d.act storeName site)) site

theorem Holds.exists_run (h : site.Holds storeName number names s) (deeds : List Deed) :
    ∃ log s' names', s.Run log s' ∧
      (site.after storeName deeds).Holds storeName number names' s' := by
  induction deeds generalizing site names s with
  | nil => exact ⟨[], s, names, .nil, h⟩
  | cons d rest ih =>
      obtain ⟨log, s₁, names₁, hrun, hholds⟩ := h.act d
      obtain ⟨log', s', names', hrest, hholds'⟩ := ih hholds
      exact ⟨log ++ log', s', names', hrun.append hrest, hholds'⟩

/-- A store is opened on the tables and the registry that its files hold. -/
theorem holds_openStore {config : Config} (hvalid : config.validate = .ok ())
    (hfree : (site.database config.databasePath).locked = false)
    (hunused : ∀ name, site.handles.get? name = none) (labelStart : String) :
    ∃ site', SiteAction.openStore storeName config labelStart site = .ok () site' ∧
      site'.Holds storeName site.stores.length []
        (.opened config (site.database config.databasePath).committed
          (site.registryFile config.registryPath) labelStart) := by
  obtain ⟨⟨tables, locked⟩, hdatabase⟩ : ∃ d, site.database config.databasePath = d := ⟨_, rfl⟩
  rw [hdatabase] at hfree ⊢
  obtain rfl : locked = false := hfree
  let opened : Site :=
    { site.putDatabase config.databasePath { committed := tables.prepare } with
      stores := site.stores ++ [Store.make config tables.prepare labelStart]
      names := site.names.insert storeName site.stores.length }
  refine ⟨opened, ?_, ⟨?_, ?_, ?_, rfl⟩, rfl, by simp, ?_⟩
  · rw [SiteAction.openStore, hvalid]
    refine (bind_of_ok (a := (get : SiteAction Site)) (s := site) rfl).trans ?_
    rw [hdatabase]
    rfl
  · show (Dict.insert site.names storeName site.stores.length).get? storeName = _
    rw [Dict.get?_insert, if_pos rfl]
  · show (site.stores ++ [_])[site.stores.length]? = _
    simp [OpenStore.opened]
  · let path := Text.pathParts config.databasePath
    show Option.getD (Dict.get? (Dict.insert site.databases path _) path) {} = _
    rw [Dict.get?_insert, if_pos rfl]
    rfl
  · intro name handle
    show site.handles.get? name = some handle ↔ _
    simp [hunused]

end Site
end QuadStore
