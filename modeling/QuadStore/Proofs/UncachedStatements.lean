import QuadStore.Proofs.UncachedNodes

namespace QuadStore

variable {w w' : Workspace}

theorem Tables.Accepts.mono {t t' : Tables} {n : Node} (h : t.Accepts n)
    (hnodes : ∀ r ∈ t.nodes, r ∈ t'.nodes) (hsound : t'.Sound) : t'.Accepts n :=
  h.imp_left fun hknows => hknows.mono hnodes hsound

theorem Tables.Admits.marked {t : Tables} {s : Statement} (h : t.Admits s) {id : Int}
    {deleted deletionTimed inferred isNew : Bool} :
    t.Admits { s with id, deleted, deletionTimed, inferred, isNew } :=
  ⟨h.subject, h.predicate, h.object, h.context, h.creator, h.slots⟩

theorem exists_isNew_of_plain {s s' : Statement} (h : s'.plain = s.plain) :
    ∃ isNew, s' = { s with isNew } := by
  obtain ⟨_, _, _, _, _, _, _, _, _, _⟩ := s
  obtain ⟨_, _, _, _, _, _, _, _, _, isNew⟩ := s'
  simp only [Statement.plain, Statement.mk.injEq] at h
  obtain ⟨rfl, rfl, rfl, rfl, rfl, rfl, rfl, rfl, rfl, -⟩ := h
  exact ⟨isNew, rfl⟩

/-- Whether a statement comes out the same in both of two runs but for the mark of a new id, and
its nodes are known afterwards. -/
def Made (s s' : Statement) (w : Workspace) : Prop :=
  s'.plain = s.plain ∧ w.view.Admits s

namespace Registry

variable (r : Registry) (rows : RegistryFile)

@[simp] theorem strategy_register (key : StatementKey) (transaction id : Int) :
    (r.register rows key transaction id).1.strategy = r.strategy := by
  cases r <;> rfl

@[simp] theorem strategy_delete (key : StatementKey) :
    (r.delete rows key).1.strategy = r.strategy := by
  cases r <;> rfl

@[simp] theorem strategy_release (transaction : Int) :
    (r.release rows transaction).1.strategy = r.strategy := by
  cases r <;> rfl

end Registry

namespace Action

theorem registeredId_agrees (key : StatementKey) : Agrees Like Same (registeredId key) :=
  .of_bare (fun _ => rfl) fun _ h => h

theorem registerId_agrees (key : StatementKey) (id : Int) :
    Agrees Like Same (registerId key id) := by
  refine .of_bare (fun _ => rfl) fun w h => ?_
  exact h.of_quiet (registerId_quiet key id w) h.nodeCounter
    (Registry.strategy_register _ _ _ _ _) rfl h.view (fun n hn => .inl hn) rfl

theorem unregister_agrees (key : StatementKey) : Agrees Like Same (unregister key) := by
  refine .of_bare (fun _ => rfl) fun w h => ?_
  exact h.of_quiet (unregister_quiet key w) h.nodeCounter (Registry.strategy_delete _ _ _) rfl
    h.view (fun n hn => .inl hn) rfl

theorem current_of_live (h : w.Ready) {r : StatementRow} (hr : r ∈ w.view.statements)
    (hlive : r.live = true) : Current w r.id := by
  intro _ r' hr' hid
  rwa [h.sound.row_eq hr' hr hid]

theorem identifyShared_alike (h : Like w w') {t : Statement} (ht : w.view.Admits t) :
    Alike Like Made (identifyShared t w) (identifyShared t w') := by
  refine (registeredId_agrees t.key w w' h).bind fun found found' w₁ w₁' hfound _ hsame h₁ => ?_
  obtain rfl : found' = found := hsame
  obtain rfl : w = w₁ := by
    cases hfound
    rfl
  cases found' with
  | some id =>
      refine (registerId_agrees t.key id w w₁' h₁).bind fun _ _ w₂ w₂' hregister _ _ h₂ => ?_
      have hview : w₂.view = w.view := by
        cases hregister
        rfl
      exact .ok ⟨rfl, hview ▸ ht.marked⟩ h₂
  | none =>
  refine (agrees_view _ w w₁' h₁).bind fun live live' w₂ w₂' hlive _ hsame h₂ => ?_
  obtain rfl : live' = live := hsame
  obtain rfl : w = w₂ := (view_eq_ok_iff.mp hlive).2
  cases live' with
  | some id =>
      obtain ⟨r, hr, hr_live, -, rfl⟩ := liveStatementId_eq_some hlive rfl
      refine (loadStatement_alike h₂ (current_of_live h₂.left hr hr_live)).bind ?_
      rintro s s' w₃ w₃' hload - ⟨hplain, hadmits⟩ h₃
      have hview : w₃.view = w.view := ((loadStatement_reads _).ok hload).view_eq
      cases s <;> cases s' <;>
        simp only [Option.map_some, Option.map_none, reduceCtorEq] at hplain
      · exact .ok ⟨rfl, hview ▸ ht.marked⟩ h₃
      · rename_i s s'
        refine .ok ⟨?_, (hadmits s rfl).marked⟩ h₃
        exact congrArg (fun u : Statement => { u with id := r.id }) (Option.some.inj hplain)
  | none =>
      refine (nextId_agrees .statements (by simp) w w₂' h₂).bind ?_
      rintro id id' w₃ w₃' hid - rfl h₃
      have hview : w₃.view = w.view := by
        cases hid
        rfl
      refine (registerId_agrees t.key id' w₃ w₃' h₃).bind fun _ _ w₄ w₄' hregister _ _ h₄ => ?_
      have hview' : w₄.view = w₃.view := by
        cases hregister
        rfl
      exact .ok ⟨rfl, (hview'.trans hview) ▸ ht.marked⟩ h₄

theorem makeShared_alike (h : Like w w') {subject predicate object context : Node}
    (hsubject : w.view.Knows subject) (hpredicate : w.view.Knows predicate)
    (hobject : w.view.Knows object) (hcontext : w.view.Knows context) :
    let made := Statement.make subject predicate object (some context)
    Alike Like Made ((ofStatement made >>= identifyShared) w)
      ((ofStatement made >>= identifyShared) w') := by
  intro made
  refine (agrees_ofStatement _ w w' h).bind fun t t' w₁ w₁' ht _ hsame h₁ => ?_
  obtain rfl : t' = t := hsame
  obtain ⟨hmade, rfl⟩ := ofStatement_eq_ok_iff.mp ht
  refine identifyShared_alike h₁ ?_
  have hslots := slots_of_make hmade
  obtain rfl := make_eq_ok hmade
  exact ⟨hsubject, hpredicate, hobject, ⟨context, rfl, hcontext⟩, by rintro c ⟨⟩, hslots⟩

theorem createStatement_alike (h : Like w w') {subject predicate object : Node}
    {context : Option Node} (hsubject : w.view.Accepts subject)
    (hpredicate : w.view.Accepts predicate)
    (hobject : w.view.Accepts object) (hcontext : ∀ c, context = some c → w.view.Accepts c) :
    Alike Like Made (createStatement subject predicate object context w)
      (createStatement subject predicate object context w') := by
  refine (agrees_ofStatement _ w w' h).bind fun _ _ w₀ w₀' hcheck _ _ h₀ => ?_
  obtain rfl : w = w₀ := (ofStatement_eq_ok_iff.mp hcheck).2
  refine (convert_alike h₀ hsubject).bind ?_
  rintro _ subject w₁ w₁' hw₁ - ⟨rfl, hsubject⟩ h₁
  have hnodes₁ := ((convert_silent _).ok hw₁).nodes
  have hsound₁ := h₁.left.sound
  refine (convert_alike h₁ (hpredicate.mono hnodes₁ hsound₁)).bind ?_
  rintro _ predicate w₂ w₂' hw₂ - ⟨rfl, hpredicate⟩ h₂
  have hnodes₂ := ((convert_silent _).ok hw₂).nodes
  have hsound₂ := h₂.left.sound
  have hobject₂ := (hobject.mono hnodes₁ hsound₁).mono hnodes₂ hsound₂
  refine (convert_alike h₂ hobject₂).bind ?_
  rintro _ object w₃ w₃' hw₃ - ⟨rfl, hobject⟩ h₃
  have hnodes₃ := ((convert_silent _).ok hw₃).nodes
  have hsound₃ := h₃.left.sound
  have identify_context : ∀ {x x' : Workspace} {c c' : Node}, Silent w₃ x →
      Found c c' x → Like x x' →
      Alike Like Made
        ((ofStatement (Statement.make subject predicate object (some c)) >>= identifyShared) x)
        ((ofStatement (Statement.make subject predicate object (some c')) >>= identifyShared)
          x') := by
    rintro x x' _ c hx ⟨rfl, hcontext⟩ h
    have hsound := h.left.sound
    exact makeShared_alike h
      (((hsubject.mono hnodes₂ hsound₂).mono hnodes₃ hsound₃).mono hx.nodes hsound)
      ((hpredicate.mono hnodes₃ hsound₃).mono hx.nodes hsound)
        (hobject.mono hx.nodes hsound) hcontext
  cases context with
  | some c =>
      have hcontext₃ := (((hcontext c rfl).mono hnodes₁ hsound₁).mono
        hnodes₂ hsound₂).mono hnodes₃ hsound₃
      refine (convert_alike h₃ hcontext₃).bind fun c c' x x' hx _ hc h => ?_
      exact identify_context ((convert_silent _).ok hx) hc h
  | none =>
      dsimp only
      rw [bind_of_ok (a := (get : Action Workspace)) (s := w₃) rfl,
        bind_of_ok (a := (get : Action Workspace)) (s := w₃') rfl, h₃.config]
      refine (createUri_alike h₃ _).bind fun c c' x x' hx _ hc h => ?_
      exact identify_context ((createUri_silent _).ok hx) hc.1 h

theorem checkStorable_agrees (t : Statement) : Agrees Like Same (checkStorable t) := by
  unfold checkStorable
  split
  · exact .throw _
  · split
    · exact .throw _
    · exact .pure _

/-- A statement that has got an id is the same in both of two runs but for
the mark of a new one. -/
def IdentifiedAlike (s s' : Statement) (w : Workspace) : Prop :=
  w.view.Admits s ∧ 0 ≤ s.id ∧ ∃ isNew, s' = { s with isNew }

theorem identify_alike (h : Like w w') {t : Statement} (ht : w.view.Admits t) (isNew : Bool) :
    Alike Like IdentifiedAlike (identify t w) (identify { t with isNew } w') := by
  refine (checkStorable_agrees t w w' h).bind fun _ _ w₁ w₁' hcheck _ _ h₁ => ?_
  have hview : w₁.view = w.view := ((checkStorable_reads t).ok hcheck).view_eq
  dsimp only
  split
  · refine (nextId_agrees .statements (by simp) w₁ w₁' h₁).bind ?_
    rintro _ id w₂ w₂' hid - rfl h₂
    have hid' : 0 ≤ id ∧ w₂.view = w.view := by
      cases hid
      exact ⟨h₂.left.counter, hview⟩
    exact .ok ⟨hid'.2 ▸ ht.marked, hid'.1, isNew, rfl⟩ h₂
  · exact .ok ⟨hview ▸ ht, by omega, isNew, rfl⟩ h₁

/-- A row is added alike for statements that differ in no more than the mark of a new id. -/
theorem insertRow_same (hview : w'.view = w.view)
    (hcounters : w'.store.counters = w.store.counters)
    (t : Statement) (isNew : Bool) :
    ∃ id counter, insertRow t w = .ok { t with id } (withRow w counter { t with id }) ∧
      insertRow { t with isNew } w' =
        .ok { t with id, isNew } (withRow w' counter { t with id }) := by
  unfold insertRow
  cases hinsert : w.view.insertStatement? (.ofStatement t) with
  | some tables =>
      obtain ⟨rfl, -⟩ := Tables.insertStatement?_eq_some hinsert
      refine ⟨t.id, w.store.counters.statements, ?_, ?_⟩
      · rw [bind_of_ok (view_eq_ok_iff.mpr ⟨hinsert, rfl⟩)]
        rfl
      · have hinsert' : w'.view.insertStatement? (.ofStatement { t with isNew }) =
            some (w.view.withStatement (.ofStatement t)) := hview ▸ hinsert
        rw [bind_of_ok (view_eq_ok_iff.mpr ⟨hinsert', rfl⟩), ← hview, ← hcounters]
        rfl
  | none =>
      let used := w.view.statements.map StatementRow.id
      let counter := Counters.skipUsed used used.length w.store.counters.statements
      refine ⟨counter, counter, ?_, ?_⟩
      · rw [bind_of_ok (view_eq_ok_iff.mpr ⟨hinsert, rfl⟩)]
        rfl
      · have hinsert' : w'.view.insertStatement? (.ofStatement { t with isNew }) = none :=
          hview ▸ hinsert
        rw [bind_of_ok (view_eq_ok_iff.mpr ⟨hinsert', rfl⟩)]
        have hcounter : counter = Counters.skipUsed (w'.view.statements.map StatementRow.id)
            (w'.view.statements.map StatementRow.id).length w'.store.counters.statements := by
          rw [hview, hcounters]
        rw [hcounter]
        rfl

theorem ready_withAdded (h : w.Ready) (hwriting : w.conn.writing = true) {t t' : Statement}
    (hnew : t.key ∉ w.view.members) {id counter : Int} (hnumbered : Numbered w t id counter)
    (hid : 0 ≤ t.id) (hkey : t'.key = t.key) (ht' : t'.id = id) (hdeleted : t'.deleted = false)
    (htimed : t'.deletionTimed = false) (hadmits : w.view.Admits t') :
    (withAdded w counter t').Ready := by
  have hworks := withAdded_works hwriting hnew hnumbered (fun _ => hid) hkey ht' hdeleted
  have hgood := hworks.good h.toGood
  have hadmits' : (withAdded w counter t').view.Admits t' := hadmits.mono hworks.nodes hgood.sound
  refine ⟨hgood, h.nodeCounter, h.registry, h.committed, h.view.withStatement hadmits, h.caches,
    fun n hn => (h.freshNodes n hn).mono hworks.nodes hgood.sound, fun s hs => ?_, fun r hr => ?_⟩
  · rcases List.mem_append.mp hs with hs | hs
    · obtain ⟨r, hr, hshows⟩ := h.freshStatements s hs
      exact ⟨r, List.mem_append_left _ hr, hshows.mono hworks.nodes hgood.sound⟩
    · obtain rfl := List.mem_singleton.mp hs
      exact ⟨.ofStatement s, List.mem_append_right _ (List.mem_singleton_self _),
        Tables.shows_ofStatement hadmits' hdeleted htimed⟩
  · rcases h.kept r hr with hkept | ⟨hlive, hmarked⟩
    · exact .inl (List.mem_append_left _ hkept)
    · exact .inr ⟨hlive, List.mem_append_left _ hmarked⟩

theorem bare_withAdded (h : w'.bare = w.bare) (counter : Int) (t : Statement) (isNew : Bool) :
    (withAdded w' counter { t with isNew }).bare = (withAdded w counter t).bare :=
  (congrArg (fun x : Workspace => { x with
    store := { x.store with counters := x.store.counters.set counter .statements }
    conn := { x.conn with
      pending := some (x.view.withStatement (.ofStatement t))
      touched := x.conn.touched ++ [t.id] } }) h :)

/-- Whether a statement was stored or removed alike, and in both of two runs or in
neither it was there before. -/
def Changed (v v' : Statement × Bool) (w : Workspace) : Prop :=
  Made v.1 v'.1 w ∧ v'.2 = v.2

/-- What becomes of a statement that a live row holds. -/
def keepLive (t : Statement) (existing : Int) : Action (Statement × Bool) := do
  let marks ← do
    match ← loadStatement existing with
    | some stored => pure stored.inferred
    | none => pure t.inferred
  pure ({ t with id := existing, inferred := marks, deleted := false }, false)

/-- What becomes of a statement that no live row holds. -/
def addRow (t : Statement) : Action (Statement × Bool) := do
  let t ← insertRow t
  let t := { t with deleted := false, deletionTimed := false }
  modifyConn fun c =>
    { c with touched := c.touched ++ [t.id], freshStatements := c.freshStatements ++ [t] }
  pure (t, true)

theorem storeIdentified_eq_elim (t : Statement) : storeIdentified t = (do
    beginWrite
    (← liveStatementId t.key).elim (addRow t) (keepLive t)) := by
  unfold storeIdentified
  congr 1
  funext _
  congr 1
  funext live
  cases live <;> rfl

theorem keepLive_alike (h : Like w w') {t : Statement} (ht : w.view.Admits t) {id : Int}
    (hcurrent : Current w id) (isNew : Bool) :
    Alike Like Changed (keepLive t id w) (keepLive { t with isNew } id w') := by
  refine (loadStatement_alike h hcurrent).bind ?_
  rintro s s' w₁ w₁' hload - ⟨hplain, -⟩ h₁
  rw [← ((loadStatement_reads _).ok hload).view_eq] at ht
  cases s <;> cases s' <;> simp only [Option.map_some, Option.map_none, reduceCtorEq] at hplain
  · exact .ok ⟨⟨rfl, ht.marked⟩, rfl⟩ h₁
  · have hinferred := congrArg Statement.inferred (Option.some.inj hplain)
    refine .ok ⟨⟨?_, ht.marked⟩, rfl⟩ h₁
    simp only [Statement.plain] at hinferred ⊢
    rw [hinferred]

theorem addRow_alike (h : Like w w') {t : Statement} (ht : w.view.Admits t) (hid : 0 ≤ t.id)
    (hwriting : w.conn.writing = true) (hnew : t.key ∉ w.view.members) (isNew : Bool) :
    Alike Like Changed (addRow t w) (addRow { t with isNew } w') := by
  obtain ⟨id, counter, hinsert, hinsert'⟩ := insertRow_same h.view h.counters t isNew
  obtain ⟨id₂, counter₂, hinsert₂, hnumbered⟩ := insertRow_eq hnew
  rw [hinsert] at hinsert₂
  injection hinsert₂ with hid₂ hstate
  obtain rfl : id = id₂ := congrArg Statement.id hid₂
  obtain rfl : counter = counter₂ :=
    congrArg (fun x : Workspace => x.store.counters.statements) hstate
  have hnumbered' : Numbered w' t id counter := by
    rw [Numbered, h.view, h.counters]
    exact hnumbered
  let added : Statement := { t with id, deleted := false, deletionTimed := false }
  have hready : (withAdded w counter added).Ready :=
    ready_withAdded h.left hwriting hnew hnumbered hid rfl rfl rfl rfl ht.marked
  have hready' : (withAdded w' counter { added with isNew }).Ready :=
    ready_withAdded h.right (h.writing.trans hwriting) (h.view ▸ hnew) hnumbered' hid rfl rfl
      rfl rfl (h.view ▸ ht.marked)
  have hadmits : (withAdded w counter added).view.Admits added :=
    ht.marked.mono (fun _ hr => hr) hready.sound
  unfold addRow
  rw [bind_of_ok hinsert, bind_of_ok hinsert']
  exact .ok ⟨⟨rfl, hadmits⟩, rfl⟩ ⟨hready, hready', bare_withAdded h.bare counter added isNew⟩

theorem storeIdentified_alike (h : Like w w') {t : Statement}
    (ht : w.view.Admits t) (hid : 0 ≤ t.id) (isNew : Bool) :
    Alike Like Changed (storeIdentified t w) (storeIdentified { t with isNew } w') := by
  rw [storeIdentified_eq_elim, storeIdentified_eq_elim]
  refine (beginWrite_agrees w w' h).bind fun _ _ w₁ w₁' hbegin _ _ h₁ => ?_
  obtain ⟨hwriting, hview⟩ := beginWrite_eq_ok hbegin
  rw [← hview] at ht
  refine (agrees_view _ w₁ w₁' h₁).bind fun live live' w₂ w₂' hlive _ hsame h₂ => ?_
  obtain rfl : live' = live := hsame
  obtain rfl : w₁ = w₂ := (view_eq_ok_iff.mp hlive).2
  cases live' with
  | some existing =>
      obtain ⟨r, hr, hr_live, -, rfl⟩ := liveStatementId_eq_some hlive rfl
      exact keepLive_alike h₂ ht (current_of_live h₂.left hr hr_live) isNew
  | none => exact addRow_alike h₂ ht hid hwriting (liveStatementId_eq_none hlive) isNew

theorem storeStatement_alike (h : Like w w') {t t' : Statement} (ht : w.view.Admits t)
    (hplain : t'.plain = t.plain) :
    Alike Like Changed (storeStatement t w) (storeStatement t' w') := by
  obtain ⟨isNew, rfl⟩ := exists_isNew_of_plain hplain
  refine (identify_alike h ht isNew).bind ?_
  rintro s _ w₁ w₁' - - ⟨hadmits, hid, isNew', rfl⟩ h₁
  exact storeIdentified_alike h₁ hadmits hid isNew'

theorem ready_withRemoved (h : w.Ready) (hwriting : w.conn.writing = true) (id : Int) :
    (withRemoved w id).Ready := by
  have hworks := withRemoved_works hwriting id
  have hgood := hworks.good h.toGood
  refine ⟨hgood, h.nodeCounter, h.registry, h.committed, h.view.withDeleted [id], h.caches,
    fun n hn => (h.freshNodes n hn).mono hworks.nodes hgood.sound, fun s hs => ?_, fun r hr => ?_⟩
  · obtain ⟨hs, hid⟩ := List.mem_filter.mp hs
    obtain ⟨r, hr, hshows⟩ := h.freshStatements s hs
    refine ⟨r, Tables.mem_withDeleted_iff.mpr (.inl ⟨hr, fun hmem => ?_⟩),
      hshows.mono hworks.nodes hgood.sound⟩
    simp [hshows.id.trans (List.mem_singleton.mp hmem)] at hid
  · rcases h.kept r hr with hkept | ⟨hlive, hmarked⟩
    · by_cases hdeleted : r.id ∈ [id] ∧ r.live = true
      · exact .inr ⟨hdeleted.2,
          Tables.mem_withDeleted_iff.mpr (.inr ⟨r, hkept, hdeleted.1, hdeleted.2, rfl⟩)⟩
      · refine .inl (Tables.mem_withDeleted_iff.mpr (.inl ⟨hkept, fun hid => ?_⟩))
        simpa [hid] using hdeleted
    · exact .inr ⟨hlive, Tables.mem_withDeleted_iff.mpr (.inl ⟨hmarked, fun _ => rfl⟩)⟩

theorem bare_withRemoved (h : w'.bare = w.bare) (id : Int) :
    (withRemoved w' id).bare = (withRemoved w id).bare :=
  (congrArg (fun x : Workspace => { x with conn := { x.conn with
    pending := some (x.view.withDeleted [id]), touched := x.conn.touched ++ [id] } }) h :)

theorem deleteStatement_alike (h : Like w w') {t : Statement}
    (ht : w.view.Admits t) (isNew : Bool) :
    Alike Like Changed (deleteStatement t w) (deleteStatement { t with isNew } w') := by
  by_cases hid : t.id < 0
  · unfold deleteStatement
    rw [if_pos hid, if_pos hid]
    exact .ok ⟨⟨rfl, ht⟩, rfl⟩ h
  have hid' := Int.not_lt.mp hid
  have hbegin := beginWrite_agrees w w' h
  cases hw : beginWrite w <;> cases hw' : beginWrite w' <;>
    rw [hw, hw'] at hbegin <;> cases hbegin
  · rename_i w₁ _ w₁' _ h₁
    classical
    let removed := decide (t.id ∈ w.view.liveIds)
    have hremoved : removed = true ↔ t.id ∈ w.view.liveIds := decide_eq_true_iff
    rw [deleteStatement_eq_ok hid' hw hremoved,
      deleteStatement_eq_ok (t := { t with isNew }) hid' hw' (h.view ▸ hremoved)]
    obtain ⟨hwriting, hview⟩ := beginWrite_eq_ok hw
    have hready := ready_withRemoved h₁.left hwriting t.id
    have hready' := ready_withRemoved h₁.right (h₁.writing.trans hwriting) t.id
    have hadmits : (withRemoved w₁ t.id).view.Admits t := by
      rw [← hview] at ht
      exact ht.mono (fun _ hr => hr) hready.sound
    refine .ok ⟨?_, rfl⟩ ⟨hready, hready', bare_withRemoved h₁.bare t.id⟩
    cases removed
    · exact ⟨rfl, hadmits⟩
    · exact ⟨rfl, hadmits.marked⟩
  · rename_i h₁
    unfold deleteStatement
    rw [if_neg hid, if_neg (show ¬({ t with isNew } : Statement).id < 0 from hid),
      bind_of_error hw, bind_of_error hw']
    exact .error h₁

theorem removeStatement_alike (h : Like w w') {t t' : Statement} (ht : w.view.Admits t)
    (hplain : t'.plain = t.plain) :
    Alike Like Changed (removeStatement t w) (removeStatement t' w') := by
  obtain ⟨isNew, rfl⟩ := exists_isNew_of_plain hplain
  refine (deleteStatement_alike h ht isNew).bind ?_
  rintro ⟨s, removed⟩ ⟨s', removed'⟩ w₁ w₁' - - ⟨⟨hplain, hadmits⟩, hremoved⟩ h₁
  obtain ⟨isNew', rfl⟩ := exists_isNew_of_plain hplain
  obtain rfl : removed' = removed := hremoved
  refine (unregister_agrees s.key w₁ w₁' h₁).bind fun _ _ w₂ w₂' hunregister _ _ h₂ => ?_
  have hview : w₂.view = w₁.view := by
    cases hunregister
    rfl
  exact .ok ⟨⟨rfl, hview ▸ hadmits⟩, rfl⟩ h₂

end Action
end QuadStore
