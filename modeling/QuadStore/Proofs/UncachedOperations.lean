import QuadStore.Proofs.UncachedReading
import QuadStore.Proofs.UncachedStatements

namespace QuadStore

namespace ChangeEvent

variable (e : ChangeEvent) (t : Statement)

theorem plain_add : (e.add t).plain = e.plain.add t.plain := by
  simp [plain, add]

theorem plain_remove : (e.remove t).plain = e.plain.remove t.plain := by
  have hany : (e.plain.added.any fun u => u.id == t.plain.id) =
      e.added.any fun u => u.id == t.id := by
    simp [plain, Statement.plain, List.any_map, Function.comp_def]
  unfold remove
  rw [hany]
  split
  · simp [plain, Statement.plain, List.eraseP_map, Function.comp_def]
  · simp [plain]

theorem isEmpty_plain : e.plain.isEmpty = e.isEmpty := by
  simp [plain, isEmpty]

end ChangeEvent

namespace Transaction

variable {α : Type} {x x' : Scope}

/-- Whether two transactions are in order and differ in nothing but what is cached. -/
structure LikeScope (x x' : Scope) : Prop where
  work : Like x.work x'.work
  changes : x'.changes.plain = x.changes.plain
  closed : x'.closed = x.closed

/-- How far answers agree may depend on the workspace alone. -/
def OnWork (Q : α → α → Workspace → Prop) (v v' : α) (x : Scope) : Prop :=
  Q v v' x.work

theorem work_alike (h : LikeScope x x') {Q : α → α → Workspace → Prop} {a a' : Action α}
    (ha : Alike Like Q (a x.work) (a' x'.work)) :
    Alike LikeScope (OnWork Q) (work a x) (work a' x') := by
  cases hx : a x.work <;> cases hx' : a' x'.work <;> rw [hx, hx'] at ha <;> cases ha
  · rename_i hanswers hstates
    rw [work_of_ok hx, work_of_ok hx']
    exact .ok hanswers ⟨hstates, h.changes, h.closed⟩
  · rename_i hstates
    rw [work_of_error hx, work_of_error hx']
    exact .error ⟨hstates, h.changes, h.closed⟩

theorem whileOpen_alike_of_closed (h : LikeScope x x') (hclosed : x.closed = true)
    (Q : α → α → Scope → Prop) (op op' : Operation α) :
    Alike LikeScope Q (whileOpen op x) (whileOpen op' x') := by
  rw [whileOpen_of_closed hclosed, whileOpen_of_closed (h.closed.trans hclosed)]
  exact .error h

theorem whileOpen_alike (h : LikeScope x x') {Q : α → α → Scope → Prop} {op op' : Operation α}
    (hop : Alike LikeScope Q (op x) (op' x')) :
    Alike LikeScope Q (whileOpen op x) (whileOpen op' x') := by
  cases hclosed : x.closed with
  | false =>
      rw [whileOpen_of_open hclosed, whileOpen_of_open (h.closed.trans hclosed)]
      exact hop
  | true => exact whileOpen_alike_of_closed h hclosed Q op op'

theorem perform_alike (h : LikeScope x x') {Q : α → α → Workspace → Prop} {a : Action α}
    (ha : Alike Like Q (a x.work) (a x'.work)) :
    Alike LikeScope (OnWork Q) (perform a x) (perform a x') :=
  whileOpen_alike h (work_alike h ha)

theorem store_alike (h : LikeScope x x') {t t' : Statement} (ht : x.work.view.Admits t)
    (hplain : t'.plain = t.plain) :
    Alike LikeScope (OnWork Made) (store t x) (store t' x') := by
  refine (work_alike h (Action.storeStatement_alike h.work ht hplain)).bind ?_
  rintro ⟨s, added⟩ ⟨s', added'⟩ y y' - - ⟨hmade, hadded⟩ hy
  obtain rfl : added' = added := hadded
  cases added' with
  | false => exact .ok hmade hy
  | true =>
      refine .ok hmade ⟨hy.work, ?_, hy.closed⟩
      show (y'.changes.add s').plain = (y.changes.add s).plain
      rw [ChangeEvent.plain_add, ChangeEvent.plain_add, hy.changes, hmade.1]

theorem add_alike (h : LikeScope x x') {subject predicate object : Node} {context : Option Node}
    (hsubject : x.work.view.Accepts subject) (hpredicate : x.work.view.Accepts predicate)
    (hobject : x.work.view.Accepts object)
    (hcontext : ∀ c, context = some c → x.work.view.Accepts c) :
    Alike LikeScope (OnWork Made) (add subject predicate object context x)
      (add subject predicate object context x') := by
  refine whileOpen_alike h ?_
  refine (work_alike h (Action.createStatement_alike h.work hsubject hpredicate hobject
    hcontext)).bind ?_
  rintro t t' y y' - - ⟨hplain, hadmits⟩ hy
  exact store_alike hy hadmits hplain

/-- In the context for derived statements, or in a given one, a derived
statement is added alike. -/
theorem addMadeInferred_alike (h : LikeScope x x') {subject predicate object c c' : Node}
    (hsubject : x.work.view.Accepts subject) (hpredicate : x.work.view.Accepts predicate)
    (hobject : x.work.view.Accepts object) (hcontext : x.work.view.Accepts c) (hsame : c' = c) :
    Alike LikeScope (OnWork Made)
      ((work (Action.createStatement subject predicate object (some c)) >>= fun t =>
        store { t with inferred := true }) x)
      ((work (Action.createStatement subject predicate object (some c')) >>= fun t =>
        store { t with inferred := true }) x') := by
  subst hsame
  refine (work_alike h
    (Action.createStatement_alike h.work hsubject hpredicate hobject ?_)).bind ?_
  · rintro c ⟨⟩
    exact hcontext
  · rintro t t' y y' - - ⟨hplain, hadmits⟩ hy
    refine store_alike hy hadmits.marked ?_
    exact congrArg (fun s : Statement => { s with inferred := true }) hplain

theorem addInferred_alike (h : LikeScope x x') {subject predicate object : Node}
    {context : Option Node} (hsubject : x.work.view.Accepts subject)
    (hpredicate : x.work.view.Accepts predicate) (hobject : x.work.view.Accepts object)
    (hcontext : ∀ c, context = some c → x.work.view.Accepts c) :
    Alike LikeScope (OnWork Made) (addInferred subject predicate object context x)
      (addInferred subject predicate object context x') := by
  refine whileOpen_alike h ?_
  cases context with
  | some c => exact addMadeInferred_alike h hsubject hpredicate hobject (hcontext c rfl) rfl
  | none =>
      have hcreate : Alike Like Action.Found
          ((do Action.createUri (← get).store.config.inferredContext : Action Node) x.work)
          ((do Action.createUri (← get).store.config.inferredContext : Action Node) x'.work) := by
        rw [bind_of_ok (a := (get : Action Workspace)) (s := x.work) rfl,
          bind_of_ok (a := (get : Action Workspace)) (s := x'.work) rfl, h.work.config]
        exact (Action.createUri_alike h.work _).imp fun v v' _ _ _ _ hv => hv.1
      refine (work_alike h hcreate).bind ?_
      · rintro c c' y y' hc - ⟨hsame, hknows⟩ hy
        have hnodes : ∀ r ∈ x.work.view.nodes, r ∈ y.work.view.nodes := by
          obtain ⟨w, hw, rfl⟩ := work_eq_ok_iff.mp hc
          exact ((keeps_inferredContext Action.createUri_silent).ok hw).nodes
        have hsound := hy.work.left.sound
        exact addMadeInferred_alike hy (hsubject.mono hnodes hsound)
          (hpredicate.mono hnodes hsound) (hobject.mono hnodes hsound) (.inl hknows) hsame

theorem removeOne_alike (h : LikeScope x x') {t t' : Statement} (ht : x.work.view.Admits t)
    (hplain : t'.plain = t.plain) :
    Alike LikeScope (OnWork fun v v' _ => v' = v) (removeOne t x) (removeOne t' x') := by
  refine (work_alike h (Action.removeStatement_alike h.work ht hplain)).bind ?_
  rintro ⟨s, removed⟩ ⟨s', removed'⟩ y y' - - ⟨hmade, hremoved⟩ hy
  obtain rfl : removed' = removed := hremoved
  cases removed' with
  | false => exact .ok rfl hy
  | true =>
      refine .ok rfl ⟨hy.work, ?_, hy.closed⟩
      show (y'.changes.remove s').plain = (y.changes.remove s).plain
      rw [ChangeEvent.plain_remove, ChangeEvent.plain_remove, hy.changes, hmade.1]

/-- Whether two transactions are alike, the first of which sees the nodes of some tables. -/
structure LikeBeyond (t : Tables) (x x' : Scope) : Prop extends LikeScope x x' where
  nodes : ∀ r ∈ t.nodes, r ∈ x.work.view.nodes

theorem remove_alike (h : LikeScope x x') (subject predicate object context : Option Node) :
    Alike LikeScope Same (remove subject predicate object context x)
      (remove subject predicate object context x') := by
  refine whileOpen_alike h ?_
  refine (work_alike h (Action.listStatements_agrees subject predicate object context true _ _
    h.work)).bind ?_
  rintro _ found y y' - - ⟨rfl, hadmits⟩ hy
  have hall : Agrees (LikeBeyond y.work.view) Same (found.mapM removeOne) := by
    refine .mapM_same fun t ht z z' hz => ?_
    have hadmits' := (hadmits t ht).mono hz.nodes hz.work.left.sound
    refine (removeOne_alike hz.toLikeScope hadmits' rfl).strengthen fun hlike => ⟨hlike, ?_⟩
    exact fun r hr => (removeOne_advances t z).works.nodes r (hz.nodes r hr)
  refine ((hall y y' ⟨hy, fun r hr => hr⟩).strengthen fun hz => hz.toLikeScope).bind ?_
  rintro _ removals z z' - - rfl hz
  exact .ok rfl hz

theorem contains_alike (h : LikeScope x x') (subject predicate object context : Option Node) :
    Alike LikeScope Same (contains subject predicate object context x)
      (contains subject predicate object context x') := by
  refine whileOpen_alike h ?_
  have hlist := Action.listStatements_agrees subject predicate object context true _ _ h.work
  have hattempt : Alike Like Same
      (Action.attempt (Action.listStatements subject predicate object context true) x.work)
      (Action.attempt (Action.listStatements subject predicate object context true) x'.work) :=
    Action.attempt_alike hlist (fun _ _ _ hss => congrArg Except.ok hss.1) fun _ _ => rfl
  refine (work_alike h hattempt).bind ?_
  rintro _ found y y' - - rfl hy
  cases found with
  | ok found => exact .ok rfl hy
  | error e =>
      dsimp only
      split
      · exact .ok rfl hy
      · exact .error hy

theorem query_alike (h : LikeScope x x') (q : PatternQuery) :
    Alike LikeScope (OnWork fun r r' w => r' = r ∧ r.Current w ∧ ∀ e ∈ r.extra, e ∈ q.bindings)
      (query q x) (query q x') := by
  refine perform_alike h ?_
  rw [bind_of_ok (a := (get : Action Workspace)) (s := x.work) rfl,
    bind_of_ok (a := (get : Action Workspace)) (s := x'.work) rfl, h.work.config]
  refine (Action.evaluate_agrees q _ _ _ h.work).imp fun r r' w w' hr _ hsame => ⟨hsame, ?_⟩
  exact Action.current_of_evaluate h.work.left hr

theorem ready_finished (h : x.work.Ready) (hopen : x.closed = false) : x.finished.work.Ready := by
  obtain ⟨y, hy, hcommitted⟩ := finish_eq_ok hopen (.inl rfl)
  rw [finish_eq_finished hopen (.inl rfl)] at hy
  cases hy
  have hnodes := hcommitted.nodes
  have hstatements := hcommitted.statements
  have hgood := Workspace.good_of_idle (w := x.finished.work) h.counter
    (h.sound.of_eq hnodes hstatements) (hcommitted.caches h.toGood) rfl rfl rfl
  refine Workspace.ready_of_idle hgood rfl rfl rfl h.nodeCounter ?_
    (h.view.of_eq hnodes hstatements)
    (h.publishTo.imp (fun n hn => hn.of_eq hnodes) fun s hs => hs.of_eq hnodes hstatements)
  exact (Registry.strategy_release _ _ _).symm ▸ h.registry

theorem ready_abandoned (h : x.work.Ready) (hsound : x.work.database.committed.Sound) :
    x.abandoned.work.Ready := by
  obtain ⟨y, hy, habandoned⟩ := abort_eq x
  rw [abort_eq_abandoned] at hy
  cases hy
  have hgood := Workspace.good_of_idle (w := x.abandoned.work) h.counter hsound
    (habandoned.caches h.toGood) rfl rfl rfl
  refine Workspace.ready_of_idle hgood rfl rfl rfl h.nodeCounter ?_ h.committed h.discardFrom
  exact (Registry.strategy_release _ _ _).symm ▸ h.registry

theorem finished_like (h : LikeScope x x') (hopen : x.closed = false) :
    LikeScope x.finished x'.finished := by
  refine ⟨⟨ready_finished h.work.left hopen,
    ready_finished h.work.right (h.closed.trans hopen), ?_⟩,
    rfl, rfl⟩
  have map_reported : ∀ (events : List ChangeEvent) (changes : ChangeEvent),
      (if changes.isEmpty then events else events ++ [changes]).map ChangeEvent.plain =
        if changes.plain.isEmpty then events.map ChangeEvent.plain
          else events.map ChangeEvent.plain ++ [changes.plain] := by
    intro events changes
    rw [ChangeEvent.isEmpty_plain]
    split <;> simp
  have hevents : x'.finished.work.store.events.map ChangeEvent.plain =
      x.finished.work.store.events.map ChangeEvent.plain := by
    have hbefore : x'.work.store.events.map ChangeEvent.plain =
        x.work.store.events.map ChangeEvent.plain :=
      (congrArg (fun w : Workspace => w.store.events) h.work.bare :)
    refine (map_reported _ _).trans (Eq.trans ?_ (map_reported _ _).symm)
    rw [hbefore, h.changes]
  have hrest := congrArg (fun w : Workspace => { (Scope.mk w .empty false).finished.work with
    store.caches := .make {}, store.events := [] }) h.work.bare
  exact congrArg₂ (fun (w : Workspace) events => { w with store.events := events }) hrest hevents

theorem abandoned_like (h : LikeScope x x') (hsound : x.work.database.committed.Sound) :
    LikeScope x.abandoned x'.abandoned := by
  have hsound' : x'.work.database.committed.Sound := h.work.committed ▸ hsound
  refine ⟨⟨ready_abandoned h.work.left hsound, ready_abandoned h.work.right hsound', ?_⟩,
    rfl, rfl⟩
  exact congrArg (fun w : Workspace => { (Scope.mk w .empty false).abandoned.work with
    store.caches := .make {} }) h.work.bare

theorem finish_alike (h : LikeScope x x') (hsound : x.work.database.committed.Sound)
    (refusal : Option DataFault) :
    Alike LikeScope Same (finish refusal x) (finish refusal x') := by
  cases hclosed : x.closed with
  | true => exact whileOpen_alike_of_closed h hclosed _ _ _
  | false =>
      have hclosed' := h.closed.trans hclosed
      by_cases haccepted : refusal = none ∨ x.work.conn.writing = false
      · rw [finish_eq_finished hclosed haccepted,
          finish_eq_finished hclosed' (h.work.writing.symm ▸ haccepted)]
        exact .ok rfl (finished_like h hclosed)
      · rw [not_or, Bool.not_eq_false] at haccepted
        obtain ⟨hrefused, hwriting⟩ := haccepted
        obtain ⟨fault, rfl⟩ := Option.ne_none_iff_exists'.mp hrefused
        rw [finish_eq_abandoned hclosed hwriting,
          finish_eq_abandoned hclosed' (h.work.writing.trans hwriting)]
        exact .error (abandoned_like h hsound)

theorem rollback_alike (h : LikeScope x x') (hsound : x.work.database.committed.Sound) :
    Alike LikeScope Same (rollback x) (rollback x') := by
  refine whileOpen_alike h ?_
  rw [abort_eq_abandoned, abort_eq_abandoned]
  exact .ok rfl (abandoned_like h hsound)

theorem drop_alike (h : LikeScope x x') (hsound : x.work.database.committed.Sound) :
    Alike LikeScope Same (drop x) (drop x') := by
  unfold drop
  rw [bind_of_ok (a := (get : Operation Scope)) (s := x) rfl,
    bind_of_ok (a := (get : Operation Scope)) (s := x') rfl, h.closed]
  cases x.closed with
  | true => exact .ok rfl h
  | false =>
      simp only [Bool.not_false, if_true, abort_eq_abandoned]
      exact .ok rfl (abandoned_like h hsound)

end Transaction
end QuadStore
