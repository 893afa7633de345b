import QuadStore.Proofs.CacheMisses
import QuadStore.Proofs.PatternAnswers

namespace QuadStore

variable {α β : Type} {w w' w₀ : Workspace}

/-- Whether two workspaces are alike, the first of which was come to by reading. -/
structure LikeFrom (w₀ w w' : Workspace) : Prop extends Like w w' where
  reads : Reads w₀ w

theorem Agrees.from {a : Action α} {Q Q' : α → α → Workspace → Prop} (h : Agrees Like Q a)
    (hreads : Keeps Reads a)
    (hQ : ∀ w v v' w', w.Ready → Reads w₀ w → a w = .ok v w' → Q v v' w' → Q' v v' w') :
    Agrees (LikeFrom w₀) Q' a := by
  intro w w' hw
  refine ((h w w' hw.toLike).imp fun v v' x x' hx _ hv => ?_).strengthen fun hlike => ⟨hlike, ?_⟩
  · exact hQ w v v' x hw.left hw.reads hx hv
  · exact IsTrans.trans _ _ _ hw.reads (hreads w)

namespace Action

theorem mapM_alike (h : Like w w') {f : α → Action β} {Q : β → β → Prop} {xs : List α}
    (hf : ∀ x ∈ xs, Agrees (LikeFrom w) (fun v v' _ => Q v v') (f x)) :
    Alike Like (fun vs vs' x => List.Forall₂ Q vs vs' ∧ Reads w x)
      (xs.mapM f w) (xs.mapM f w') := by
  have hall := Agrees.mapM hf w w' ⟨h, refl w⟩
  cases hx : xs.mapM f w <;> cases hx' : xs.mapM f w' <;> rw [hx, hx'] at hall <;> cases hall
  · rename_i hanswers hstates
    exact .ok ⟨hanswers, hstates.reads⟩ hstates.toLike
  · rename_i hstates
    exact .error hstates.toLike

theorem attempt_alike {R : Workspace → Workspace → Prop} {Q : α → α → Workspace → Prop}
    {Q' : Except StoreError α → Except StoreError α → Workspace → Prop} {a : Action α}
    (h : Alike R Q (a w) (a w')) (hok : ∀ v v' x, Q v v' x → Q' (.ok v) (.ok v') x)
    (herror : ∀ e x, Q' (.error e) (.error e) x) :
    Alike R Q' (Action.attempt a w) (Action.attempt a w') := by
  unfold Action.attempt
  cases hx : a w <;> cases hx' : a w' <;> rw [hx, hx'] at h <;> cases h
  · rename_i hanswers hstates
    exact .ok (hok _ _ _ hanswers) hstates
  · rename_i e _ _ hstates
    cases e with
    | endless => exact .error hstates
    | _ => exact .ok (herror _ _) hstates

theorem slotIds_agrees (slots : List (Option Node)) : Agrees Like Same (slotIds slots) := by
  induction slots with
  | nil => exact .pure _
  | cons slot rest ih =>
      cases slot with
      | none => exact ih.bind fun _ => .pure _
      | some n =>
          refine (nodeId_agrees n).bind fun id => ?_
          split
          · exact ih.bind fun _ => .pure _
          · exact .pure _

theorem listStatements_agrees (subject predicate object context : Option Node)
    (includeInferred : Bool) :
    Agrees Like (fun ss ss' w => ss' = ss ∧ ∀ s ∈ ss, w.view.Admits s)
      (listStatements subject predicate object context includeInferred) := by
  refine (slotIds_agrees _).bind fun ids => ?_
  split
  · exact fun w w' h => .ok ⟨rfl, by simp⟩ h
  intro w w' h
  refine (agrees_view _ w w' h).bind fun rows rows' w₁ w₁' hview _ hsame h₁ => ?_
  obtain rfl : rows' = rows := hsame
  obtain ⟨hrows, rfl⟩ := view_eq_ok_iff.mp hview
  refine (mapM_alike h₁ (Q := fun s s' => w.view.Admits s ∧ s = s') fun r hr => ?_).imp ?_
  · refine (statementOfRow_agrees r).from (statementOfRow_reads r)
      fun x s s' x' hx hreads hs hsame => ⟨?_, hsame.symm⟩
    have hr' : r ∈ x.view.statements := by
      rw [hreads.view_eq]
      rw [← hrows, List.mem_filter, Tables.liveStatements,
        List.mem_mergeSort, List.mem_filter] at hr
      exact hr.1.1
    have hshows := (shows_of_statementOfRow hx hr' hs).1
    rw [hreads.view_eq] at hshows
    exact hshows.toAdmits
  · rintro ss ss' x x' - - ⟨hss, hreads⟩
    rw [List.forall₂_and_left, List.forall₂_eq_eq_eq] at hss
    rw [hreads.view_eq]
    exact ⟨hss.2.symm, hss.1⟩

theorem listContexts_agrees :
    Agrees Like (fun ns ns' w => ns' = ns ∧ ∀ n ∈ ns, w.view.Knows n) listContexts := by
  refine (agrees_view _).bind fun ids w w' h => ?_
  refine (mapM_alike h (Q := fun n n' => w.view.Knows n ∧ n = n') fun id _ => ?_).imp ?_
  · refine (requireNode_agrees id).from (requireNode_reads id) fun x n n' x' hx hreads hn hsame =>
      ⟨?_, hsame.symm⟩
    rw [← hreads.view_eq]
    exact (knows_of_requireNode hx hn).1
  · rintro ns ns' x x' - - ⟨hns, hreads⟩
    rw [List.forall₂_and_left, List.forall₂_eq_eq_eq] at hns
    rw [hreads.view_eq]
    exact ⟨hns.2.symm, hns.1⟩

theorem countStatements_agrees (context : Option Node) :
    Agrees Like Same (countStatements context) := by
  unfold countStatements
  split
  · exact agrees_view _
  · refine (nodeId_agrees _).bind fun id => ?_
    split
    · exact .pure _
    · exact agrees_view _

theorem resolveTerm_agrees (term : PatternTerm) : Agrees Like Same (resolveTerm term) := by
  cases term with
  | var name => exact .pure _
  | value n => exact (nodeId_agrees n).bind fun _ => .pure _

theorem resolvePattern_agrees (index : Nat) (p : Pattern) :
    Agrees Like Same (resolvePattern index p) := by
  refine (resolveTerm_agrees _).bind fun subject => ?_
  refine (resolveTerm_agrees _).bind fun predicate => ?_
  refine (resolveTerm_agrees _).bind fun object => ?_
  split
  · split
    · exact .pure _
    · exact (resolveTerm_agrees _).bind fun _ => .pure _
  · exact .pure _

theorem collect_agrees {f : α → Action (Option β)}
    (hf : ∀ x, Agrees Like Same (f x)) (xs : List α) :
    Agrees Like Same (collect f xs) := by
  induction xs with
  | nil => exact .pure _
  | cons x rest ih =>
      refine (hf x).bind fun y => ?_
      split
      · exact ih.bind fun _ => .pure _
      · exact .pure _

theorem resolveValueOf_agrees (entry : String × Node) : Agrees Like Same (resolveValueOf entry) :=
  (nodeId_agrees _).bind fun _ => .pure _

theorem resolveQuery_agrees (q : PatternQuery) : Agrees Like Same (resolveQuery q) := by
  refine (collect_agrees (fun _ => resolvePattern_agrees _ _) _).bind fun patterns => ?_
  split
  · refine (collect_agrees resolveValueOf_agrees _).bind fun bindings => ?_
    split
    · refine (collect_agrees resolveValueOf_agrees _).bind fun sameValues => ?_
      split
      · exact .pure _
      · exact .pure _
    · exact .pure _
  · exact .pure _

theorem reorderPatterns_agrees (q : ResolvedQuery) : Agrees Like Same (reorderPatterns q) := by
  unfold reorderPatterns
  split
  · exact .pure _
  · have hcounts : Agrees Like Same (q.patterns.mapM fun p => countPattern p.boundIds) :=
      .mapM_same fun _ _ => agrees_view _
    refine Agrees.bind (fun w w' hw => ?_) fun counts => .pure _
    exact attempt_alike (hcounts w w' hw) (fun _ _ _ h => congrArg Except.ok h) fun _ _ => rfl

theorem prepareQuery_agrees (q : PatternQuery) (reorder : Bool) :
    Agrees Like Same (prepareQuery q reorder) := by
  refine (agrees_ofExcept _).bind fun _ => ?_
  refine (resolveQuery_agrees q).bind fun resolved => ?_
  split
  · split
    · rw [map_eq_pure_bind]
      exact (reorderPatterns_agrees _).bind fun _ => .pure _
    · exact .pure _
  · exact .pure _

theorem evaluate_agrees (q : PatternQuery) (reorder : Bool) :
    Agrees Like Same (evaluate q reorder) := by
  refine (prepareQuery_agrees q reorder).bind fun resolved => ?_
  split
  · exact .pure _
  · refine .get_bind fun w w' h => ?_
    rw [h.view]
    exact (agrees_ofData _).bind (fun _ => .pure _) w w' h

end Action

theorem ResolvedQuery.live_of_run {q : ResolvedQuery} {t : Tables} (ht : t.Keyed)
    (href : t.Referenced) {rows : List (List Cell)}
    (h : q.select.run t = .ok rows) {row : List Cell}
    (hrow : row ∈ rows) :
    ∀ id ∈ (row.filterMap Cell.int?).drop q.varNames.length,
      ∃ r ∈ t.statements, r.id = id ∧ r.live = true := by
  have hordered : row ∈ (q.select.ordered t).map q.select.project := by
    unfold SelectQuery.run at h
    cases hcheck : q.select.check with
    | error fault =>
        rw [hcheck] at h
        cases h
    | ok u =>
        rw [hcheck] at h
        obtain rfl := Except.ok.inj h
        split at hrow
        · exact List.mem_of_mem_take hrow
        · exact hrow
  obtain ⟨choice, hchoice, rfl⟩ := List.mem_map.mp hordered
  rw [SelectQuery.ordered, List.mem_mergeSort] at hchoice
  obtain ⟨solutions, -, hsolve, -, hproject⟩ := q.exists_solutions ht href
  have hanswer := List.mem_map_of_mem (f := q.select.project) hchoice
  rw [hproject] at hanswer
  obtain ⟨s, hs, heq⟩ := List.mem_map.mp hanswer
  intro id hid
  have int_cells : (Cell.int? ∘ Cell.int : Int → Option Int) = some := rfl
  rw [← heq, List.filterMap_map, int_cells, List.filterMap_some, answerRow,
    List.drop_left' (by simp)] at hid
  split at hid
  · obtain ⟨r, hr, rfl⟩ := List.mem_map.mp hid
    have hperm := perm_pick (perm_callerOrder q) (hsolve s hs).length
    obtain ⟨p, -, hmem, hfits⟩ :=
      exists_mem_of_forall₂ (hsolve s hs).rows.flip (hperm.mem_iff.mp hr)
    exact ⟨r, hmem, rfl, hfits.live⟩
  · cases hid

/-- Whether the statements of the rows still to come have not been marked as deleted meanwhile. -/
def QueryResults.Current (r : QueryResults) (w : Workspace) : Prop :=
  ∀ row ∈ r.rows, ∀ id ∈ row.drop r.varNames.length, Action.Current w id

/-- The nodes of a row of an answer. -/
def BindingSet.nodes (b : BindingSet) : List Node :=
  b.bindings.map Prod.snd ++ b.justifications.flatMap Statement.nodes

/-- A row of an answer without the marks of new ids. -/
def BindingSet.plain (b : BindingSet) : BindingSet :=
  { b with justifications := b.justifications.map Statement.plain }

namespace Action

theorem current_of_reads {id : Int} (h : Current w id) (hreads : Reads w w') : Current w' id := by
  obtain ⟨_, _, _, rfl⟩ := hreads.caching
  exact h

theorem current_of_evaluate (h : w.Ready) {q : PatternQuery} {reorder : Bool} {r : QueryResults}
    (hr : evaluate q reorder w = .ok r w') : r.Current w' ∧ ∀ e ∈ r.extra, e ∈ q.bindings := by
  have hreads := (evaluate_reads q reorder).ok hr
  obtain ⟨resolved, w₁, hprepare, hr⟩ := bind_eq_ok_iff.mp hr
  cases resolved with
  | none =>
      obtain ⟨rfl, -⟩ := pure_eq_ok_iff.mp hr
      constructor <;> simp [QueryResults.Current]
  | some q' =>
      obtain ⟨-, some_resolved, -⟩ := prepareQuery_eq hprepare
      obtain ⟨given, hresolved⟩ := some_resolved q' rfl
      obtain ⟨_, w₂, hget, hr⟩ := bind_eq_ok_iff.mp hr
      obtain ⟨rfl, rfl⟩ := get_eq_ok_iff.mp hget
      obtain ⟨rows, w₃, hrun, hr⟩ := bind_eq_ok_iff.mp hr
      obtain ⟨hrows, -⟩ := ofData_eq_ok_iff.mp hrun
      obtain ⟨rfl, -⟩ := pure_eq_ok_iff.mp hr
      rw [((prepareQuery_reads q reorder).ok hprepare).view_eq] at hrows
      refine ⟨fun row hrow id hid => current_of_reads (fun _ r hr hrid => ?_) hreads,
        fun e he => ?_⟩
      · obtain ⟨cells, hcells, rfl⟩ := List.mem_map.mp hrow
        obtain ⟨r', hr', hrid', hlive⟩ :=
          ResolvedQuery.live_of_run h.sound.keyed h.view.referenced hrows hcells id hid
        rwa [h.sound.row_eq hr hr' (hrid.trans hrid'.symm)]
      · exact (List.mem_filter.mp (hresolved.extraBindings.subset he)).1

theorem resolveBinding_agrees (entry : String × Int) :
    Agrees Like (fun e e' w => e' = e ∧ w.view.Knows e.2) (resolveBinding entry) := by
  intro w w' h
  refine (resolveNode_agrees _ w w' h).bind fun n n' w₁ w₁' hn _ hsame h₁ => ?_
  obtain rfl : n' = n := hsame
  cases n' with
  | none => exact .error h₁
  | some n =>
      refine .ok ⟨rfl, ?_⟩ h₁
      rw [((resolveNode_reads _).ok hn).view_eq]
      exact (knows_of_resolveNode h.left hn).1

theorem materialize_alike (h : Like w w') {r : QueryResults} {row : List Int}
    (hcurrent : ∀ id ∈ row.drop r.varNames.length, Current w id) :
    Alike Like (fun b b' x => (b'.plain = b.plain ∧
        ∀ n ∈ b.nodes, w.view.Knows n ∨ n ∈ r.extra.map Prod.snd) ∧ Reads w x)
      (materialize r row w) (materialize r row w') := by
  refine (mapM_alike h (Q := fun e e' => w.view.Knows e.2 ∧ e = e') fun e _ => ?_).bind ?_
  · refine (resolveBinding_agrees e).from (resolveBinding_reads e) ?_
    rintro x e e' x' - hreads he ⟨hsame, hknows⟩
    refine ⟨?_, hsame.symm⟩
    rwa [((resolveBinding_reads _).ok he).view_eq, hreads.view_eq] at hknows
  rintro bound bound' w₁ w₁' - - ⟨hbound, hreads⟩ h₁
  rw [List.forall₂_and_left, List.forall₂_eq_eq_eq] at hbound
  obtain ⟨hknows, rfl⟩ := hbound
  refine (mapM_alike h₁ (Q := fun s s' => (∀ u, s = some u → w.view.Admits u) ∧
    s.map Statement.plain = s'.map Statement.plain) fun id hid x x' hx => ?_).bind ?_
  · have hcurrent' := current_of_reads (hcurrent id hid) (IsTrans.trans _ _ _ hreads hx.reads)
    refine ((loadStatement_alike hx.toLike hcurrent').imp ?_).strengthen fun hlike => ⟨hlike, ?_⟩
    · rintro s s' y y' hy - ⟨hsame, hadmits⟩
      refine ⟨?_, hsame.symm⟩
      rintro u rfl
      have hview' := ((loadStatement_reads id).ok hy).view_eq
      rw [← hreads.view_eq, ← hx.reads.view_eq, ← hview']
      exact hadmits u rfl
    · exact IsTrans.trans _ _ _ hx.reads (loadStatement_reads id x)
  · rintro found found' w₂ w₂' - - ⟨hfound, hreads'⟩ h₂
    rw [List.forall₂_and_left] at hfound
    obtain ⟨hadmits, hsame⟩ := hfound
    have found_eq : (found'.filterMap fun t => t).map Statement.plain =
        (found.filterMap fun t => t).map Statement.plain := by
      have hsame' := congrArg (List.filterMap fun t => t) (map_eq_of_forall₂ hsame)
      rw [List.filterMap_map, List.filterMap_map] at hsame'
      rw [List.map_filterMap, List.map_filterMap]
      exact hsame'.symm
    refine .ok ⟨⟨congrArg (BindingSet.mk (bound ++ r.extra)) found_eq, fun n hn => ?_⟩,
      IsTrans.trans _ _ _ hreads hreads'⟩ h₂
    simp only [BindingSet.nodes, List.map_append, List.mem_append] at hn
    rcases hn with (hn | hn) | hn
    · obtain ⟨e, he, rfl⟩ := List.mem_map.mp hn
      exact .inl (hknows e he)
    · exact .inr hn
    · obtain ⟨s, hs, hn⟩ := List.mem_flatMap.mp hn
      obtain ⟨t, ht, rfl⟩ := List.mem_filterMap.mp hs
      exact .inl ((hadmits _ ht s rfl).knows n hn)

/-- Fetching rows, whose statements have not been marked as deleted meanwhile, ends alike. -/
theorem fetch_alike (h : Like w w') {r : QueryResults} (hcurrent : r.Current w) (count : Nat) :
    Alike Like (fun v v' x => (v'.1.map (Except.map BindingSet.plain) =
          v.1.map (Except.map BindingSet.plain) ∧ v'.2 = v.2) ∧
        (v.2.Current x ∧ v.2.extra = r.extra) ∧
        ∀ b, .ok b ∈ v.1 → ∀ n ∈ b.nodes, x.view.Knows n ∨ n ∈ r.extra.map Prod.snd)
      (fetch count r w) (fetch count r w') := by
  refine (mapM_alike h (Q := fun b b' => (∀ c, b = .ok c → ∀ n ∈ c.nodes,
    w.view.Knows n ∨ n ∈ r.extra.map Prod.snd) ∧
      b.map BindingSet.plain = b'.map BindingSet.plain) fun row hrow x x' hx => ?_).bind ?_
  · have hcurrent' : ∀ id ∈ row.drop r.varNames.length, Current x id := fun id hid =>
      current_of_reads (hcurrent row (List.mem_of_mem_take hrow) id hid) hx.reads
    have hmaterialize := materialize_alike hx.toLike hcurrent'
    rw [hx.reads.view_eq] at hmaterialize
    refine (attempt_alike hmaterialize ?_ ?_).strengthen fun hlike => ⟨hlike, ?_⟩
    · rintro b b' y ⟨⟨hplain, hnodes⟩, -⟩
      refine ⟨?_, congrArg Except.ok hplain.symm⟩
      rintro c ⟨⟩
      exact hnodes
    · exact fun e _ => ⟨by rintro c ⟨⟩, rfl⟩
    · exact IsTrans.trans _ _ _ hx.reads (attempt_keeps (materialize_reads r row) x)
  · rintro fetched fetched' w₁ w₁' - - ⟨hfetched, hreads⟩ h₁
    rw [List.forall₂_and_left] at hfetched
    obtain ⟨hnodes, hsame⟩ := hfetched
    refine .ok ⟨⟨(map_eq_of_forall₂ hsame).symm, rfl⟩, ⟨?_, rfl⟩, ?_⟩ h₁
    · exact fun row hrow id hid =>
        current_of_reads (hcurrent row (List.mem_of_mem_drop hrow) id hid) hreads
    · rw [hreads.view_eq]
      exact fun b hb => hnodes _ hb b rfl

end Action
end QuadStore
