import QuadStore.Proofs.MissingNodes
import QuadStore.Proofs.OpenStores
import QuadStore.Proofs.RepeatedReading
import QuadStore.Proofs.SlotQueries

namespace QuadStore

/-- Whether an action is answered with a value. -/
def Workspace.Answers {α : Type} (w : Workspace) (a : Action α) (v : α) : Prop :=
  ∃ w', a w = .ok v w'

/-- The statements of a list whose ids are those of the given nodes. -/
def Tables.select (t : Tables) (all : List Statement)
    (subject predicate object context : Option Node) :
    List Statement :=
  all.filter fun s => s.key.MatchesNodes t subject predicate object context

theorem StatementKey.matches_iff_eq {k key : StatementKey} :
    k.Matches [some key.subject, some key.predicate, some key.object, some key.context] ↔
      k = key := by
  obtain ⟨s, p, o, c⟩ := key
  rw [eq_comm, StatementKey.mk.injEq]
  simp [Matches]

/-- Whether a statement is what a row is read as, each time that it is read. -/
structure Workspace.Restates (w : Workspace) (r : StatementRow) (s : Statement) : Prop where
  again : Action.Delivers w.Steady (Action.statementOfRow r) (· = s)
  id : s.id = r.id
  key : s.key = r.key
  inferred : s.inferred = r.isInferred
  nodes : ∀ slot, ∃ n, w.Finds (r.slotId slot) n
  context : ∃ c, s.context = some c ∧ w.Finds r.context c

namespace Action

variable {w w' : Workspace} {all : List Statement}
  {subject predicate object context : Option Node}

/-! The list of all statements -/

theorem restates_of_statementOfRow (hgood : w.Good) {r : StatementRow} {s : Statement}
    (h : Delivers w.Steady (statementOfRow r) (· = s)) : w.Restates r s := by
  obtain ⟨_, w', hop, -, rfl⟩ := h w (.refl hgood)
  obtain ⟨hid, hkey, hinferred, -⟩ := statementOfRow_eq_ok hgood.coherent.caches.keyed hop
  obtain ⟨hs, hp, ho, c, hc, hfinds⟩ := statementOfRow_finds hgood hop
  refine ⟨h, hid, hkey, hinferred, fun slot => ?_, c, hc, hfinds⟩
  cases slot with
  | subject => exact ⟨_, hs⟩
  | predicate => exact ⟨_, hp⟩
  | object => exact ⟨_, ho⟩
  | context => exact ⟨_, hfinds⟩

theorem listStatements_restates (hgood : w.Good)
    (h : listStatements none none none none true w = .ok all w') :
    List.Forall₂ w.Restates w.view.liveStatements all := by
  obtain ⟨ids, w₁, hids, h⟩ := bind_eq_ok_iff.mp h
  cases hids
  obtain ⟨rows, w₂, hview, h⟩ := bind_eq_ok_iff.mp h
  obtain ⟨hrows, rfl⟩ := view_eq_ok_iff.mp hview
  have hall : rows = w.view.liveStatements := by
    rw [← hrows]
    refine List.filter_eq_self.mpr fun r _ => ?_
    simp [StatementRow.hasIds]
  subst hall
  exact (Repeats.mapM_eq_ok statementOfRow_repeats (.refl hgood) h).imp
    fun _ _ => restates_of_statementOfRow hgood

theorem mem_liveStatements {t : Tables} {r : StatementRow} :
    r ∈ t.liveStatements ↔ r ∈ t.statements ∧ r.live = true := by
  rw [Tables.liveStatements, List.mem_mergeSort, List.mem_filter]

theorem filter_key_liveStatements {t : Tables} (hsound : t.Sound) (key : StatementKey) :
    (t.liveStatements.filter fun r => r.key = key) =
      (t.statements.find? fun r => r.live && r.key = key).toList := by
  cases hfind : t.statements.find? fun r => r.live && r.key = key with
  | none =>
      refine List.filter_eq_nil_iff.mpr fun r hr hkey => ?_
      obtain ⟨hr, hlive⟩ := mem_liveStatements.mp hr
      have hnone := List.find?_eq_none.mp hfind r hr
      rw [hlive, hkey] at hnone
      exact hnone rfl
  | some r =>
      have hr := List.mem_of_find?_eq_some hfind
      obtain ⟨hlive, hkey⟩ := by simpa using List.find?_some hfind
      have hids := hsound.statementIds.of_map.filter StatementRow.live
      have hone := List.nodup_singleton r
      refine List.perm_singleton.mp ((List.perm_ext_iff_of_nodup ?_ hone).mpr fun r' => ?_)
      · exact ((List.mergeSort_perm _ _).nodup_iff.mpr hids).filter _
      · rw [List.mem_filter, decide_eq_true_iff, mem_liveStatements, List.mem_singleton]
        constructor
        · rintro ⟨⟨hr', hlive'⟩, hkey'⟩
          exact hsound.liveKeys r' hr' r hr hlive' hlive (hkey'.trans hkey.symm)
        · rintro rfl
          exact ⟨⟨hr, hlive⟩, hkey⟩

theorem select_restates (hlists : List.Forall₂ w.Restates w.view.liveStatements all)
    (subject predicate object context : Option Node) : List.Forall₂ w.Restates
      (w.view.liveStatements.filter fun r =>
        r.key.MatchesNodes w.view subject predicate object context)
      (w.view.select all subject predicate object context) :=
  List.rel_filter (fun r s hs => by simp [hs.key]) hlists

/-! Nodes in slots -/

theorem slotIds_steady {slots : List (Option Node)}
    (h : ∀ n, some n ∈ slots → Delivers w.Steady (nodeId n) fun _ => True) :
    Delivers w.Steady (slotIds slots) fun ids =>
      (∀ ids', ids = some ids' → List.Forall₂ (SlotId w.view) slots ids') ∧
        (ids = none → ∃ n, some n ∈ slots ∧ w.view.storedId? n = none) := by
  have hdelivers : Delivers w.Steady (slotIds slots) fun _ => True := by
    induction slots with
    | nil => exact .pure trivial
    | cons slot rest ih =>
        have hrest := ih fun n hn => h n (by simp [hn])
        cases slot with
        | none => exact hrest.bind fun _ _ => .pure trivial
        | some n =>
            refine (h n (by simp)).bind fun id _ => ?_
            cases id with
            | some id => exact hrest.bind fun _ _ => .pure trivial
            | none => exact .pure trivial
  intro x hx
  obtain ⟨ids, x', hop, hx', -⟩ := hdelivers x hx
  exact ⟨ids, x', hop, hx', hx.view ▸ slotIds_eq_ok hop⟩

section

variable (hlists : List.Forall₂ w.Restates w.view.liveStatements all)
  (hslots : ∀ n, some n ∈ [subject, predicate, object, context] →
    Delivers w.Steady (nodeId n) fun _ => True)

include hlists hslots

theorem listStatements_steady (inferred : Bool) :
    Delivers w.Steady (listStatements subject predicate object context inferred)
      (· = (w.view.select all subject predicate object context).filter fun s =>
        inferred || !s.inferred) := by
  refine (slotIds_steady hslots).bind fun ids hids => ?_
  obtain ⟨some_ids, no_ids⟩ := hids
  cases ids with
  | none =>
      obtain ⟨n, hn, hmissing⟩ := no_ids rfl
      have hnone : w.view.select all subject predicate object context = [] :=
        List.filter_eq_nil_iff.mpr fun s _ hs => (of_decide_eq_true hs).stored hn hmissing
      exact .pure (by rw [hnone, List.filter_nil])
  | some ids =>
      have hmatches : ∀ r : StatementRow, r.hasIds ids =
          decide (r.key.MatchesNodes w.view subject predicate object context) := fun r => by
        rw [Bool.eq_iff_iff, decide_eq_true_iff, ← matchesNodes_iff (some_ids ids rfl)]
        exact StatementRow.hasIds_iff
      refine (Delivers.view (fun _ hx => hx.view) _).bind fun rows hrows => ?_
      subst hrows
      refine .mapM_forall₂ ?_
      simp only [hmatches, Bool.and_comm (decide _), ← List.filter_filter]
      refine (List.rel_filter (fun r s hs => ?_) (select_restates hlists _ _ _ _)).imp
        fun _ _ hs => hs.again
      simp [hs.inferred]

end

/-! Numbers and ids -/

section

variable (hlists : List.Forall₂ w.Restates w.view.liveStatements all)

include hlists

theorem countPattern_eq {ids : List (Option Int)} (hview : w'.view = w.view)
    (hids : List.Forall₂ (SlotId w.view) [subject, predicate, object, context] ids) :
    countPattern ids w' = .ok (w.view.select all subject predicate object context).length w' := by
  refine view_eq_ok_iff.mpr ⟨?_, rfl⟩
  have hmatches : ∀ r : StatementRow, (r.live && r.hasIds ids) =
      (decide (r.key.MatchesNodes w.view subject predicate object context) && r.live) := by
    intro r
    rw [Bool.and_comm, Bool.eq_iff_iff, Bool.and_eq_true, Bool.and_eq_true, decide_eq_true_iff,
      ← matchesNodes_iff hids, StatementRow.hasIds_iff]
  rw [← (select_restates hlists subject predicate object context).length_eq, hview]
  simp only [hmatches, ← List.filter_filter]
  exact ((List.mergeSort_perm _ _).filter _).length_eq.symm

theorem countStatements_eq (hslot : ∀ c ∈ context, ∃ id w', nodeId c w = .ok id w') :
    ∃ w', countStatements context w =
      .ok (w.view.select all none none none context).length w' := by
  have hnone : SlotId w.view none none := rfl
  cases context with
  | none =>
      exact ⟨w, countPattern_eq hlists rfl
        (.cons hnone (.cons hnone (.cons hnone (.cons hnone .nil))))⟩
  | some c =>
      obtain ⟨id, w₁, hid⟩ := hslot c rfl
      have hstored := nodeId_eq hid
      have hview : w₁.view = w.view := ((nodeId_reads c).ok hid).view_eq
      unfold countStatements
      dsimp only
      rw [bind_of_ok hid]
      cases id with
      | none =>
          have hnone : w.view.select all none none none (some c) = [] :=
            List.filter_eq_nil_iff.mpr fun s _ hs =>
              (of_decide_eq_true hs).stored (by simp) hstored.symm
          rw [hnone]
          exact ⟨w₁, rfl⟩
      | some id =>
          have hcontext : SlotId w.view (some c) (some id) := ⟨id, rfl, hstored.symm⟩
          exact ⟨w₁, countPattern_eq hlists hview
            (.cons hnone (.cons hnone (.cons hnone (.cons hcontext .nil))))⟩

theorem liveStatementId_eq (hsound : w.view.Sound) {key : StatementKey}
    (hids : List.Forall₂ (SlotId w.view) [subject, predicate, object, context]
      [some key.subject, some key.predicate, some key.object, some key.context]) :
    (w.view.select all subject predicate object context).length ≤ 1 ∧
      liveStatementId key w =
        .ok ((w.view.select all subject predicate object context).head?.map Statement.id) w := by
  have hkey : ∀ r : StatementRow,
      decide (r.key.MatchesNodes w.view subject predicate object context) =
      decide (r.key = key) := fun r => by
    rw [decide_eq_decide, ← matchesNodes_iff hids, StatementKey.matches_iff_eq]
  have hrestates := select_restates hlists subject predicate object context
  simp only [hkey, filter_key_liveStatements hsound key] at hrestates
  have hanswer : ∀ found, (w.view.statements.find? fun r => r.live &&
      r.key = key).map StatementRow.id =
      found → liveStatementId key w = .ok found w :=
    fun _ hfound => view_eq_ok_iff.mpr ⟨hfound, rfl⟩
  cases hfind : w.view.statements.find? fun r => r.live && r.key = key with
  | none =>
      rw [hfind] at hrestates
      rw [List.forall₂_nil_left_iff.mp hrestates]
      exact ⟨Nat.zero_le 1, hanswer none (by rw [hfind]; rfl)⟩
  | some r =>
      rw [hfind] at hrestates
      obtain ⟨s, rest, hs, hrest, heq⟩ := List.forall₂_cons_left_iff.mp hrestates
      rw [heq, List.forall₂_nil_left_iff.mp hrest]
      exact ⟨le_refl 1, hanswer (some s.id) (by rw [hfind, hs.id]; rfl)⟩

end

/-! Order, contexts and queries -/

theorem pairwise_lt_mergeSort {α : Type} {f : α → Int} {xs : List α} (h : (xs.map f).Nodup) :
    ((xs.mergeSort fun a b => f a ≤ f b).map f).Pairwise (· < ·) := by
  have hsorted : (xs.mergeSort fun a b => decide (f a ≤ f b)).Pairwise fun a b =>
      decide (f a ≤ f b) = true :=
    List.pairwise_mergeSort (by simp only [decide_eq_true_eq]; exact fun _ _ _ => le_trans)
      (by simp only [Bool.or_eq_true, decide_eq_true_eq]; exact fun a b => le_total _ _) xs
  have hnodup : ((xs.mergeSort fun a b => f a ≤ f b).map f).Nodup :=
    ((List.mergeSort_perm _ _).map f).nodup_iff.mpr h
  have hle : ((xs.mergeSort fun a b => f a ≤ f b).map f).Pairwise (· ≤ ·) :=
    List.pairwise_map.mpr (hsorted.imp fun hab => of_decide_eq_true hab)
  exact (hle.and hnodup).imp fun ⟨hab, hne⟩ => lt_of_le_of_ne hab hne

section

variable (hlists : List.Forall₂ w.Restates w.view.liveStatements all)

include hlists

theorem pairwise_ids (hsound : w.view.Sound) : (all.map Statement.id).Pairwise (· < ·) := by
  have hids : all.map Statement.id = w.view.liveStatements.map StatementRow.id :=
    map_eq_of_forall₂ (hlists.flip.imp fun _ _ hs => hs.id)
  rw [hids]
  exact pairwise_lt_mergeSort (hsound.statementIds.sublist (List.filter_sublist.map _))

theorem listContexts_eq (hgood : w.Good) :
    ∃ contexts w', listContexts w = .ok contexts w' ∧ (contexts.map Node.id).Pairwise (· < ·) ∧
      ∀ n, n ∈ contexts ↔ ∃ s ∈ all, s.context = some n := by
  let ids :=
    ((w.view.liveStatements.map StatementRow.context).eraseDups).mergeSort fun a b => a ≤ b
  have hids : ∀ id, id ∈ ids ↔ ∃ r ∈ w.view.liveStatements, r.context = id := by
    simp [ids, List.mem_mergeSort, List.mem_eraseDups]
  have hfound : ∀ id ∈ ids, ∃ n, w.Finds id n := by
    intro id hid
    obtain ⟨r, hr, rfl⟩ := (hids id).mp hid
    obtain ⟨s, -, hs⟩ := exists_mem_of_forall₂ hlists hr
    exact hs.nodes .context
  obtain ⟨contexts, hcontexts⟩ := exists_forall₂ hfound
  have hlist : Delivers w.Steady listContexts (· = contexts) := by
    refine (Delivers.view (fun _ hx => hx.view) _).bind fun _ heq => ?_
    subst heq
    exact .mapM_forall₂ (hcontexts.imp fun _ _ hfinds => requireNode_delivers hfinds)
  obtain ⟨_, w', hop, -, heq⟩ := hlist w (.refl hgood)
  refine ⟨contexts, w', heq ▸ hop, ?_, fun n => ⟨fun hn => ?_, ?_⟩⟩
  · have hnodes : ids = contexts.map Node.id := by
      rw [← List.map_id ids]
      exact map_eq_of_forall₂ (hcontexts.imp fun _ _ hfinds => (hfinds.id_eq hgood).symm)
    rw [← hnodes, ← List.map_id ids]
    exact pairwise_lt_mergeSort (by simpa using ResolvedQuery.nodup_eraseDups _)
  · obtain ⟨id, hid, hfinds⟩ := exists_mem_of_forall₂ hcontexts.flip hn
    obtain ⟨r, hr, rfl⟩ := (hids id).mp hid
    obtain ⟨s, hs, hrestates⟩ := exists_mem_of_forall₂ hlists hr
    obtain ⟨c, hc, hfinds'⟩ := hrestates.context
    have hsame : n = c := Workspace.Finds.eq hfinds hfinds'
    exact ⟨s, hs, hsame ▸ hc⟩
  · rintro ⟨s, hs, hn⟩
    obtain ⟨r, hr, hrestates⟩ := exists_mem_of_forall₂ hlists.flip hs
    obtain ⟨c, hc, hfinds⟩ := hrestates.context
    obtain ⟨m, hm, hfinds'⟩ := exists_mem_of_forall₂ hcontexts ((hids r.context).mpr ⟨r, hr, rfl⟩)
    obtain rfl : c = n := Option.some.inj (hc.symm.trans hn)
    exact hfinds.eq hfinds' ▸ hm

theorem referenced_of_restates (hgood : w.Good) : w.view.Referenced := by
  intro r hr hlive slot
  obtain ⟨s, -, hs⟩ := exists_mem_of_forall₂ hlists (mem_liveStatements.mpr ⟨hr, hlive⟩)
  obtain ⟨n, hfinds⟩ := hs.nodes slot
  obtain ⟨d, hd, -⟩ := hfinds.exists_row hgood
  exact ⟨d, List.mem_of_find?_eq_some hd, by simpa using List.find?_some hd⟩

theorem evaluate_single_eq (hgood : w.Good)
    (hslots : ∀ n, some n ∈ [subject, predicate, object, context] →
      Delivers w.Steady (nodeId n) fun _ => True)
    {p : Pattern} (hasks : p.Asks subject predicate object context)
    (hnodup : (p.terms.filterMap PatternTerm.var?).Nodup)
    (hnamed : "" ∉ p.terms.filterMap PatternTerm.var?)
    (justifications reorder : Bool) :
    ∃ r w', evaluate (.single p justifications) reorder w = .ok r w' ∧
      r.rows.Perm ((w.view.select all subject predicate object context).map fun s =>
        r.varNames.map (p.valueIn s.key) ++ if justifications then [s.id] else []) := by
  have hnodes : (PatternQuery.single p justifications).AllNodes fun n =>
      Delivers w.Steady (nodeId n) fun _ => True := by
    refine ⟨fun p' hp' n hn => ?_, by rintro e ⟨⟩, by rintro name n ⟨⟩⟩
    obtain rfl : p' = p := List.mem_singleton.mp hp'
    exact hslots n (hasks.mem_slots hn)
  have hcheck : ∀ given q', (PatternQuery.single p justifications).ResolvesTo w.view given q' →
      q'.select.check = .ok () := by
    intro given q' hresolves
    have hlength : q'.patterns.length = 1 :=
      hresolves.order.length_eq.trans hresolves.patterns.length_eq.symm
    have hcount := ResolvedQuery.tableCount_le q'
    rw [hlength] at hcount
    exact ResolvedQuery.check_eq_ok (hcount.trans (by decide)) hresolves.limit
  obtain ⟨r, w', hop, -, -⟩ := evaluate_delivers (fun _ hx => hx.view)
    (PatternQuery.validate_single hnamed) hnodes hcheck reorder w (.refl hgood)
  refine ⟨r, w', hop, ?_⟩
  have hrestates := select_restates hlists subject predicate object context
  have hmem : ∀ row, row ∈ (w.view.liveStatements.filter fun row =>
      row.key.MatchesNodes w.view subject predicate object context) ↔
        row ∈ w.view.statements ∧ w.view.Matched subject predicate object context row := by
    intro row
    rw [List.mem_filter, mem_liveStatements, decide_eq_true_iff, Tables.Matched, and_assoc]
  have hrows : (w.view.liveStatements.filter fun row =>
      row.key.MatchesNodes w.view subject predicate object context).Nodup :=
    ((List.mergeSort_perm _ _).nodup_iff.mpr (hgood.sound.statementIds.of_map.filter _)).filter _
  refine (evaluate_single hgood.sound.keyed
    (referenced_of_restates hlists hgood) hop hasks hnodup hrows
    hmem).trans (.of_eq (map_eq_of_forall₂ (hrestates.imp fun row s hs => ?_)))
  rw [hs.key, hs.id]

end

end Action

open QuadStore.Action

/-- Whether all that reads statements with given nodes in their slots
agrees with a list of them. -/
structure Workspace.ReadsSlots (w : Workspace) (found : List Statement)
    (subject predicate object context : Option Node) : Prop where
  listed : w.Answers (listStatements subject predicate object context true) found
  asserted : w.Answers (listStatements subject predicate object context false)
    (found.filter fun s => !s.inferred)
  counted : ∀ ids, w.Answers (slotIds [subject, predicate, object, context]) (some ids) →
    w.Answers (countPattern ids) found.length
  sized : subject = none → predicate = none → object = none →
    w.Answers (countStatements context) found.length
  identified : ∀ key : StatementKey, w.Answers (slotIds [subject, predicate, object, context])
      (some [some key.subject, some key.predicate, some key.object, some key.context]) →
    found.length ≤ 1 ∧ w.Answers (liveStatementId key) (found.head?.map Statement.id)
  queried : ∀ (p : Pattern) (justifications reorder : Bool),
    p.Asks subject predicate object context →
    (p.terms.filterMap PatternTerm.var?).Nodup → "" ∉ p.terms.filterMap PatternTerm.var? →
    ∃ r, w.Answers (evaluate (.single p justifications) reorder) r ∧
      r.rows.Perm (found.map fun s =>
        r.varNames.map (p.valueIn s.key) ++ if justifications then [s.id] else [])

/-- Whether a list has the live rows by their ids, and all that reads statements agrees with it,
as far as the nodes that are asked for can be looked up. -/
structure Workspace.ReadsAgree (w : Workspace) (all : List Statement) : Prop where
  rows : ∀ id key inferred, (∃ s ∈ all, s.id = id ∧ s.key = key ∧ s.inferred = inferred) ↔
    ∃ r ∈ w.view.statements, r.live = true ∧ r.id = id ∧ r.key = key ∧ r.isInferred = inferred
  sorted : (all.map Statement.id).Pairwise (· < ·)
  contexts : ∃ contexts, w.Answers listContexts contexts ∧
    (contexts.map Node.id).Pairwise (· < ·) ∧
    ∀ n, n ∈ contexts ↔ ∃ s ∈ all, s.context = some n
  slots : ∀ subject predicate object context : Option Node,
    (∀ n, some n ∈ [subject, predicate, object, context] → ∃ id, w.Answers (nodeId n) id) →
    w.ReadsSlots (w.view.select all subject predicate object context)
      subject predicate object context

namespace Workspace

variable {w : Workspace} {all : List Statement}

theorem answers_of_run' {α : Type} {a : Action α} {v : α}
    (h : a.run' w = some v) : w.Answers a v := by
  unfold EStateM.run' EStateM.run at h
  cases hop : a w with
  | ok u w' =>
      rw [hop] at h
      obtain rfl : u = v := Option.some.inj h
      exact ⟨w', hop⟩
  | error e w' =>
      rw [hop] at h
      cases h

theorem Good.answers {α : Type} {a : Action α} {v : α} (hgood : w.Good)
    (h : Delivers w.Steady a (· = v)) : w.Answers a v := by
  obtain ⟨_, w', hop, -, rfl⟩ := h w (.refl hgood)
  exact ⟨w', hop⟩

theorem Good.readsSlots {subject predicate object context : Option Node} (hgood : w.Good)
    (hlists : List.Forall₂ w.Restates w.view.liveStatements all)
    (hnodes : ∀ n, some n ∈ [subject, predicate, object, context] →
      ∃ id, w.Answers (nodeId n) id) :
    w.ReadsSlots (w.view.select all subject predicate object context)
      subject predicate object context := by
  have hslots : ∀ n, some n ∈ [subject, predicate, object, context] →
      Delivers w.Steady (nodeId n) fun _ => True := by
    intro n hn
    obtain ⟨id, w', hop⟩ := hnodes n hn
    exact (nodeId_repeats hgood n w (.refl hgood) id w' hop).imp fun _ _ => trivial
  have slots_eq : ∀ {ids}, w.Answers (slotIds [subject, predicate, object, context]) (some ids) →
      List.Forall₂ (SlotId w.view) [subject, predicate, object, context] ids :=
    fun ⟨_, hop⟩ => (slotIds_eq_ok hop).1 _ rfl
  constructor
  case listed => simpa using hgood.answers (listStatements_steady hlists hslots true)
  case asserted => simpa using hgood.answers (listStatements_steady hlists hslots false)
  case counted => exact fun ids hids => ⟨w, countPattern_eq hlists rfl (slots_eq hids)⟩
  case sized =>
    rintro rfl rfl rfl
    refine countStatements_eq hlists fun c hc => ?_
    obtain ⟨id, w', hop⟩ := hnodes c (by simp_all)
    exact ⟨id, w', hop⟩
  case identified =>
    intro key hkey
    obtain ⟨hone, hop⟩ := liveStatementId_eq hlists hgood.sound (slots_eq hkey)
    exact ⟨hone, w, hop⟩
  case queried =>
    intro p justifications reorder hasks hnodup hnamed
    obtain ⟨r, w', hop, hrows⟩ :=
      evaluate_single_eq hlists hgood hslots hasks hnodup hnamed justifications reorder
    exact ⟨r, ⟨w', hop⟩, hrows⟩

theorem Good.readsAgree (hgood : w.Good)
    (hall : w.Answers (listStatements none none none none true) all) :
    w.ReadsAgree all := by
  obtain ⟨w', hall⟩ := hall
  have hlists := listStatements_restates hgood hall
  refine ⟨fun id key inferred => ⟨?_, ?_⟩, pairwise_ids hlists hgood.sound, ?_,
    fun _ _ _ _ => hgood.readsSlots hlists⟩
  · rintro ⟨s, hs, rfl, rfl, rfl⟩
    obtain ⟨r, hr, hrestates⟩ := exists_mem_of_forall₂ hlists.flip hs
    obtain ⟨hr, hlive⟩ := mem_liveStatements.mp hr
    exact ⟨r, hr, hlive, hrestates.id.symm, hrestates.key.symm, hrestates.inferred.symm⟩
  · rintro ⟨r, hr, hlive, rfl, rfl, rfl⟩
    obtain ⟨s, hs, hrestates⟩ := exists_mem_of_forall₂ hlists (mem_liveStatements.mpr ⟨hr, hlive⟩)
    exact ⟨s, hs, hrestates.id, hrestates.key, hrestates.inferred⟩
  · obtain ⟨contexts, w', hop, hcontexts⟩ := listContexts_eq hlists hgood
    exact ⟨contexts, ⟨w', hop⟩, hcontexts⟩

end Workspace

namespace OpenStore

variable {config : Config} {tables : Tables} {registryFile : RegistryFile} {labelStart : String}
  {s : OpenStore} {log : List Event} {all : List Statement}

/-- Whether a connection of the store works on this: that of a transaction, or one
that was not used yet. -/
inductive Connected (s : OpenStore) : Workspace → Prop
  | transaction {i : Nat} {x : Transaction.Scope} (h : s.scope? i = some x) : Connected s x.work
  | unused (transaction : Int) : Connected s { s.shared with conn := { transaction } }

theorem Good.connected (hs : s.Good) {w : Workspace} (h : s.Connected w) : w.Good := by
  cases h with
  | transaction hx => exact (hs.scopes _ _ hx).work
  | unused transaction => exact Workspace.good_of_idle hs.counter hs.sound hs.caches rfl rfl rfl

/-- In every run, when a connection can list all statements, then all that reads statements
through it agrees with that list. -/
theorem reads_agree (hsound : tables.Sound)
    (hrun : (opened config tables registryFile labelStart).Run log s)
    {w : Workspace} (hw : s.Connected w)
    (hall : w.Answers (listStatements none none none none true) all) : w.ReadsAgree all :=
  (((good_opened config hsound registryFile labelStart).run hrun).connected hw).readsAgree hall

/-- An inferred statement, listed with all statements and with its subject. -/
theorem reads_agree_inferred :
    let a : Node := .uri "urn:a"
    let s := (opened {} {} [] "w").begin.after 0 (.addInferred a a a none)
    ∃ x all, s.scope? 0 = some x ∧ all.map Statement.id = [1] ∧ x.work.ReadsAgree all ∧
      x.work.ReadsSlots (x.work.view.select all (some a) none none none)
        (some a) none none none := by
  intro a s
  let x := (s.scope? 0).get (by decide +kernel)
  have hrun := Run.nil (s := opened {} {} [] "w") |>.snoc .begin
    |>.call 0 (.addInferred a a a none)
  have hx : s.scope? 0 = some x := (Option.some_get _).symm
  have hlisted : ((listStatements none none none none true).run' x.work).map
      (·.map Statement.id) =
      some [1] := by decide +kernel
  obtain ⟨all, hall, hids⟩ := Option.map_eq_some_iff.mp hlisted
  have hagree := reads_agree Tables.sound_empty hrun (.transaction hx)
    (Workspace.answers_of_run' hall)
  have hnode : ((nodeId a).run' x.work) = some (some 2) := by decide +kernel
  refine ⟨x, all, hx, hids, hagree, hagree.slots _ _ _ _ fun n hn => ⟨some 2, ?_⟩⟩
  obtain rfl : n = a := by simpa using hn
  exact Workspace.answers_of_run' hnode

/-- All statements can be listed, but not those with a date whose year has more than four digits,
since the row of that date cannot be read. -/
theorem long_year_not_listed :
    let moment : Moment := ⟨327403382400, 0, 0, by decide, by decide⟩
    let date : Node := .literal (.date moment) (some ⟨1, Vocabulary.xsdDate⟩)
    let s := (opened {} {} [] "w").begin.after 0 (.typed "+12345-01-01" Vocabulary.xsdDate)
    ((s.scope? 0).bind fun x => (listStatements none none none none true).run' x.work) = some [] ∧
      (s.scope? 0).map (Call.list none none (some date) none true).failure? =
        some (some (.data (.malformedTimestamp
          "+12345-01-01T00:00:00.000000000Z" .invalid))) := by
  decide +kernel

end OpenStore
end QuadStore
