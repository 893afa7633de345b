import Mathlib.Tactic.Choose
import QuadStore.Proofs.CallerOrder
import QuadStore.Proofs.CompiledRows

namespace QuadStore.ResolvedQuery

variable {q : ResolvedQuery} {t : Tables} {rows : List StatementRow} {choice : Choice}

/-- What a solution is answered with: the values of the variables, and the ids of the rows
if they are asked for. -/
def answerRow (q : ResolvedQuery) (values : String → Int) (rows : List StatementRow) : List Int :=
  q.varNames.map values ++
    if q.justifications then (q.inCallerOrder rows).map StatementRow.id else []

/-- What a solution is answered with whose rows are in the order of the query. -/
def givenRow (q : ResolvedQuery) (values : String → Int) (rows : List StatementRow) : List Int :=
  q.varNames.map values ++ if q.justifications then rows.map StatementRow.id else []

theorem map_variableProjections {f : Projection → Cell} {g : String → Cell}
    (h : ∀ name ∈ q.varNames, ∀ k, ∃ o, q.firstOccurrence? name = some o ∧
      f ⟨⟨o.nodeLabel q, "id"⟩, variableLabel k⟩ = g name) :
    q.variableProjections.map f = q.varNames.map g := by
  have map_from : ∀ (names : List String) (start : Nat), names ⊆ q.varNames →
      ((names.zipIdx start).filterMap fun entry =>
        (q.firstOccurrence? entry.1).map fun first =>
          (⟨⟨first.nodeLabel q, "id"⟩, variableLabel entry.2⟩ : Projection)).map f =
        names.map g := by
    intro names
    induction names with
    | nil => intro start _; rfl
    | cons name names ih =>
        intro start hsub
        obtain ⟨o, ho, hg⟩ := h name (hsub (by simp)) start
        rw [List.zipIdx_cons, List.filterMap_cons]
        simp only [ho, Option.map_some, List.map_cons, hg]
        rw [ih (start + 1) fun n hn => hsub (by simp [hn])]
  exact map_from q.varNames 0 (List.Subset.refl _)

theorem Shows.project_eq {values : String → Int} (h : q.Shows t rows choice) (ht : t.Keyed)
    (hq : q.Solves t values rows) (hground : q.Grounded t values) :
    q.select.project choice = (q.answerRow values rows).map Cell.int := by
  have hvars : q.variableProjections.map (fun p => (choice.cell? p.column).getD .null) =
      q.varNames.map fun name => .int (values name) := by
    refine map_variableProjections fun name hname k => ?_
    obtain ⟨o, ho⟩ := exists_firstOccurrence hname
    obtain ⟨hmem, rfl⟩ := firstOccurrence?_eq_some ho
    obtain ⟨r, hr⟩ := h.exists_row hmem
    refine ⟨o, ho, ?_⟩
    rw [h.cell?_node ht hq hground hmem hr, Option.getD_some, hq.value_eq hmem hr]
  have hjustifications : q.callerOrder.map
      (fun k => (choice.cell? ⟨patternLabel k, "id"⟩).getD .null) =
        (q.inCallerOrder rows).map fun r => .int r.id := by
    have map_some : ∀ ks : List Nat, (∀ k ∈ ks, k < rows.length) →
        ks.map (fun k => (choice.cell? ⟨patternLabel k, "id"⟩).getD .null) =
          (ks.filterMap fun k => rows[k]?).map fun r => .int r.id := by
      intro ks
      induction ks with
      | nil => intro _; rfl
      | cons k ks ih =>
          intro hks
          obtain ⟨r, hr⟩ : ∃ r, rows[k]? = some r :=
            ⟨_, List.getElem?_eq_getElem (hks k (by simp))⟩
          have hcell : choice.cell? ⟨patternLabel k, "id"⟩ = some (.int r.id) := by
            rw [Choice.cell?, h.patterns k r hr]
            rfl
          rw [List.map_cons, List.filterMap_cons, hr, ih fun k' hk' => hks k' (by simp [hk']),
            hcell]
          rfl
    exact map_some q.callerOrder fun k hk => h.length.symm ▸ lt_of_mem_callerOrder hk
  rw [SelectQuery.project, answerRow, List.map_append]
  simp only [select, List.map_append, hvars, List.map_map]
  congr 1
  unfold justificationProjections
  split
  · rw [List.map_map, List.map_map]
    refine Eq.trans ?_ hjustifications
    conv_rhs => rw [← List.zipIdx_map_fst 0 q.callerOrder]
    rw [List.map_map]
    rfl
  · rfl

theorem exists_grounded_solutions (q : ResolvedQuery) (ht : t.Keyed) :
    ∃ solutions : List ((String → Int) × List StatementRow),
      (solutions.map Prod.snd).Nodup ∧
      (∀ s ∈ solutions, q.Solves t s.1 s.2 ∧ q.Grounded t s.1) ∧
      (∀ values rows, q.Solves t values rows → q.Grounded t values →
        rows ∈ solutions.map Prod.snd) ∧
      (q.select.choices t).map q.select.project =
        solutions.map fun s => (q.answerRow s.1 s.2).map Cell.int := by
  have solution_exists : ∀ choice ∈ q.select.choices t, ∃ s : (String → Int) × List StatementRow,
      q.Shows t s.2 choice ∧ q.Solves t s.1 s.2 ∧ q.Grounded t s.1 := by
    intro choice hchoice
    obtain ⟨hdraws, hholds⟩ := SelectQuery.mem_choices_iff.mp hchoice
    obtain ⟨rows, hshows, hrows⟩ := exists_shown ht hdraws hholds
    exact ⟨(q.valueIn rows, rows), hshows, hshows.solves_of_holds hrows hholds,
      hshows.grounded_of_holds hholds⟩
  choose! solution hsolution using solution_exists
  refine ⟨(q.select.choices t).map solution, ?_, ?_, ?_, ?_⟩
  · rw [List.map_map]
    refine (SelectQuery.nodup_choices ht.nodup_rows).map_on ?_
    intro choice hchoice choice' hchoice' heq
    have hshows' := (hsolution choice' hchoice').1
    simp only [Function.comp_apply] at heq
    rw [← heq] at hshows'
    exact (hsolution choice hchoice).1.choice_unique hshows'
  · intro s hs
    obtain ⟨choice, hchoice, rfl⟩ := List.mem_map.mp hs
    exact (hsolution choice hchoice).2
  · intro values rows hq hground
    obtain ⟨choice, hshows, hdraws⟩ := exists_shows ht hq hground
    have hchoice : choice ∈ q.select.choices t :=
      SelectQuery.mem_choices_iff.mpr ⟨hdraws, hshows.holds_of_solves ht hq hground⟩
    obtain ⟨hshows', hq', -⟩ := hsolution choice hchoice
    rw [List.map_map, List.mem_map]
    refine ⟨choice, hchoice, ?_⟩
    exact hshows'.rows_unique ht hshows (fun r hr => (hq'.mem_rows r hr).1) fun r hr =>
      (hq.mem_rows r hr).1
  · rw [List.map_map]
    refine List.map_congr_left fun choice hchoice => ?_
    obtain ⟨hshows, hq, hground⟩ := hsolution choice hchoice
    exact hshows.project_eq ht hq hground

section

variable {values : String → Int}

theorem grounded_given_iff : q.given.Grounded t values ↔ q.Grounded t values := by
  simp only [Grounded, mem_varNames_given]

theorem solves_given_iff (hlength : rows.length = q.patterns.length) :
    q.given.Solves t values (q.inCallerOrder rows) ↔ q.Solves t values rows := by
  have rows_iff := forall₂_pick_iff (R := fun p r => r ∈ t.statements ∧ p.Fits values r)
    (perm_callerOrder q) rfl hlength
  constructor
  · rintro ⟨hrows, hbindings, hterms, hvalues⟩
    simp only [mem_varNames_given] at hbindings hterms hvalues
    exact ⟨rows_iff.mp hrows, hbindings, hterms, hvalues⟩
  · rintro ⟨hrows, hbindings, hterms, hvalues⟩
    refine ⟨rows_iff.mpr hrows, ?_, ?_, ?_⟩ <;> simpa only [mem_varNames_given]

end

/-- The compiled statement answers the solutions of the query as it was given, each once. -/
theorem exists_given_solutions (q : ResolvedQuery) (ht : t.Keyed) :
    ∃ solutions : List ((String → Int) × List StatementRow),
      (solutions.map Prod.snd).Nodup ∧
      (∀ s ∈ solutions, q.given.Solves t s.1 s.2 ∧ q.given.Grounded t s.1) ∧
      (∀ values rows, q.given.Solves t values rows → q.given.Grounded t values →
        rows ∈ solutions.map Prod.snd) ∧
      (q.select.choices t).map q.select.project =
        solutions.map fun s => (q.givenRow s.1 s.2).map Cell.int := by
  obtain ⟨solutions, hnodup, hsolve, hall, hproject⟩ := q.exists_grounded_solutions ht
  have hplaces := perm_callerOrder q
  have length_eq : ∀ s ∈ solutions, s.2.length = q.patterns.length :=
    fun s hs => (hsolve s hs).1.length
  have map_snd : (solutions.map fun s => (s.1, q.inCallerOrder s.2)).map Prod.snd =
      (solutions.map Prod.snd).map q.inCallerOrder := by
    simp only [List.map_map, Function.comp_def]
  refine ⟨solutions.map fun s => (s.1, q.inCallerOrder s.2), ?_, ?_, ?_, ?_⟩
  · rw [map_snd]
    refine hnodup.map_on fun rows hr rows' hr' heq => ?_
    obtain ⟨s, hs, rfl⟩ := List.mem_map.mp hr
    obtain ⟨s', hs', rfl⟩ := List.mem_map.mp hr'
    exact pick_injective hplaces (length_eq s hs) (length_eq s' hs') heq
  · intro s hs
    obtain ⟨s', hs', rfl⟩ := List.mem_map.mp hs
    obtain ⟨hq, hground⟩ := hsolve s' hs'
    exact ⟨(solves_given_iff (length_eq s' hs')).mpr hq, grounded_given_iff.mpr hground⟩
  · intro values rows hq hground
    have hlength : rows.length = q.patterns.length :=
      hq.length.trans q.perm_pick_callerOrder.length_eq
    obtain ⟨rows', hlength', rfl⟩ := exists_pick_eq hplaces hlength
    rw [map_snd]
    refine List.mem_map_of_mem (hall values rows' ?_ (grounded_given_iff.mp hground))
    exact (solves_given_iff hlength').mp hq
  · rw [hproject, List.map_map]
    rfl

theorem exists_solutions (q : ResolvedQuery) (ht : t.Keyed) (href : t.Referenced) :
    ∃ solutions : List ((String → Int) × List StatementRow),
      (solutions.map Prod.snd).Nodup ∧
      (∀ s ∈ solutions, q.Solves t s.1 s.2) ∧
      (∀ values rows, q.Solves t values rows → rows ∈ solutions.map Prod.snd) ∧
      (q.select.choices t).map q.select.project =
        solutions.map fun s => (q.answerRow s.1 s.2).map Cell.int := by
  obtain ⟨solutions, hnodup, hsolves, hall, hproject⟩ := q.exists_grounded_solutions ht
  exact ⟨solutions, hnodup, fun s hs => (hsolves s hs).1,
    fun values rows hq => hall values rows hq (hq.grounded href), hproject⟩

end QuadStore.ResolvedQuery
