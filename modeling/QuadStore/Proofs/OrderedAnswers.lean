import QuadStore.Proofs.PatternOrder
import QuadStore.Proofs.RowOrder
import QuadStore.Proofs.StoredIds

namespace QuadStore

/-- The cells of a node that rows are ordered by. -/
def Tables.orderCells (t : Tables) (id : Int) : List (Bool × Cell) :=
  ["dvalue", "tvalue", "svalue"].map fun column => (true, t.nodeCells id column)

namespace QueryResults

variable {r : QueryResults} {row : List Int} {name : String}

/-- The id that a row of an answer has for a variable. -/
def value? (r : QueryResults) (row : List Int) (name : String) : Option Int :=
  (r.varNames.zip row).lookup name

theorem mem_varNames_of_value? {id : Int} (h : r.value? row name = some id) :
    name ∈ r.varNames := by
  obtain ⟨before, after, heq, -⟩ := List.lookup_eq_some_iff.mp h
  refine (List.of_mem_zip (show (name, id) ∈ r.varNames.zip row from ?_)).1
  rw [heq]
  exact List.mem_append_right _ List.mem_cons_self

/-- What a row of an answer is ordered by: the cells of its values, variable by variable. -/
def sortKey (r : QueryResults) (t : Tables) (orderBy : List String) (row : List Int) :
    List (Bool × Cell) :=
  orderBy.flatMap fun name => ((r.value? row name).map t.orderCells).getD []

/-- Whether the rows of an answer come in the order of their keys. -/
def SortedBy (r : QueryResults) (t : Tables) (orderBy : List String) : Prop :=
  r.rows.Pairwise fun row row' =>
    keyLe (r.sortKey t orderBy row) (r.sortKey t orderBy row') = true

end QueryResults

namespace ResolvedQuery

variable {q : ResolvedQuery} {t : Tables} {rows : List StatementRow} {choice : Choice}
  {values : String → Int}

/-- What a solution is ordered by: the cells of its values, variable by variable. -/
def sortKey (q : ResolvedQuery) (t : Tables) (values : String → Int) : List (Bool × Cell) :=
  q.orderBy.flatMap fun name => if name ∈ q.varNames then t.orderCells (values name) else []

theorem firstOccurrence?_eq_none {name : String} (h : name ∉ q.varNames) :
    q.firstOccurrence? name = none := by
  cases hfirst : q.firstOccurrence? name with
  | none => rfl
  | some o =>
      obtain ⟨ho, rfl⟩ := firstOccurrence?_eq_some hfirst
      exact absurd (List.mem_eraseDups.mpr (List.mem_map_of_mem ho)) h

theorem Shows.cell?_nodeCells (h : q.Shows t rows choice)
    (hq : q.Solves t values rows) {name : String}
    {o : Occurrence} (ho : q.firstOccurrence? name = some o) (column : String) :
    choice.cell? ⟨o.nodeLabel q, column⟩ = some (t.nodeCells (values name) column) := by
  obtain ⟨r, hr, hvalue⟩ := h.first_value hq ho
  rw [Choice.cell?, h.nodes o (firstOccurrence?_eq_some ho).1 r hr, hvalue]
  rfl

theorem Shows.orderKey_eq (h : q.Shows t rows choice) (hq : q.Solves t values rows) :
    choice.orderKey q.select.orderBy = q.sortKey t values := by
  show choice.orderKey q.orderTerms = _
  rw [Choice.orderKey, orderTerms, sortKey, List.map_flatMap]
  refine List.flatMap_congr fun name _ => ?_
  by_cases hname : name ∈ q.varNames
  · obtain ⟨o, ho⟩ := exists_firstOccurrence hname
    rw [if_pos hname, ho, List.map_map, Tables.orderCells]
    refine List.map_congr_left fun column _ => ?_
    show (true, (choice.cell? ⟨o.nodeLabel q, column⟩).getD .null) = _
    rw [h.cell?_nodeCells hq ho, Option.getD_some]
  · rw [if_neg hname, firstOccurrence?_eq_none hname]
    rfl

theorem exists_sorted_solutions (ht : t.Keyed) {answer : List (List Cell)}
    (h : q.select.run t = .ok answer) :
    ∃ solutions : List ((String → Int) × List StatementRow),
      answer = solutions.map (fun s => (q.answerRow s.1 s.2).map Cell.int) ∧
        solutions.Pairwise fun s s' => keyLe (q.sortKey t s.1) (q.sortKey t s'.1) = true := by
  obtain ⟨choices, rfl, hmem, hsorted⟩ := SelectQuery.exists_ordered_choices h
  have solution_exists : ∀ choice ∈ choices, ∃ s : (String → Int) × List StatementRow,
      q.Shows t s.2 choice ∧ q.Solves t s.1 s.2 ∧ q.Grounded t s.1 := by
    intro choice hchoice
    obtain ⟨hdraws, hholds⟩ := SelectQuery.mem_choices_iff.mp (hmem choice hchoice)
    obtain ⟨rows, hshows, hrows⟩ := exists_shown ht hdraws hholds
    exact ⟨(q.valueIn rows, rows), hshows, hshows.solves_of_holds hrows hholds,
      hshows.grounded_of_holds hholds⟩
  -- Each choice is sorted by the cells of the nodes that its solution has for the variables.
  choose! solution hsolution using solution_exists
  refine ⟨choices.map solution, ?_, ?_⟩
  · rw [List.map_map]
    refine List.map_congr_left fun choice hchoice => ?_
    obtain ⟨hshows, hq, hground⟩ := hsolution choice hchoice
    exact hshows.project_eq ht hq hground
  · refine List.pairwise_map.mpr (hsorted.imp_of_mem fun {a b} ha hb hle => ?_)
    obtain ⟨hshows, hq, -⟩ := hsolution a ha
    obtain ⟨hshows', hq', -⟩ := hsolution b hb
    rwa [hshows.orderKey_eq hq, hshows'.orderKey_eq hq'] at hle

theorem int?_answerRow (q : ResolvedQuery) (values : String → Int) (rows : List StatementRow) :
    ((q.answerRow values rows).map Cell.int).filterMap Cell.int? = q.answerRow values rows := by
  rw [List.filterMap_map]
  exact List.filterMap_some

theorem value?_answerRow (q : ResolvedQuery) (values : String → Int) (rows : List StatementRow)
    {r : QueryResults} (hnames : r.varNames = q.varNames) (name : String) :
    r.value? (q.answerRow values rows) name =
      if name ∈ q.varNames then some (values name) else none := by
  rw [QueryResults.value?, hnames, answerRow, lookup_zip_map]

theorem sortKey_answerRow (q : ResolvedQuery) (t : Tables) (values : String → Int)
    (rows : List StatementRow) {r : QueryResults} (hnames : r.varNames = q.varNames) :
    r.sortKey t q.orderBy (q.answerRow values rows) = q.sortKey t values := by
  refine List.flatMap_congr fun name _ => ?_
  rw [value?_answerRow q values rows hnames]
  split <;> rfl

end ResolvedQuery

namespace Action

variable {q : PatternQuery} {reorder : Bool} {w w' : Workspace} {r : QueryResults}

theorem orderBy_of_resolveQuery {q' : ResolvedQuery} (h : resolveQuery q w = .ok (some q') w') :
    q'.orderBy = q.orderBy := by
  obtain ⟨patterns, w₁, -, h⟩ := bind_eq_ok_iff.mp h
  cases patterns with
  | none => cases (pure_eq_ok_iff.mp h).1
  | some patterns =>
      obtain ⟨bindings, w₂, -, h⟩ := bind_eq_ok_iff.mp h
      cases bindings with
      | none => cases (pure_eq_ok_iff.mp h).1
      | some bindings =>
          obtain ⟨sameValues, w₃, -, h⟩ := bind_eq_ok_iff.mp h
          cases sameValues with
          | none => cases (pure_eq_ok_iff.mp h).1
          | some sameValues =>
              rw [← Option.some.inj (pure_eq_ok_iff.mp h).1]

theorem orderBy_of_prepareQuery {q' : ResolvedQuery}
    (h : prepareQuery q reorder w = .ok (some q') w') :
    q'.orderBy = q.orderBy := by
  obtain ⟨_, w₁, -, h⟩ := bind_eq_ok_iff.mp h
  obtain ⟨resolved, w₂, hresolved, h⟩ := bind_eq_ok_iff.mp h
  cases resolved with
  | none => cases (pure_eq_ok_iff.mp h).1
  | some resolved =>
      rw [← orderBy_of_resolveQuery hresolved]
      dsimp only at h
      split at h
      · rw [map_eq_pure_bind] at h
        obtain ⟨q₁, w₃, hq₁, h⟩ := bind_eq_ok_iff.mp h
        obtain ⟨patterns, -, rfl⟩ := reorderPatterns_eq hq₁
        rw [← Option.some.inj (pure_eq_ok_iff.mp h).1]
      · rw [← Option.some.inj (pure_eq_ok_iff.mp h).1]

theorem evaluate_eq_ok (h : evaluate q reorder w = .ok r w') :
    r.rows = [] ∨ ∃ (q' : ResolvedQuery) (answer : List (List Cell)), q'.orderBy = q.orderBy ∧
      q'.select.run w.view = .ok answer ∧ r.varNames = q'.varNames ∧
        r.rows = answer.map fun row => row.filterMap Cell.int? := by
  obtain ⟨resolved, w₁, hprepare, h⟩ := bind_eq_ok_iff.mp h
  cases resolved with
  | none =>
      obtain ⟨rfl, -⟩ := pure_eq_ok_iff.mp h
      exact .inl rfl
  | some q' =>
      obtain ⟨_, w₂, hget, h⟩ := bind_eq_ok_iff.mp h
      obtain ⟨rfl, rfl⟩ := get_eq_ok_iff.mp hget
      obtain ⟨answer, w₃, hrun, h⟩ := bind_eq_ok_iff.mp h
      obtain ⟨hanswer, -⟩ := ofData_eq_ok_iff.mp hrun
      obtain ⟨rfl, -⟩ := pure_eq_ok_iff.mp h
      rw [((prepareQuery_reads q reorder).ok hprepare).view_eq] at hanswer
      exact .inr ⟨q', answer, orderBy_of_prepareQuery hprepare, hanswer, rfl, rfl⟩

/-- The rows of an answer come in the order of the cells of their values. -/
theorem evaluate_sorted (hkeyed : w.view.Keyed) (h : evaluate q reorder w = .ok r w') :
    r.SortedBy w.view q.orderBy := by
  rcases evaluate_eq_ok h with hrows | ⟨q', answer, horder, hrun, hnames, hrows⟩
  · rw [QueryResults.SortedBy, hrows]
    exact .nil
  · obtain ⟨solutions, rfl, hsorted⟩ := q'.exists_sorted_solutions hkeyed hrun
    rw [QueryResults.SortedBy, hrows, List.map_map, List.pairwise_map]
    refine hsorted.imp fun {s s'} hle => ?_
    rwa [Function.comp_apply, Function.comp_apply, q'.int?_answerRow, q'.int?_answerRow, ← horder,
      q'.sortKey_answerRow w.view s.1 s.2 hnames, q'.sortKey_answerRow w.view s'.1 s'.2 hnames]

end Action
end QuadStore
