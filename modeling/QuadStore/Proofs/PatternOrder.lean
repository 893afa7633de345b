import QuadStore.Proofs.PatternAnswers

/-!
The order of the patterns. Putting them in another order renames the rows and variables of the
compiled statement and moves its columns, but what its rows say stays the same, each as often.
Main statement: this holds for every order, so also for that in which the patterns are put
before the statement is run.
-/

namespace QuadStore

/-- What a row of an answer says, whichever columns it says it in: the value of each variable, and
the statements that made the row. -/
structure Reading where
  value : String → Option Cell
  justifications : List Cell

def CompiledQuery.reading (c : CompiledQuery) (row : List Cell) : Reading where
  value name := (c.varNames.zip row).lookup name
  justifications := row.drop c.varNames.length

/-- Whether two compiled queries are refused for the same fault, or have rows that say
the same, each as often. -/
inductive CompiledQuery.AnswerAlike (t : Tables) (c c' : CompiledQuery) : Prop
  | refused (fault : DataFault) (refused : c.select.run t = .error fault)
      (refused' : c'.select.run t = .error fault)
  | answered (rows rows' : List (List Cell)) (answered : c.select.run t = .ok rows)
      (answered' : c'.select.run t = .ok rows')
      (alike : (rows.map c.reading).Perm (rows'.map c'.reading))

namespace ResolvedQuery

variable {q : ResolvedQuery} {t : Tables} {rows : List StatementRow} {values : String → Int}

/-- What is said of rows that solve a query and are in its order. -/
def saying (q : ResolvedQuery) (rows : List StatementRow) : Reading where
  value name := if name ∈ q.varNames then some (.int (q.valueIn rows name)) else none
  justifications := if q.justifications then rows.map fun r => .int r.id else []

theorem Solves.valueIn_eq (h : q.Solves t values rows) {name : String}
    (hname : name ∈ q.varNames) :
    q.valueIn rows name = values name := by
  obtain ⟨o, hfirst⟩ := exists_firstOccurrence hname
  obtain ⟨ho, rfl⟩ := firstOccurrence?_eq_some hfirst
  obtain ⟨r, hr⟩ := h.exists_row ho
  rw [ResolvedQuery.valueIn_eq hfirst hr, h.value_eq ho hr]

theorem lookup_zip_map {β : Type} (f : String → β) (rest : List β)
    (name : String) (names : List String) :
    (names.zip (names.map f ++ rest)).lookup name =
      if name ∈ names then some (f name) else none := by
  induction names with
  | nil => rfl
  | cons first names ih =>
      rw [List.map_cons, List.cons_append, List.zip_cons_cons, List.lookup_cons]
      by_cases heq : name = first
      · simp [heq]
      · have hother : (name == first) = false := by simpa using heq
        simp [hother, heq, ih]

theorem reading_givenRow (h : q.given.Solves t values rows) :
    q.compile.reading ((q.givenRow values rows).map Cell.int) = q.given.saying rows := by
  have hnames : q.compile.varNames = q.varNames := rfl
  have hlength : (q.varNames.map (Cell.int ∘ values)).length = q.varNames.length := by simp
  rw [CompiledQuery.reading, saying, hnames, givenRow, List.map_append, List.map_map]
  congr 1
  · funext name
    refine (lookup_zip_map (fun name => Cell.int (values name)) _ name q.varNames).trans ?_
    by_cases hname : name ∈ q.varNames
    · have hgiven := mem_varNames_given.mpr hname
      rw [if_pos hname, if_pos hgiven, h.valueIn_eq hgiven]
    · rw [if_neg hname, if_neg (mt mem_varNames_given.mp hname)]
  · have hasked : q.given.justifications = q.justifications := rfl
    rw [List.drop_left' hlength, hasked]
    split <;> simp

theorem exists_sayings (ht : t.Keyed) (hlimit : q.limit = none) {answer : List (List Cell)}
    (h : q.select.run t = .ok answer) :
    ∃ solutions : List (List StatementRow), solutions.Nodup ∧
      (∀ rows, rows ∈ solutions ↔ ∃ values, q.given.Solves t values rows ∧
        q.given.Grounded t values) ∧
        (answer.map q.compile.reading).Perm (solutions.map q.given.saying) := by
  obtain ⟨solutions, hnodup, hsolve, hall, hproject⟩ := q.exists_given_solutions ht
  refine ⟨solutions.map Prod.snd, hnodup, fun rows => ⟨fun hrows => ?_, ?_⟩, ?_⟩
  · obtain ⟨s, hs, rfl⟩ := List.mem_map.mp hrows
    exact ⟨s.1, hsolve s hs⟩
  · rintro ⟨values, hq, hground⟩
    exact hall values rows hq hground
  · have hanswer := rows_of_run hlimit h
    rw [hproject] at hanswer
    refine (hanswer.map _).trans (.of_eq ?_)
    rw [List.map_map, List.map_map]
    exact List.map_congr_left fun s hs => reading_givenRow (hsolve s hs).1

theorem run_of_check (q : ResolvedQuery) (t : Tables) :
    (∃ fault, q.select.check = .error fault ∧ q.select.run t = .error fault) ∨
      q.select.check = .ok () ∧ ∃ answer, q.select.run t = .ok answer := by
  unfold SelectQuery.run
  cases hcheck : q.select.check with
  | error fault => exact .inl ⟨fault, rfl, rfl⟩
  | ok u => exact .inr ⟨rfl, _, rfl⟩

theorem check_of_perm {patterns : List ResolvedPattern} (hperm : patterns.Perm q.patterns) :
    ({ q with patterns } : ResolvedQuery).select.check = q.select.check := by
  have htables : ({ q with patterns } : ResolvedQuery).select.tableCount =
      q.select.tableCount := by
    rw [tableCount_eq, tableCount_eq]
    exact (hperm.map _).sum_eq
  unfold SelectQuery.check
  rw [htables]
  rfl

theorem answerAlike_of_perm {patterns : List ResolvedPattern} (hperm : patterns.Perm q.patterns)
    (hindex : (q.patterns.map ResolvedPattern.index).Nodup)
    (hlimit : q.limit = none) (ht : t.Keyed) :
    q.compile.AnswerAlike t ({ q with patterns } : ResolvedQuery).compile := by
  let q' : ResolvedQuery := { q with patterns }
  have hcheck : q'.select.check = q.select.check := check_of_perm hperm
  have hgiven : q'.given = q.given := given_eq hperm hindex
  rcases q.run_of_check t with ⟨fault, hfault, hrun⟩ | ⟨hok, answer, hrun⟩ <;>
    rcases q'.run_of_check t with ⟨fault', hfault', hrun'⟩ | ⟨hok', answer', hrun'⟩
  · have hsame : fault' = fault := Except.error.inj (hfault'.symm.trans (hcheck.trans hfault))
    exact .refused fault hrun (hsame ▸ hrun')
  · cases hok'.symm.trans (hcheck.trans hfault)
  · cases hfault'.symm.trans (hcheck.trans hok)
  · obtain ⟨solutions, hnodup, hmem, hsaid⟩ := exists_sayings ht hlimit hrun
    obtain ⟨solutions', hnodup', hmem', hsaid'⟩ := exists_sayings (q := q') ht hlimit hrun'
    rw [hgiven] at hmem' hsaid'
    have hsame : solutions.Perm solutions' :=
      (List.perm_ext_iff_of_nodup hnodup hnodup').mpr fun rows =>
        (hmem rows).trans (hmem' rows).symm
    exact .answered answer answer' hrun hrun' ((hsaid.trans (hsame.map _)).trans hsaid'.symm)

theorem countPatterns_total (patterns : List ResolvedPattern) (w : Workspace) :
    ∃ counts, (patterns.mapM fun p => Action.countPattern p.boundIds) w = .ok counts w := by
  induction patterns with
  | nil =>
      rw [List.mapM_nil]
      exact ⟨[], rfl⟩
  | cons p rest ih =>
      obtain ⟨counts, hcounts⟩ := ih
      have hcount : Action.countPattern p.boundIds w =
          .ok (w.view.statements.filter fun r => r.live && r.hasIds p.boundIds).length w := rfl
      rw [List.mapM_cons, bind_of_ok hcount, bind_of_ok hcounts]
      exact ⟨_, rfl⟩

theorem reorderPatterns_total (q : ResolvedQuery) (w : Workspace) :
    ∃ q' w', Action.reorderPatterns q w = .ok q' w' ∧
      (∀ e w₁, (q.patterns.mapM fun p => Action.countPattern p.boundIds) w =
        .error e w₁ → q' = q) := by
  unfold Action.reorderPatterns
  split
  · exact ⟨q, w, rfl, fun _ _ _ => rfl⟩
  · obtain ⟨counts, hcount⟩ := countPatterns_total q.patterns w
    have hcounts : Action.attempt (q.patterns.mapM fun p => Action.countPattern p.boundIds) w =
        .ok (.ok counts) w := by
      rw [Action.attempt, hcount]
    exact ⟨_, w, bind_of_ok hcounts, by simp [hcount]⟩

/-- A query without a limit whose patterns have indices of their own is answered alike with its
patterns in any order. The order by their counts is one, whatever the counts, and the order
that they were given in stays where counting fails; so the query that is run in the end is
answered like the given one. -/
theorem answerAlike_in_any_order (hlimit : q.limit = none)
    (hindex : (q.patterns.map ResolvedPattern.index).Nodup) (ht : t.Keyed) :
    (∀ patterns : List ResolvedPattern, patterns.Perm q.patterns →
      q.compile.AnswerAlike t ({ q with patterns } : ResolvedQuery).compile) ∧
    (∀ counts : List Nat, counts.length = q.patterns.length →
      ∃ patterns, patterns.Perm q.patterns ∧ q.reordered (.ok counts) = { q with patterns }) ∧
    (∀ e, q.reordered (.error e) = q) ∧
    ∀ w, ∃ q' w', Action.reorderPatterns q w = .ok q' w' ∧
      (∃ patterns, patterns.Perm q.patterns ∧ q' = { q with patterns }) ∧
      (∀ e w₁, (q.patterns.mapM fun p => Action.countPattern p.boundIds) w =
        .error e w₁ → q' = q) ∧
      q.compile.AnswerAlike t q'.compile := by
  refine ⟨fun patterns hperm => answerAlike_of_perm hperm hindex hlimit ht, ?_, fun _ => rfl, ?_⟩
  · intro counts hcounts
    refine q.reordered_eq fun counted hcounted => ?_
    rw [← Except.ok.inj hcounted, hcounts]
  · intro w
    obtain ⟨q', w', h, hfailed⟩ := q.reorderPatterns_total w
    obtain ⟨patterns, hperm, rfl⟩ := Action.reorderPatterns_eq h
    exact ⟨_, w', h, ⟨patterns, hperm, rfl⟩, hfailed, answerAlike_of_perm hperm hindex hlimit ht⟩

/-- Two patterns that a variable joins, the second one with the fewest statements. -/
def chainResolved : ResolvedQuery where
  patterns := [⟨0, .var "x", .id 2, .var "y", none⟩, ⟨1, .var "y", .id 2, .id 3, none⟩]
  justifications := true

theorem answerAlike_chain_reversed :
    chainResolved.limit = none ∧ (chainResolved.patterns.map ResolvedPattern.index).Nodup ∧
      chainTables.Keyed ∧
      chainResolved.compile.AnswerAlike chainTables
        ({ chainResolved with patterns := chainResolved.patterns.reverse } :
          ResolvedQuery).compile := by
  have hindex : (chainResolved.patterns.map ResolvedPattern.index).Nodup := by decide
  have hkeyed : chainTables.Keyed := ⟨by decide, by decide⟩
  refine ⟨rfl, hindex, hkeyed, ?_⟩
  exact (answerAlike_in_any_order rfl hindex hkeyed).1 _ (List.reverse_perm _)

/-- The variable of the second column moves to the first; the statements stay in
the order of the query. -/
example :
    (chainResolved.select.run chainTables).toOption = some [[.int 1, .int 2, .int 1, .int 2]] ∧
      (({ chainResolved with patterns := chainResolved.patterns.reverse } :
        ResolvedQuery).select.run chainTables).toOption =
          some [[.int 2, .int 1, .int 1, .int 2]] := by
  cbv

end ResolvedQuery
end QuadStore
