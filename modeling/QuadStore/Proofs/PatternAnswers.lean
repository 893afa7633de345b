import QuadStore.Proofs.CompiledAnswers
import QuadStore.Proofs.QueryResolution

namespace QuadStore

namespace Action

variable {w w' : Workspace}

theorem ids_of_materialize (hkeyed : w.store.caches.Keyed) {r : QueryResults} {row : List Int}
    {b : BindingSet}
    (hrows : ∀ id ∈ row.drop r.varNames.length, ∃ s ∈ w.view.statements, s.id = id)
    (h : materialize r row w = .ok b w') :
    ∃ bound, b.bindings = bound ++ r.extra ∧
      bound.map (fun e => (e.1, e.2.id)) = r.varNames.zip row ∧
        b.justifications.map Statement.id = row.drop r.varNames.length := by
  obtain ⟨bound, w₁, hbound, h⟩ := bind_eq_ok_iff.mp h
  obtain ⟨found, w₂, hfound, h⟩ := bind_eq_ok_iff.mp h
  obtain ⟨rfl, -⟩ := pure_eq_ok_iff.mp h
  have reads_bound := (Keeps.mapM fun e _ => resolveBinding_reads e).ok hbound
  refine ⟨bound, rfl, ?_, ?_⟩
  · have hsame := Keeps.mapM_eq_ok resolveBinding_reads hbound
    rw [← List.forall₂_eq_eq_eq, List.forall₂_map_left_iff]
    refine hsame.flip.imp ?_
    rintro e entry ⟨s₁, s₂, hreads, he⟩
    obtain ⟨n, s₃, hn, he⟩ := bind_eq_ok_iff.mp he
    cases n with
    | none => cases he
    | some n =>
        obtain ⟨rfl, -⟩ := pure_eq_ok_iff.mp he
        rw [id_of_resolveNode (hreads.keyed hkeyed) hn]
  · have hsame := Keeps.mapM_eq_ok loadStatement_reads hfound
    have ids_eq : ∀ {ids : List Int} {found : List (Option Statement)},
        List.Forall₂ (fun id t => ∃ s₁ s₂, Reads w₁ s₁ ∧
          loadStatement id s₁ = .ok t s₂) ids found →
        (∀ id ∈ ids, ∃ s ∈ w.view.statements, s.id = id) →
        (found.filterMap fun t => t).map Statement.id = ids := by
      intro ids found hsame hids
      induction hsame with
      | nil => rfl
      | cons hfound _ ih =>
          obtain ⟨s₁, s₂, hreads, ht⟩ := hfound
          have hreads' := IsTrans.trans _ _ _ reads_bound hreads
          obtain ⟨t, rfl, rfl⟩ := id_of_loadStatement (hreads'.keyed hkeyed)
            (hreads'.view_eq ▸ hids _ (by simp)) ht
          simpa using ih fun id hid => hids id (by simp [hid])
    exact ids_eq hsame hrows

end Action

namespace PatternQuery

/-- What a solution is answered with: the values of the variables, and the ids of the rows
if they are asked for. -/
def answerRow (q : PatternQuery) (varNames : List String)
    (solution : (String → Int) × List StatementRow) : List Int :=
  varNames.map solution.1 ++ if q.justifications then solution.2.map StatementRow.id else []

/-- Whether an answer has the variables of the patterns, the values given to other variables, and
one row for each way to take a row for every pattern that solves the query. -/
structure AnsweredBy (q : PatternQuery) (t : Tables) (r : QueryResults) : Prop where
  nodup_varNames : r.varNames.Nodup
  mem_varNames : ∀ name, name ∈ r.varNames ↔ name ∈ q.varNames
  extra : r.extra.Perm (q.bindings.filter fun e => !q.varNames.contains e.1)
  rows : ∃ solutions : List ((String → Int) × List StatementRow),
    (solutions.map Prod.snd).Nodup ∧ (∀ s ∈ solutions, q.Solves t s.1 s.2) ∧
      (∀ values rows, q.Solves t values rows → rows ∈ solutions.map Prod.snd) ∧
        r.rows.Perm (solutions.map (q.answerRow r.varNames))

end PatternQuery

namespace ResolvedQuery

theorem nodup_eraseDups {α : Type} [BEq α] [LawfulBEq α] (names : List α) :
    names.eraseDups.Nodup := by
  induction h : names.length using Nat.strongRecOn generalizing names with
  | ind n ih =>
      cases names with
      | nil => exact List.nodup_nil
      | cons name rest =>
          rw [List.eraseDups_cons, List.nodup_cons]
          refine ⟨by simp [List.mem_eraseDups], ih _ ?_ _ rfl⟩
          have hle := List.length_filter_le (fun b => !b == name) rest
          simp only [List.length_cons] at h
          omega

theorem rows_of_run {q : ResolvedQuery} {t : Tables} {rows : List (List Cell)}
    (hlimit : q.limit = none) (h : q.select.run t = .ok rows) :
    rows.Perm ((q.select.choices t).map q.select.project) := by
  unfold SelectQuery.run at h
  cases hcheck : q.select.check with
  | error fault =>
      rw [hcheck] at h
      cases h
  | ok u =>
      rw [hcheck] at h
      have hlimit' : q.select.limit = none := hlimit
      simp only [hlimit'] at h
      cases h
      exact (List.mergeSort_perm _ _).map _

end ResolvedQuery

namespace PatternQuery

variable {q : PatternQuery} {given : List ResolvedPattern} {q' : ResolvedQuery} {t : Tables}

theorem stored_of_resolvesTo {term : PatternTerm} {term' : SlotTerm} (h : term.ResolvesTo t term')
    {n : Node} (hn : term = .value n) : t.storedId? n ≠ none := by
  subst hn
  cases term' with
  | id id =>
      have hid : t.storedId? n = some id := h
      simp [hid]
  | var name => exact h.elim

theorem ResolvesTo.allStored (h : q.ResolvesTo t given q') : q.AllStored t := by
  refine ⟨?_, ?_, ?_⟩
  · intro p hp n hn
    obtain ⟨p', -, hresolved⟩ := exists_mem_of_forall₂ h.patterns hp
    simp only [Pattern.terms, List.mem_append, List.mem_cons, List.not_mem_nil, or_false,
      Option.mem_toList] at hn
    rcases hn with (hn | hn | hn) | hn
    · exact stored_of_resolvesTo hresolved.subject hn.symm
    · exact stored_of_resolvesTo hresolved.predicate hn.symm
    · exact stored_of_resolvesTo hresolved.object hn.symm
    · have hcontext := hresolved.context
      rw [hn] at hcontext
      cases hterm : p'.context with
      | none =>
          rw [hterm] at hcontext
          cases hcontext
      | some term' =>
          rw [hterm] at hcontext
          cases hcontext with
          | some hresolved => exact stored_of_resolvesTo hresolved rfl
  · intro name n hn hname
    obtain ⟨named, hperm, hnamed⟩ := h.bindings
    have hmem : (name, n) ∈ named := hperm.mem_iff.mpr (by simpa using ⟨hn, hname⟩)
    obtain ⟨e', -, -, hid⟩ := exists_mem_of_forall₂ hnamed hmem
    simp [hid]
  · intro name n hn
    obtain ⟨e', -, -, hid⟩ := exists_mem_of_forall₂ h.sameValues (mem_valueEntries_iff.mpr hn)
    simp [hid]

theorem ResolvesTo.answered (h : q.ResolvesTo t given q') (hclosed : q.Closed) (ht : t.Keyed)
    (href : t.Referenced) (hlimit : q.limit = none) {rows : List (List Cell)}
    (hrun : q'.select.run t = .ok rows) :
    q.AnsweredBy t ⟨rows.map fun row => row.filterMap Cell.int?,
      q'.varNames, q'.extraBindings⟩ := by
  obtain ⟨solutions, hnodup, hsolve, hall, hproject⟩ := ResolvedQuery.exists_given_solutions q' ht
  have hrows := ResolvedQuery.rows_of_run (h.limit.trans hlimit) hrun
  refine ⟨ResolvedQuery.nodup_eraseDups _, fun name => h.mem_varNames_iff,
    h.extraBindings, solutions,
    hnodup, fun s hs => (h.solves_given_iff hclosed).mp (hsolve s hs).1, ?_, ?_⟩
  · intro values rows hrows
    have hq := (h.solves_given_iff hclosed).mpr hrows
    exact hall values rows hq (hq.grounded href)
  · rw [hproject] at hrows
    refine (hrows.map _).trans (.of_eq ?_)
    rw [List.map_map]
    refine List.map_congr_left fun s _ => ?_
    have int_cells : ∀ ids : List Int, (ids.map Cell.int).filterMap Cell.int? = ids := by
      intro ids
      rw [List.filterMap_map]
      exact List.filterMap_some
    simp only [Function.comp_apply, int_cells, ResolvedQuery.givenRow, answerRow,
      h.justifications]

theorem AnsweredBy.statement_of_mem {r : QueryResults} (h : q.AnsweredBy t r) {row : List Int}
    (hrow : row ∈ r.rows) :
    ∀ id ∈ row.drop r.varNames.length, ∃ s ∈ t.statements, s.id = id := by
  obtain ⟨solutions, -, hsolve, -, hrows⟩ := h.rows
  obtain ⟨s, hs, rfl⟩ := List.mem_map.mp (hrows.subset hrow)
  intro id hid
  rw [answerRow, List.drop_left' (by simp)] at hid
  split at hid
  · obtain ⟨statement, hstatement, rfl⟩ := List.mem_map.mp hid
    obtain ⟨p, -, hmem, -⟩ := exists_mem_of_forall₂ (hsolve s hs).rows.flip hstatement
    exact ⟨statement, hmem, rfl⟩
  · cases hid

end PatternQuery

open QuadStore.Action in
/-- A pattern query without a limit is answered by its solutions, each once, and a row that is
fetched binds the variables of the patterns and those with other values, and comes with its
statements. When a node of the query is not stored there is no row. -/
theorem evaluate_answers {q : PatternQuery} {reorder : Bool} {w w' : Workspace} {r : QueryResults}
    (hkeyed : w.view.Keyed) (href : w.view.Referenced) (hlimit : q.limit = none)
    (h : evaluate q reorder w = .ok r w') :
    (q.AllStored w.view → q.AnsweredBy w.view r) ∧ (¬q.AllStored w.view → r.rows = []) ∧
      ∀ row ∈ r.rows, ∀ w₁ w₂ b, w₁.store.caches.Keyed →
        (∀ s ∈ w.view.statements, ∃ s₁ ∈ w₁.view.statements, s₁.id = s.id) →
        materialize r row w₁ = .ok b w₂ →
        ∃ bound, b.bindings = bound ++ r.extra ∧
          bound.map (fun e => (e.1, e.2.id)) = r.varNames.zip row ∧
            b.justifications.map Statement.id = row.drop r.varNames.length := by
  obtain ⟨resolved, w₁, hprepare, h⟩ := bind_eq_ok_iff.mp h
  obtain ⟨hvalid, some_resolved, none_resolved⟩ := prepareQuery_eq hprepare
  cases resolved with
  | none =>
      obtain ⟨rfl, -⟩ := pure_eq_ok_iff.mp h
      exact ⟨fun hstored => absurd hstored (none_resolved rfl), fun _ => rfl, by simp⟩
  | some q' =>
      obtain ⟨given, hresolved⟩ := some_resolved q' rfl
      obtain ⟨_, w₂, hget, h⟩ := bind_eq_ok_iff.mp h
      obtain ⟨rfl, rfl⟩ := get_eq_ok_iff.mp hget
      obtain ⟨rows, w₃, hrun, h⟩ := bind_eq_ok_iff.mp h
      obtain ⟨hrows, -⟩ := ofData_eq_ok_iff.mp hrun
      obtain ⟨rfl, -⟩ := pure_eq_ok_iff.mp h
      have hview : w₁.view = w.view := ((prepareQuery_reads q reorder).ok hprepare).view_eq
      rw [hview] at hrows
      have hanswered := hresolved.answered (PatternQuery.closed_of_validate hvalid) hkeyed href
        hlimit hrows
      refine ⟨fun _ => hanswered, fun hmissing => absurd hresolved.allStored hmissing, ?_⟩
      intro row hrow w₄ w₅ b hcaches hkept hb
      refine ids_of_materialize hcaches (fun id hid => ?_) hb
      obtain ⟨s, hs, rfl⟩ := hanswered.statement_of_mem hrow id hid
      exact hkept s hs

/-- Three nodes and a chain of two statements, with the second node as
predicate and as context. -/
def chainTables : Tables where
  nodes := [
    ⟨1, "uri", "a", none, none, none, none, none, none, none, .clock⟩,
    ⟨2, "uri", "b", none, none, none, none, none, none, none, .clock⟩,
    ⟨3, "uri", "c", none, none, none, none, none, none, none, .clock⟩]
  statements := [
    ⟨1, 1, 2, 2, 2, none, 0, 0, .clock, none⟩, ⟨2, 2, 2, 3, 2, none, 0, 0, .clock, none⟩]

def chainWorkspace : Workspace where
  database := ⟨chainTables, false⟩
  registryFile := []
  store := .make {} chainTables ""
  conn := { transaction := 1 }

/-- Pairs of statements of which the second one starts where the first one ends. -/
def chainQuery : PatternQuery where
  patterns := [
    ⟨.var "x", .value ⟨-1, .uri "b"⟩, .var "y", none⟩,
    ⟨.var "y", .value ⟨-1, .uri "b"⟩, .var "z", none⟩]
  justifications := true

theorem chainQuery_answers :
    ∃ r w', Action.evaluate chainQuery false chainWorkspace = .ok r w' ∧
      r.rows = [[1, 2, 3, 1, 2]] ∧ chainQuery.AnsweredBy chainTables r := by
  have hkeyed : chainWorkspace.view.Keyed := ⟨by decide, by decide⟩
  have href : chainWorkspace.view.Referenced := by
    intro r hr _ slot
    have hslots : ∀ r ∈ chainTables.statements,
        r.subject ∈ [1, 2, 3] ∧ r.predicate ∈ [1, 2, 3] ∧ r.object ∈ [1, 2, 3] ∧
          r.context ∈ [1, 2, 3] := by decide
    obtain ⟨hs, hp, ho, hc⟩ := hslots r hr
    have hid : r.slotId slot ∈ chainTables.nodes.map NodeRow.id := by
      cases slot
      · exact hs
      · exact hp
      · exact ho
      · exact hc
    exact List.mem_map.mp hid
  have hrun : ((Action.evaluate chainQuery false).run' chainWorkspace).map QueryResults.rows =
      some [[1, 2, 3, 1, 2]] := by cbv
  rw [EStateM.run', EStateM.run] at hrun
  cases h : Action.evaluate chainQuery false chainWorkspace with
  | error e w' =>
      rw [h] at hrun
      cases hrun
  | ok r w' =>
      rw [h] at hrun
      have hrows : r.rows = [[1, 2, 3, 1, 2]] := Option.some.inj hrun
      obtain ⟨hstored, hmissing, -⟩ := evaluate_answers hkeyed href rfl h
      refine ⟨r, w', rfl, hrows, hstored ?_⟩
      by_contra hnot
      rw [hmissing hnot] at hrows
      cases hrows

end QuadStore
