import QuadStore.Proofs.AgreeingReads
import QuadStore.Proofs.OrderedAnswers
import QuadStore.Proofs.Runs

namespace QuadStore

/-- The query with another limit. -/
def PatternQuery.limited (q : PatternQuery) (limit : Option Nat) : PatternQuery :=
  { q with limit }

def ResolvedQuery.limited (q : ResolvedQuery) (limit : Option Nat) : ResolvedQuery :=
  { q with limit }

/-- Whether an answer is a whole one cut off at a limit: a part of its rows, as many as the limit
allows, in their order, and with no row left out that is before one of them. -/
structure QueryResults.LimitedTo (part whole : QueryResults) (t : Tables) (orderBy : List String)
    (n : Nat) : Prop where
  varNames : part.varNames = whole.varNames
  extra : part.extra = whole.extra
  length : part.rows.length = min n whole.rows.length
  sorted : part.SortedBy t orderBy
  omitted : ∃ rest, whole.rows.Perm (part.rows ++ rest) ∧
    ∀ row ∈ part.rows, ∀ row' ∈ rest,
      keyLe (part.sortKey t orderBy row) (part.sortKey t orderBy row') = true

theorem QueryResults.SortedBy.limitedTo {r : QueryResults} {t : Tables} {orderBy : List String}
    (h : r.SortedBy t orderBy) (n : Nat) :
    ({ r with rows := r.rows.take n } : QueryResults).LimitedTo r t orderBy n where
  varNames := rfl
  extra := rfl
  length := List.length_take
  sorted := h.sublist (List.take_sublist n r.rows)
  omitted := by
    refine ⟨r.rows.drop n, .of_eq (List.take_append_drop n r.rows).symm, ?_⟩
    rw [SortedBy, ← List.take_append_drop n r.rows] at h
    exact (List.pairwise_append.mp h).2.2

theorem SelectQuery.lt_maxLimit_iff {n : Nat} : maxLimit < n ↔ 2 ^ 63 ≤ n := by
  have hpow : twoPow 63 = 2 ^ 63 := by decide
  rw [maxLimit, hpow]
  omega

theorem SelectQuery.check_eq (q : SelectQuery) :
    q.check = if maxTables < q.tableCount then .error .tooManyTables
      else if q.limit.any (maxLimit < ·) then .error .limitOutOfRange else .ok () := by
  unfold check
  split
  · rfl
  · split <;> rfl

theorem SelectQuery.run_limited {q : SelectQuery} {t : Tables} {rows : List (List Cell)}
    (hlimit : q.limit = none) (h : q.run t = .ok rows) (n : Nat) :
    ({ q with limit := some n } : SelectQuery).run t =
      if 2 ^ 63 ≤ n then .error .limitOutOfRange else .ok (rows.take n) := by
  have hcount : ({ q with limit := some n } : SelectQuery).tableCount = q.tableCount := rfl
  unfold run at h ⊢
  rw [check_eq] at h ⊢
  by_cases hmany : maxTables < q.tableCount
  · rw [if_pos hmany] at h
    cases h
  · rw [if_neg hmany, hlimit] at h
    obtain rfl := Except.ok.inj h
    rw [hcount, if_neg hmany]
    simp only [Option.any_some, decide_eq_true_eq, lt_maxLimit_iff]
    split <;> rfl

namespace Action

variable {q : PatternQuery} {reorder : Bool} {w w' : Workspace} {r : QueryResults}

theorem resolveQuery_limited (q : PatternQuery) (limit : Option Nat) :
    resolveQuery (q.limited limit) = Option.map (·.limited limit) <$> resolveQuery q := by
  unfold resolveQuery
  simp only [map_bind]
  refine bind_congr fun patterns => ?_
  cases patterns with
  | none => simp
  | some patterns =>
      simp only [map_bind]
      refine bind_congr fun bindings => ?_
      cases bindings with
      | none => simp
      | some bindings =>
          simp only [map_bind]
          refine bind_congr fun sameValues => ?_
          cases sameValues with
          | none => simp
          | some sameValues =>
              rw [map_pure]
              rfl

theorem reorderPatterns_limited (q : ResolvedQuery) (limit : Option Nat) :
    reorderPatterns (q.limited limit) = (·.limited limit) <$> reorderPatterns q := by
  unfold reorderPatterns
  by_cases hshort : q.patterns.length < 2
  · simp [ResolvedQuery.limited, hshort]
  · rw [if_neg hshort, if_neg (show ¬(q.limited limit).patterns.length < 2 from hshort)]
    simp only [map_bind, map_pure]
    refine bind_congr fun counts => ?_
    cases counts <;> rfl

theorem prepareQuery_limited (q : PatternQuery) (limit : Option Nat) (reorder : Bool) :
    prepareQuery (q.limited limit) reorder =
      Option.map (·.limited limit) <$> prepareQuery q reorder := by
  unfold prepareQuery
  rw [resolveQuery_limited]
  simp only [map_bind, bind_map_left]
  refine bind_congr fun _ => bind_congr fun resolved => ?_
  cases resolved with
  | none => simp
  | some q' =>
      cases reorder with
      | false => simp
      | true => simp [reorderPatterns_limited]

theorem prepareQuery_eq_limited {l : Option Nat} {resolved : Option ResolvedQuery}
    (h : prepareQuery (q.limited l) reorder w = .ok resolved w') (limit : Option Nat) :
    prepareQuery (q.limited limit) reorder w = .ok (resolved.map (·.limited limit)) w' := by
  show prepareQuery ((q.limited l).limited limit) reorder w = _
  rw [prepareQuery_limited, map_eq_pure_bind, bind_of_ok h]
  rfl

theorem evaluate_of_prepareQuery {q' : ResolvedQuery}
    (h : prepareQuery q reorder w = .ok (some q') w') :
    evaluate q reorder w = match q'.select.run w.view with
      | .ok answer =>
          .ok ⟨answer.map fun row => row.filterMap Cell.int?, q'.varNames, q'.extraBindings⟩ w'
      | .error fault => .error (.data fault) w' := by
  have hview : w'.view = w.view := ((prepareQuery_reads q reorder).ok h).view_eq
  unfold evaluate
  rw [bind_of_ok h]
  dsimp only
  rw [bind_of_ok (get_eq_ok_iff.mpr ⟨rfl, rfl⟩), hview]
  show (ofData (q'.select.run w.view) >>= _) w' = _
  cases q'.select.run w.view <;> rfl

/-- A query that is answered without a limit is answered with a limit too, by the first rows as
many as the limit allows: `min n total` rows of the answer without a limit, in their order, none
of those left out being before one of them. A limit of 2^63 or more is refused instead, unless a
node of the query is not stored. -/
theorem limits_kept (hkeyed : w.view.Keyed)
    (h : evaluate (q.limited none) reorder w = .ok r w') (n : Nat) :
    (n < 2 ^ 63 ∨ ¬q.AllStored w.view →
      ∃ part, evaluate (q.limited (some n)) reorder w = .ok part w' ∧
      part.LimitedTo r w.view q.orderBy n) ∧
    (2 ^ 63 ≤ n → q.AllStored w.view →
      evaluate (q.limited (some n)) reorder w = .error (.data .limitOutOfRange) w') := by
  have hsorted : r.SortedBy w.view q.orderBy := evaluate_sorted (q := q.limited none) hkeyed h
  obtain ⟨resolved, w₁, hprepare, hrest⟩ := bind_eq_ok_iff.mp h
  have hlimited : prepareQuery (q.limited (some n)) reorder w =
      .ok (resolved.map (·.limited (some n))) w₁ := prepareQuery_eq_limited hprepare _
  obtain ⟨-, some_resolved, none_resolved⟩ := prepareQuery_eq hprepare
  cases resolved with
  | none =>
      obtain ⟨rfl, rfl⟩ := pure_eq_ok_iff.mp hrest
      refine ⟨fun _ => ⟨{}, (bind_of_ok hlimited).trans rfl, ?_⟩, fun _ hstored => ?_⟩
      · simpa using hsorted.limitedTo n
      · obtain ⟨hpatterns, hbindings, hvalues⟩ := hstored
        exact absurd ⟨hpatterns, hbindings, hvalues⟩ (none_resolved rfl)
  | some q' =>
      obtain ⟨given, hresolved⟩ := some_resolved q' rfl
      have hstored : q.AllStored w.view := by
        obtain ⟨hpatterns, hbindings, hvalues⟩ := hresolved.allStored
        exact ⟨hpatterns, hbindings, hvalues⟩
      rw [evaluate_of_prepareQuery hprepare] at h
      cases hrun : q'.select.run w.view with
      | error fault =>
          rw [hrun] at h
          cases h
      | ok answer =>
          rw [hrun] at h
          cases h
          have hpart : (q'.limited (some n)).select.run w.view = _ :=
            SelectQuery.run_limited hresolved.limit hrun n
          refine ⟨fun hn => ?_, fun hn _ => ?_⟩
          · have hsmall : ¬2 ^ 63 ≤ n := not_le.mpr (hn.resolve_right (not_not_intro hstored))
            rw [if_neg hsmall] at hpart
            refine ⟨_, ?_, hsorted.limitedTo n⟩
            rw [evaluate_of_prepareQuery hlimited, hpart, ← List.map_take]
            rfl
          · rw [if_pos hn] at hpart
            rw [evaluate_of_prepareQuery hlimited, hpart]

/-- Two statements with one predicate, in the order of their subjects. -/
def subjectsInOrder : PatternQuery where
  patterns := [⟨.var "x", .value ⟨-1, .uri "b"⟩, .var "y", none⟩]
  orderBy := ["x"]

/-- Of two rows, the first one in the order is answered with a limit of one. -/
theorem limits_kept_of_chain :
    ∃ r w' part, chainWorkspace.view.Keyed ∧
      evaluate (subjectsInOrder.limited none) false chainWorkspace = .ok r w' ∧
      r.rows = [[1, 2], [2, 3]] ∧
        evaluate (subjectsInOrder.limited (some 1)) false chainWorkspace = .ok part w' ∧
          part.LimitedTo r chainWorkspace.view ["x"] 1 := by
  have hkeyed : chainWorkspace.view.Keyed := ⟨by decide, by decide⟩
  have hrun : (evaluate (subjectsInOrder.limited none) false).run' chainWorkspace =
      some ⟨[[1, 2], [2, 3]], ["x", "y"], []⟩ := by cbv
  obtain ⟨w', hop⟩ := Workspace.answers_of_run' hrun
  obtain ⟨part, hpart, hlimited⟩ := (limits_kept hkeyed hop 1).1 (.inl (by decide))
  exact ⟨_, w', part, hkeyed, hop, rfl, hpart, hlimited⟩

end Action

namespace OpenStore

/-- A store in which a statement has been added. -/
def withStatement : OpenStore :=
  let a : Node := .uri "urn:a"
  (opened {} {} [] "w").begin.after 0 (.add a a (.uri "urn:b") none)

/-- The query of the objects of the statement. -/
def objectsOf : PatternQuery where
  patterns := [⟨.value (.uri "urn:a"), .value (.uri "urn:a"), .var "o", none⟩]

/-- A query with one row is refused when its limit is 2^63. -/
theorem limit_refused :
    ∃ x r w', withStatement.scope? 0 = some x ∧ objectsOf.validate = .ok () ∧
      Action.evaluate (objectsOf.limited none) false x.work = .ok r w' ∧
      r.rows = [[2]] ∧ 2 ^ 63 < 2 ^ 64 ∧
        Action.evaluate (objectsOf.limited (some (2 ^ 63))) false x.work =
          .error (.data .limitOutOfRange) w' := by
  let x := (withStatement.scope? 0).get (by decide +kernel)
  let resolved : ResolvedQuery := { patterns := [⟨0, .id 1, .id 1, .var "o", none⟩] }
  have hprepare : (Action.prepareQuery (objectsOf.limited none) false).run' x.work =
      some (some resolved) := by
    decide +kernel
  obtain ⟨w', hop⟩ := Workspace.answers_of_run' hprepare
  have hlimited := Action.prepareQuery_eq_limited hop (some (2 ^ 63))
  have hkeys : (resolved.select.choices x.work.view).map (fun choice =>
      (choice.orderKey resolved.select.orderBy, resolved.select.project choice)) =
        [([], [.int 2])] := by
    decide +kernel
  have hrun : resolved.select.run x.work.view = .ok [[.int 2]] := by
    rw [SelectQuery.run_eq_sorted (by decide +kernel) rfl, hkeys, List.mergeSort_singleton]
    rfl
  have hrefused : (resolved.limited (some (2 ^ 63))).select.run x.work.view =
      .error .limitOutOfRange :=
    SelectQuery.run_limited rfl hrun (2 ^ 63)
  refine ⟨x, ⟨[[2]], ["o"], []⟩, w', (Option.some_get _).symm, by decide, ?_, rfl, by decide, ?_⟩
  · rw [Action.evaluate_of_prepareQuery hop, hrun]
    rfl
  · rw [Option.map_some] at hlimited
    rw [Action.evaluate_of_prepareQuery hlimited, hrefused]

end OpenStore
end QuadStore
