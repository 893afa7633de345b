import QuadStore.Proofs.AgreeingReads
import QuadStore.Proofs.OrderedAnswers
import QuadStore.Proofs.RecordedTables
import QuadStore.Proofs.RoundedIntegers
import QuadStore.Proofs.Runs

namespace QuadStore

/-- Whether an id is that of a stored integer with the given value. -/
def Tables.HoldsInteger (t : Tables) (id i : Int) : Prop :=
  ∃ r ∈ t.nodes, ∃ datatype, r.Records ⟨id, .literal ⟨.int i, datatype⟩⟩

namespace Tables

variable {t : Tables} {id id' i j : Int}

theorem HoldsInteger.orderCells (h : t.HoldsInteger id i) (ht : t.Keyed) : ∃ x,
    x.orderKey = (Binary64.ofInt i).orderKey ∧
      t.orderCells id = [(true, .real x), (true, .null), (true, .text (Text.intText i))] := by
  obtain ⟨r, hr, datatype, hrow⟩ := h
  have hid : r.id = id := hrow.id
  obtain ⟨x, hx⟩ : ∃ x, (Binary64.ofInt i).stored = some x := by
    rw [Binary64.stored, if_neg (by simp [Binary64.isNaN_ofInt])]
    split <;> exact ⟨_, rfl⟩
  have hdouble : r.double = some x := by
    rw [hrow.row, ← hx]
    rfl
  have htime : r.time = none := by
    rw [hrow.row]
    rfl
  have hlexical : r.lexical = Text.intText i := (hrow.literal rfl).2.1
  refine ⟨x, Binary64.orderKey_of_stored hx, ?_⟩
  rw [Tables.orderCells, ← hid, ht.nodeCells_eq hr]
  simp [NodeRow.cells, hdouble, htime, hlexical, Cell.ofReal?, Cell.ofText?]

theorem keyLe_numbers_iff {x y : Binary64} {a b : String} :
    keyLe [(true, .real x), (true, .null), (true, .text a)] [(true, .real y),
      (true, .null), (true, .text b)] =
      true ↔ x.orderKey < y.orderKey ∨ x.orderKey = y.orderKey ∧ a ≤ b := by
  have hnil : keyLe [] [] = true := rfl
  rw [keyLe_cons, keyLe_cons, keyLe_cons]
  simp [Cell.place, Cell.rank, Cell.number, Prod.Lex.toLex_lt_toLex, hnil, le_iff_lt_or_eq]

theorem HoldsInteger.le_or (h : t.HoldsInteger id i) (h' : t.HoldsInteger id' j) (ht : t.Keyed)
    (hle : keyLe (t.orderCells id) (t.orderCells id') = true) :
    i ≤ j ∨ (2 ^ 53 ≤ i.natAbs ∧ 2 ^ 53 ≤ j.natAbs) ∧ Binary64.ofInt i = Binary64.ofInt j ∧
      Text.intText i ≤ Text.intText j := by
  obtain ⟨x, hx, hcells⟩ := h.orderCells ht
  obtain ⟨y, hy, hcells'⟩ := h'.orderCells ht
  rw [hcells, hcells', keyLe_numbers_iff, hx, hy] at hle
  rcases lt_or_ge j i with hlt | hge
  · have hmono := Binary64.orderKey_ofInt_mono hlt.le
    rcases hle with hkey | ⟨heq, htext⟩
    · omega
    · refine .inr ⟨?_, Binary64.ofInt_eq_of_orderKey_eq heq, htext⟩
      -- An integer of at most 53 digits is not rounded, so the greater one is a greater number.
      by_contra hsmall
      have hkey := Binary64.orderKey_ofInt_lt (by omega) hlt
      omega
  · exact .inl hge

end Tables

theorem ResolvedQuery.exists_ordered_solutions {q : ResolvedQuery} {t : Tables}
    (ht : t.Keyed) {name : String}
    (horder : q.orderBy = [name]) (hname : name ∈ q.varNames) {answer : List (List Cell)}
    (h : q.select.run t = .ok answer) :
    ∃ solutions : List ((String → Int) × List StatementRow),
      answer = solutions.map (fun s => (q.answerRow s.1 s.2).map Cell.int) ∧
        solutions.Pairwise fun s s' =>
          keyLe (t.orderCells (s.1 name)) (t.orderCells (s'.1 name)) = true := by
  obtain ⟨solutions, hanswer, hsorted⟩ := exists_sorted_solutions ht h
  have hkey : ∀ values : String → Int, q.sortKey t values = t.orderCells (values name) := by
    intro values
    rw [sortKey, horder, List.flatMap_singleton, if_pos hname]
  exact ⟨solutions, hanswer, by simpa only [hkey] using hsorted⟩

namespace Action

variable {q : PatternQuery} {reorder : Bool} {w w' : Workspace} {r : QueryResults}

/-- The rows of a query that are ordered by one variable come in the order of the integers that
are the values of the variable, whichever rows have such values. Only integers of more than 53
binary digits that are the same floating point number come in the order of their texts instead. -/
theorem integers_in_order {name : String} (horder : q.orderBy = [name]) (hkeyed : w.view.Keyed)
    (h : evaluate q reorder w = .ok r w') :
    r.rows.Pairwise fun row row' => ∀ id id' i j : Int, r.value? row name = some id →
      r.value? row' name = some id' → w.view.HoldsInteger id i → w.view.HoldsInteger id' j →
        i ≤ j ∨ (2 ^ 53 ≤ i.natAbs ∧ 2 ^ 53 ≤ j.natAbs) ∧ Binary64.ofInt i = Binary64.ofInt j ∧
          Text.intText i ≤ Text.intText j := by
  rcases evaluate_eq_ok h with hrows | ⟨q', answer, horder', hrun, hnames, hrows⟩
  · rw [hrows]
    exact .nil
  · by_cases hname : name ∈ q'.varNames
    · obtain ⟨solutions, rfl, hsorted⟩ :=
        q'.exists_ordered_solutions hkeyed (horder'.trans horder) hname hrun
      have hints : ∀ row : List Int, (row.map Cell.int).filterMap Cell.int? = row := by
        intro row
        rw [List.filterMap_map]
        exact List.filterMap_some
      have hvalue : ∀ s : (String → Int) × List StatementRow,
          r.value? (q'.answerRow s.1 s.2) name = some (s.1 name) := by
        intro s
        rw [QueryResults.value?, hnames, ResolvedQuery.answerRow,
          ResolvedQuery.lookup_zip_map, if_pos hname]
      rw [hrows, List.map_map, List.pairwise_map]
      refine hsorted.imp fun {s s'} hle id id' i j hid hid' hi hj => ?_
      simp only [Function.comp_apply, hints, hvalue, Option.some.injEq] at hid hid'
      subst hid hid'
      exact hi.le_or hj hkeyed hle
    · refine List.pairwise_of_forall fun row row' id id' i j hid => absurd ?_ hname
      exact hnames ▸ QueryResults.mem_varNames_of_value? hid

theorem evaluate_of_two {q' : ResolvedQuery}
    (hprepare : (prepareQuery q reorder).run' w = some (some q'))
    (hcheck : q'.select.check = .ok ()) (hlimit : q'.limit = none)
    {first second : List (Bool × Cell)}
    {id id' : Int} (hkeys : (q'.select.choices w.view).map (fun choice =>
      (choice.orderKey q'.select.orderBy, q'.select.project choice)) =
        [(first, [.int id]), (second, [.int id'])])
    (hle : keyLe first second = false) :
    ∃ r w', evaluate q reorder w = .ok r w' ∧ r.varNames = q'.varNames ∧
    r.rows = [[id'], [id]] := by
  obtain ⟨w₁, hop⟩ := Workspace.answers_of_run' hprepare
  have hrun := SelectQuery.run_eq_sorted hcheck hlimit w.view
  have hsorted : [(first, [Cell.int id]), (second, [Cell.int id'])].mergeSort
      (fun a b => keyLe a.1 b.1) =
      [(second, [.int id']), (first, [.int id])] := by
    simp [List.mergeSort, hle]
  rw [hkeys, hsorted, ← ((prepareQuery_reads q reorder).ok hop).view_eq] at hrun
  exact ⟨_, w₁, (bind_of_ok hop).trans (bind_of_ok (ofData_eq_ok_iff.mpr ⟨hrun, rfl⟩)), rfl, rfl⟩

end Action

namespace OpenStore

/-- The objects of a subject, in their order. -/
def objectsInOrder : PatternQuery where
  patterns := [⟨.value (.uri "urn:a"), .value (.uri "urn:a"), .var "n", none⟩]
  orderBy := ["n"]

/-- A store in which two integers are created and made objects of a subject. -/
def withIntegers (i j : Int) : OpenStore :=
  let a : Node := .uri "urn:a"
  (opened {} {} [] "w").begin.after 0 (.literal (.int i)) |>.after 0 (.literal (.int j))
    |>.after 0 (.add a a (.literal (.int i) none) none)
      |>.after 0 (.add a a (.literal (.int j) none) none)

/-- The query of the objects when the subject is the fourth node. -/
def resolvedObjects : ResolvedQuery where
  patterns := [⟨0, .id 4, .id 4, .var "n", none⟩]
  orderBy := ["n"]

/-- Nine comes before ten, although its text comes after that of ten. -/
theorem nine_before_ten :
    ∃ x r w', (withIntegers 10 9).scope? 0 = some x ∧
    objectsInOrder.orderBy = ["n"] ∧ x.work.view.Keyed ∧
      Action.evaluate objectsInOrder false x.work = .ok r w' ∧ r.rows = [[3], [2]] ∧
        r.rows.Pairwise fun row row' => ∀ id id' i j : Int, r.value? row "n" = some id →
          r.value? row' "n" = some id' → x.work.view.HoldsInteger id i →
          x.work.view.HoldsInteger id' j →
            i ≤ j ∨ (2 ^ 53 ≤ i.natAbs ∧ 2 ^ 53 ≤ j.natAbs) ∧
            Binary64.ofInt i = Binary64.ofInt j ∧
              Text.intText i ≤ Text.intText j := by
  let x := ((withIntegers 10 9).scope? 0).get (by decide +kernel)
  have hkeyed : x.work.view.Keyed := ⟨by decide +kernel, by decide +kernel⟩
  have hprepare : (Action.prepareQuery objectsInOrder false).run' x.work =
      some (some resolvedObjects) := by
    decide +kernel
  have hkeys : (resolvedObjects.select.choices x.work.view).map (fun choice =>
      (choice.orderKey resolvedObjects.select.orderBy, resolvedObjects.select.project choice)) =
        [([(true, .real (.ofInt 10)), (true, .null), (true, .text "10")], [.int 2]),
          ([(true, .real (.ofInt 9)), (true, .null), (true, .text "9")], [.int 3])] := by
    decide +kernel
  obtain ⟨r, w', hop, -, hrows⟩ :=
    Action.evaluate_of_two hprepare (by decide +kernel) rfl hkeys (by decide +kernel)
  exact ⟨x, r, w', (Option.some_get _).symm, rfl, hkeyed, hop, hrows,
    Action.integers_in_order rfl hkeyed hop⟩

/-- Of two integers that are the same floating point number, the greater one comes
first since its text does. -/
theorem greater_integer_first :
    ∃ x r w', (withIntegers 9999999999999999 10000000000000000).scope? 0 = some x ∧
      Action.evaluate objectsInOrder false x.work = .ok r w' ∧
        (∀ row ∈ r.rows, ∃ id i, r.value? row "n" = some id ∧ x.work.view.HoldsInteger id i) ∧
        ¬r.rows.Pairwise fun row row' => ∀ id id' i j : Int, r.value? row "n" = some id →
          r.value? row' "n" = some id' → x.work.view.HoldsInteger id i →
          x.work.view.HoldsInteger id' j →
            i ≤ j := by
  let x := ((withIntegers 9999999999999999 10000000000000000).scope? 0).get (by decide +kernel)
  have hprepare : (Action.prepareQuery objectsInOrder false).run' x.work =
      some (some resolvedObjects) := by
    decide +kernel
  have hkeys : (resolvedObjects.select.choices x.work.view).map (fun choice =>
      (choice.orderKey resolvedObjects.select.orderBy, resolvedObjects.select.project choice)) =
        [([(true, .real (.ofInt 9999999999999999)), (true, .null),
          (true, .text "9999999999999999")], [.int 2]),
          ([(true, .real (.ofInt 10000000000000000)), (true, .null),
            (true, .text "10000000000000000")], [.int 3])] := by
    decide +kernel
  obtain ⟨r, w', hop, hnames, hrows⟩ :=
    Action.evaluate_of_two hprepare (by decide +kernel) rfl hkeys (by decide +kernel)
  have hvalue : ∀ id, r.value? [id] "n" = some id := by
    intro id
    rw [QueryResults.value?, hnames]
    rfl
  have holds : ∀ id i, NodeRow.ofNode id ⟨id,
      .literal ⟨.int i, some ⟨1, Vocabulary.xsdInteger⟩⟩⟩ ∈
      x.work.view.nodes → x.work.view.HoldsInteger id i :=
    fun id i hrow => ⟨_, hrow, _, NodeRow.records_ofNode id _⟩
  have hless : x.work.view.HoldsInteger 2 9999999999999999 := holds _ _ (by decide +kernel)
  have hgreater : x.work.view.HoldsInteger 3 10000000000000000 := holds _ _ (by decide +kernel)
  refine ⟨x, r, w', (Option.some_get _).symm, hop, ?_, ?_⟩
  · rw [hrows]
    simp only [List.forall_mem_cons, List.not_mem_nil, false_implies, implies_true, and_true]
    exact ⟨⟨3, _, hvalue 3, hgreater⟩, 2, _, hvalue 2, hless⟩
  · intro hsorted
    rw [hrows] at hsorted
    have hle := List.rel_of_pairwise_cons hsorted (List.mem_singleton.mpr rfl)
      3 2 _ _ (hvalue 3) (hvalue 2) hgreater hless
    omega

end OpenStore
end QuadStore
