import Mathlib.Data.List.Forall2
import QuadStore.Proofs.CallerOrder
import QuadStore.Proofs.CompiledTables
import QuadStore.Proofs.PatternAnswers

namespace QuadStore

/-- The columns on the two sides of an equation. -/
def Condition.columns (c : Condition) : List Column :=
  c.left :: match c.right with
    | .column right => [right]
    | .param _ => []

/-- The names of the columns of a table. -/
def columnsOf (table : String) : List String :=
  if table = "nodes" then
    ["id", "ntype", "svalue", "ivalue", "dvalue", "tvalue", "tzoffset", "bvalue", "ltype", "lang"]
  else if table = "triples" then
    ["id", "subject", "predicate", "object", "context", "creator", "inferred", "deleted"]
  else []

namespace SelectQuery

variable {q : SelectQuery}

/-- All columns that a statement reads: in its results, in its equations and in its order. -/
def columns (q : SelectQuery) : List Column :=
  q.projections.map Projection.column ++ q.equations.flatMap Condition.columns ++
    q.orderBy.map OrderTerm.column

/-- Whether a column belongs to one of the rows that a statement takes. -/
def Declares (q : SelectQuery) (c : Column) : Prop :=
  ∃ table, (table, c.table) ∈ q.tables ∧ c.name ∈ columnsOf table

/-- Whether the rows have names of their own, all columns belong to them, and a joined row is tied
to the row it is joined to and to no other. -/
structure WellScoped (q : SelectQuery) : Prop where
  labels : (q.tables.map Prod.snd).Nodup
  declared : ∀ c ∈ q.columns, q.Declares c
  joined : ∀ s ∈ q.sources, ∀ j ∈ s.joins, ∀ e ∈ j.on, ∀ c ∈ e.columns,
    c.table = j.label ∨ c.table = s.label

end SelectQuery

theorem idxOf_lt_of_filter {α : Type} [BEq α] [LawfulBEq α] {p : α → Bool} {a b : α} (ha : p a)
    (hb : p b) {xs : List α} (h : (xs.filter p).idxOf a < (xs.filter p).idxOf b) :
    xs.idxOf a < xs.idxOf b := by
  induction xs with
  | nil => simp at h
  | cons x xs ih =>
      by_cases hx : p x
      · rw [List.filter_cons_of_pos hx] at h
        have hxb : x ≠ b := by
          rintro rfl
          rw [List.idxOf_cons_self] at h
          exact Nat.not_lt_zero _ h
        rw [List.idxOf_cons_ne _ hxb] at h ⊢
        by_cases hxa : x = a
        · rw [hxa, List.idxOf_cons_self]
          exact Nat.succ_pos _
        · rw [List.idxOf_cons_ne _ hxa] at h ⊢
          exact Nat.succ_lt_succ (ih (Nat.lt_of_succ_lt_succ h))
      · rw [List.filter_cons_of_neg hx] at h
        have hxa : x ≠ a := fun heq => hx (heq ▸ ha)
        have hxb : x ≠ b := fun heq => hx (heq ▸ hb)
        rw [List.idxOf_cons_ne _ hxa, List.idxOf_cons_ne _ hxb]
        exact Nat.succ_lt_succ (ih h)

theorem pairwise_idxOf_eraseDups (names : List String) :
    names.eraseDups.Pairwise fun a b => names.idxOf a < names.idxOf b := by
  induction h : names.length using Nat.strongRecOn generalizing names with
  | ind n ih =>
      cases names with
      | nil => exact .nil
      | cons name rest =>
          have hlt : (rest.filter fun b => !b == name).length < n := by
            have hle := List.length_filter_le (fun b => !b == name) rest
            rw [List.length_cons] at h
            omega
          have ne_of_mem : ∀ b ∈ (rest.filter fun b => !b == name).eraseDups, name ≠ b := by
            intro b hb heq
            simp [List.mem_eraseDups, heq] at hb
          rw [List.eraseDups_cons, List.pairwise_cons]
          constructor
          · intro b hb
            rw [List.idxOf_cons_self, List.idxOf_cons_ne _ (ne_of_mem b hb)]
            exact Nat.succ_pos _
          · refine (ih _ hlt _ rfl).imp_of_mem ?_
            intro a b ha hb hab
            rw [List.idxOf_cons_ne _ (ne_of_mem a ha), List.idxOf_cons_ne _ (ne_of_mem b hb)]
            refine Nat.succ_lt_succ (idxOf_lt_of_filter ?_ ?_ hab)
            · simpa using (ne_of_mem a ha).symm
            · simpa using (ne_of_mem b hb).symm

namespace ResolvedQuery

variable {q : ResolvedQuery}

/-- The variables in the slots of the patterns, one for each time that they occur. -/
def slotNames (q : ResolvedQuery) : List String :=
  q.patterns.flatMap fun p => p.slots.filterMap fun
    | (_, .var name) => some name
    | (_, .id _) => none

theorem map_fst_numbered (q : ResolvedQuery) :
    q.numbered.map Prod.fst = List.range q.patterns.length := by
  simp [numbered, Function.comp_def, List.range_eq_range']

theorem map_snd_numbered (q : ResolvedQuery) : q.numbered.map Prod.snd = q.patterns := by
  rw [numbered, List.map_map]
  exact List.zipIdx_map_fst 0 q.patterns

theorem map_name_occurrences (q : ResolvedQuery) :
    q.occurrences.map Occurrence.name = q.slotNames := by
  rw [slotNames, ← map_snd_numbered, List.flatMap_map, occurrences, List.map_flatMap]
  refine List.flatMap_congr fun e _ => ?_
  rw [List.map_filterMap]
  refine List.filterMap_congr fun entry _ => ?_
  obtain ⟨slot, term⟩ := entry
  cases term <;> rfl

theorem declares_node {o : Occurrence} (ho : o ∈ q.occurrences) {name : String}
    (hname : name ∈ columnsOf "nodes") : q.select.Declares ⟨o.nodeLabel q, name⟩ :=
  ⟨"nodes", mem_tables_iff.mpr (.inr ⟨o, ho, rfl⟩), hname⟩

theorem declares_pattern {i : Nat} (hi : i < q.patterns.length) {name : String}
    (hname : name ∈ columnsOf "triples") : q.select.Declares ⟨patternLabel i, name⟩ :=
  ⟨"triples", mem_tables_iff.mpr (.inl ⟨i, _, List.getElem?_eq_getElem hi, rfl⟩), hname⟩

theorem declares_column {o : Occurrence} (ho : o ∈ q.occurrences) :
    q.select.Declares o.column := by
  obtain ⟨p, hp, -⟩ := mem_occurrences_iff.mp ho
  obtain ⟨hi, -⟩ := List.getElem?_eq_some_iff.mp hp
  refine declares_pattern hi ?_
  cases o.slot <;> decide

theorem declares_slotConditions {i : Nat} (hi : i < q.patterns.length) {entry : Slot × SlotTerm}
    {e : Condition} (he : e ∈ q.slotConditions i entry) {c : Column} (hc : c ∈ e.columns) :
    q.select.Declares c := by
  obtain ⟨slot, term⟩ := entry
  have hslot : q.select.Declares ⟨patternLabel i, slot.column⟩ :=
    declares_pattern hi (by cases slot <;> decide)
  cases term with
  | id id =>
      rw [List.mem_singleton.mp he] at hc
      rw [List.mem_singleton.mp hc]
      exact hslot
  | var name =>
      simp only [slotConditions] at he
      split at he
      · rename_i first hfirst
        split at he
        · cases he
        · rw [List.mem_singleton.mp he] at hc
          rcases List.mem_cons.mp hc with rfl | hc
          · exact hslot
          · rw [List.mem_singleton.mp hc]
            exact declares_column (firstOccurrence?_eq_some hfirst).1
      · cases he

theorem declares_equations {e : Condition} (he : e ∈ q.select.equations) {c : Column}
    (hc : c ∈ e.columns) : q.select.Declares c := by
  have value_declared : ∀ {entries : List (String × Int)}, e ∈ q.valueConditions entries →
      q.select.Declares c := by
    intro entries he
    obtain ⟨entry, -, o, ho, rfl⟩ := mem_valueConditions_iff.mp he
    rw [List.mem_singleton.mp hc]
    exact declares_column (firstOccurrence?_eq_some ho).1
  rcases mem_equations_iff.mp he with ⟨o, ho, rfl⟩ | ⟨i, p, hp, he⟩ | he | he | he
  · rcases List.mem_cons.mp hc with rfl | hc
    · exact declares_node ho (by decide)
    · rw [List.mem_singleton.mp hc]
      exact declares_column ho
  · obtain ⟨hi, -⟩ := List.getElem?_eq_some_iff.mp hp
    rcases List.mem_append.mp he with he | he
    · obtain ⟨entry, -, he⟩ := List.mem_flatMap.mp he
      exact declares_slotConditions hi he hc
    · rw [List.mem_singleton.mp he] at hc
      rw [List.mem_singleton.mp hc]
      exact declares_pattern hi (by decide)
  · exact value_declared he
  · obtain ⟨entry, -, o, o', ho, ho', rfl⟩ := mem_termConditions_iff.mp he
    rcases List.mem_cons.mp hc with rfl | hc
    · exact declares_column (firstOccurrence?_eq_some ho).1
    · rw [List.mem_singleton.mp hc]
      exact declares_column (firstOccurrence?_eq_some ho').1
  · exact value_declared he

theorem declares_projections {p : Projection} (hp : p ∈ q.select.projections) :
    q.select.Declares p.column := by
  rcases List.mem_append.mp hp with hp | hp
  · obtain ⟨entry, -, hp⟩ := List.mem_filterMap.mp hp
    obtain ⟨o, ho, rfl⟩ := Option.map_eq_some_iff.mp hp
    exact declares_node (firstOccurrence?_eq_some ho).1 (by decide)
  · simp only [justificationProjections] at hp
    split at hp
    · obtain ⟨⟨i, j⟩, hi, rfl⟩ := List.mem_map.mp hp
      refine declares_pattern (lt_of_mem_callerOrder ?_) (by decide)
      exact List.mem_of_getElem? (List.mk_mem_zipIdx_iff_getElem?.mp hi)
    · cases hp

theorem declares_orderTerms {o : OrderTerm} (ho : o ∈ q.orderTerms) :
    q.select.Declares o.column := by
  obtain ⟨name, -, ho⟩ := List.mem_flatMap.mp ho
  split at ho
  · rename_i first hfirst
    obtain ⟨column, hcolumn, rfl⟩ := List.mem_map.mp ho
    refine declares_node (firstOccurrence?_eq_some hfirst).1 ?_
    revert hcolumn
    simp only [List.mem_cons, List.not_mem_nil, or_false]
    rintro (rfl | rfl | rfl) <;> decide
  · cases ho

theorem select_wellScoped (q : ResolvedQuery) : q.select.WellScoped where
  labels := nodup_labels q
  declared := by
    intro c hc
    simp only [SelectQuery.columns, List.mem_append, List.mem_map, List.mem_flatMap] at hc
    rcases hc with (⟨p, hp, rfl⟩ | ⟨e, he, hc⟩) | ⟨o, ho, rfl⟩
    · exact declares_projections hp
    · exact declares_equations he hc
    · exact declares_orderTerms ho
  joined := by
    intro s hs j hj e he c hc
    obtain ⟨⟨i, p⟩, -, rfl⟩ := List.mem_map.mp hs
    obtain ⟨slot, name, -, rfl⟩ := mem_joins_iff.mp hj
    rw [List.mem_singleton.mp he] at hc
    rcases List.mem_cons.mp hc with rfl | hc
    · exact .inl rfl
    · rw [List.mem_singleton.mp hc]
      exact .inr rfl

/-- Projections tell the ids of the node rows that the variables first occur with, then, if
wanted, the ids of the statements that the patterns take. -/
def ProjectionsTell (q : ResolvedQuery) (names : List String)
    (projections : List Projection) : Prop :=
  ∃ found asked, projections = found ++ asked ∧
    List.Forall₂ (fun entry p => ∃ o, q.firstOccurrence? entry.1 = some o ∧
      p = ⟨⟨o.nodeLabel q, "id"⟩, variableLabel entry.2⟩) names.zipIdx found ∧
    (asked.map Projection.column).Perm
      (if q.justifications then
        (List.range q.patterns.length).map fun i => ⟨patternLabel i, "id"⟩
      else [])

theorem forall₂_variableProjections {entries : List (String × Nat)}
    (h : ∀ e ∈ entries, e.1 ∈ q.varNames) :
    List.Forall₂ (fun entry p => ∃ o, q.firstOccurrence? entry.1 = some o ∧
        p = ⟨⟨o.nodeLabel q, "id"⟩, variableLabel entry.2⟩) entries
      (entries.filterMap fun (name, k) => (q.firstOccurrence? name).map fun first =>
        (⟨⟨first.nodeLabel q, "id"⟩, variableLabel k⟩ : Projection)) := by
  induction entries with
  | nil => exact .nil
  | cons e rest ih =>
      obtain ⟨o, ho⟩ := exists_firstOccurrence (h e (by simp))
      have hrest := ih fun e he => h e (by simp [he])
      simp only [List.filterMap_cons, ho, Option.map_some]
      exact .cons ⟨o, ho, rfl⟩ hrest

theorem column_justificationProjections (places : List Nat) :
    (places.zipIdx.map fun (pattern, j) =>
      (⟨⟨patternLabel pattern, "id"⟩, "J" ++ Text.natText (j + 1)⟩ : Projection)).map
        Projection.column = places.map fun i => ⟨patternLabel i, "id"⟩ := by
  conv_rhs => rw [← List.zipIdx_map_fst 0 places]
  simp only [List.map_map, Function.comp_def]

theorem projectionsTell_select (q : ResolvedQuery) :
    q.ProjectionsTell q.varNames q.select.projections := by
  refine ⟨q.variableProjections, q.justificationProjections, rfl, ?_, ?_⟩
  · refine forall₂_variableProjections fun e he => ?_
    exact List.mem_of_getElem? (List.mk_mem_zipIdx_iff_getElem?.mp he)
  · rw [justificationProjections]
    split
    · rw [column_justificationProjections]
      exact (perm_callerOrder q).map _
    · exact .nil

theorem filter_deleted_eq_nil {conditions : List Condition}
    (h : ∀ e ∈ conditions, ∃ label, ∃ slot : Slot, e.left = ⟨label, slot.column⟩) :
    conditions.filter (·.left.name = "deleted") = [] := by
  refine List.filter_eq_nil_iff.mpr fun e he => ?_
  obtain ⟨label, slot, hleft⟩ := h e he
  cases slot <;> simp [hleft, Slot.column]

theorem left_slotConditions {i : Nat} {entry : Slot × SlotTerm} {e : Condition}
    (he : e ∈ q.slotConditions i entry) : e.left = ⟨patternLabel i, entry.1.column⟩ := by
  obtain ⟨slot, term⟩ := entry
  cases term with
  | id id => rw [List.mem_singleton.mp he]
  | var name =>
      simp only [slotConditions] at he
      split at he
      · split at he
        · cases he
        · rw [List.mem_singleton.mp he, Occurrence.column]
      · cases he

theorem filter_deleted_patternConditions (q : ResolvedQuery) (i : Nat) (p : ResolvedPattern) :
    (q.patternConditions i p).filter (·.left.name = "deleted") =
      [⟨⟨patternLabel i, "deleted"⟩, .param 0⟩] := by
  rw [patternConditions, List.filter_append, filter_deleted_eq_nil]
  · rfl
  · intro e he
    obtain ⟨entry, -, he⟩ := List.mem_flatMap.mp he
    exact ⟨_, entry.1, left_slotConditions he⟩

/-- Only the patterns ask whether rows are deleted, each of its own row. -/
theorem filter_deleted_conditions (q : ResolvedQuery) :
    q.select.conditions.filter (·.left.name = "deleted") =
      (List.range q.patterns.length).map fun i => ⟨⟨patternLabel i, "deleted"⟩, .param 0⟩ := by
  have values_none : ∀ entries, (q.valueConditions entries).filter
      (·.left.name = "deleted") = [] := by
    refine fun entries => filter_deleted_eq_nil fun e he => ?_
    obtain ⟨entry, -, o, -, rfl⟩ := mem_valueConditions_iff.mp he
    exact ⟨_, o.slot, rfl⟩
  have terms_none : q.termConditions.filter (·.left.name = "deleted") = [] := by
    refine filter_deleted_eq_nil fun e he => ?_
    obtain ⟨entry, -, o, o', -, -, rfl⟩ := mem_termConditions_iff.mp he
    exact ⟨_, o.slot, rfl⟩
  rw [select]
  simp only [List.filter_append, List.filter_flatMap, values_none, terms_none,
    filter_deleted_patternConditions, List.append_nil]
  rw [← map_fst_numbered, List.map_map, List.map_eq_flatMap]
  rfl

/-- Whether a statement, with its variables, is one for a query: it is well scoped, takes a
statement for each pattern, which must not be deleted, has the variables in the order of their
first occurrence, and tells what is asked for. -/
structure StatedBy (q : ResolvedQuery) (c : CompiledQuery) : Prop where
  wellScoped : c.select.WellScoped
  patterns : c.select.sources.map (fun s => (s.table, s.label)) =
    (List.range q.patterns.length).map fun i => ("triples", patternLabel i)
  mem_names : ∀ name, name ∈ c.varNames ↔ name ∈ q.slotNames
  names_sorted : c.varNames.Pairwise fun a b => q.slotNames.idxOf a < q.slotNames.idxOf b
  projections : q.ProjectionsTell c.varNames c.select.projections
  live : c.select.conditions.filter (·.left.name = "deleted") =
    (List.range q.patterns.length).map fun i => ⟨⟨patternLabel i, "deleted"⟩, .param 0⟩

theorem statedBy_compile (q : ResolvedQuery) : q.StatedBy q.compile where
  wellScoped := select_wellScoped q
  patterns := by
    rw [← map_fst_numbered, List.map_map]
    simp only [compile, select, source, List.map_map, Function.comp_def]
  mem_names := by
    intro name
    rw [compile, varNames, map_name_occurrences, List.mem_eraseDups]
  names_sorted := by
    rw [compile, varNames, map_name_occurrences]
    exact pairwise_idxOf_eraseDups q.slotNames
  projections := projectionsTell_select q
  live := filter_deleted_conditions q

end ResolvedQuery
end QuadStore
