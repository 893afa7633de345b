import QuadStore.Proofs.CompiledTables
import QuadStore.Table.StatementRow

/-!
What a compiled statement answers. A solution of a query takes a live row for each pattern and a
value for each variable; the choices of the compiled statement are the solutions, each once.
-/

namespace QuadStore

namespace StatementRow

/-- The id in a slot of a row. -/
def slotId (r : StatementRow) : Slot → Int
  | .subject => r.subject
  | .predicate => r.predicate
  | .object => r.object
  | .context => r.context

theorem cells_column (r : StatementRow) (slot : Slot) :
    r.cells slot.column = .int (r.slotId slot) := by
  cases slot <;> rfl

end StatementRow

namespace Tables

/-- Whether no two nodes and no two statements have the same id, as the
keys of the tables demand. -/
structure Keyed (t : Tables) : Prop where
  nodes : (t.nodes.map NodeRow.id).Nodup
  statements : (t.statements.map StatementRow.id).Nodup

/-- Whether the slots of every live row hold ids of rows of nodes. -/
def Referenced (t : Tables) : Prop :=
  ∀ r ∈ t.statements, r.live = true → ∀ slot, ∃ n ∈ t.nodes, n.id = r.slotId slot

/-- The columns of the node with the given id. -/
def nodeCells (t : Tables) (id : Int) : Row :=
  ((t.nodeById? id).map NodeRow.cells).getD fun _ => .null

variable {t : Tables}

theorem Keyed.nodeById?_eq (h : t.Keyed) {n : NodeRow} (hn : n ∈ t.nodes) :
    t.nodeById? n.id = some n := by
  cases hfind : t.nodeById? n.id with
  | none =>
      have hnone := List.find?_eq_none.mp hfind n hn
      simp at hnone
  | some n' =>
      have hmem : n' ∈ t.nodes := List.mem_of_find?_eq_some hfind
      have hid : n'.id = n.id := by simpa using List.find?_some hfind
      rw [List.inj_on_of_nodup_map h.nodes hmem hn hid]

theorem Keyed.nodeCells_eq (h : t.Keyed) {n : NodeRow} (hn : n ∈ t.nodes) :
    t.nodeCells n.id = n.cells := by
  simp [nodeCells, h.nodeById?_eq hn]

theorem Keyed.nodup_rows (h : t.Keyed) (table : String) : (t.rows table).Nodup := by
  have cells_nodup : ∀ {α : Type} (xs : List α) (id : α → Int) (cells : α → Row),
      (∀ x, cells x "id" = .int (id x)) → (xs.map id).Nodup → (xs.map cells).Nodup := by
    intro α xs id cells hcells hid
    refine List.Nodup.of_map (fun row : Row => row "id") ?_
    rw [List.map_map]
    have hcomp : (fun row : Row => row "id") ∘ cells = Cell.int ∘ id := funext hcells
    rw [hcomp, ← List.map_map]
    refine hid.map ?_
    intro i j hij
    exact Cell.int.inj hij
  unfold rows
  split
  · exact cells_nodup _ NodeRow.id _ (fun _ => rfl) h.nodes
  · split
    · exact cells_nodup _ StatementRow.id _ (fun _ => rfl) h.statements
    · exact List.nodup_nil

end Tables

/-- Whether a term allows an id, when the variables have the given values. -/
def SlotTerm.Allows (values : String → Int) : SlotTerm → Int → Prop
  | .id wanted, x => x = wanted
  | .var name, x => x = values name

/-- Whether a row matches a pattern, when the variables have the given values. -/
structure ResolvedPattern.Fits (values : String → Int) (p : ResolvedPattern) (r : StatementRow) :
    Prop where
  live : r.live = true
  slots : ∀ e ∈ p.slots, e.2.Allows values (r.slotId e.1)

/-- Whether the values of the variables and a row for each pattern, in the order of the
patterns, solve a query. -/
structure ResolvedQuery.Solves (q : ResolvedQuery) (t : Tables) (values : String → Int)
    (rows : List StatementRow) : Prop where
  rows : List.Forall₂ (fun p r => r ∈ t.statements ∧ p.Fits values r) q.patterns rows
  bindings : ∀ e ∈ q.bindings, e.1 ∈ q.varNames → values e.1 = e.2
  sameTerms : ∀ e ∈ q.sameTerms, e.1 ∈ q.varNames → e.2 ∈ q.varNames → values e.1 = values e.2
  sameValues : ∀ e ∈ q.sameValues, e.1 ∈ q.varNames → values e.1 = e.2

/-- Whether the value of each variable is the id of a row of nodes. -/
def ResolvedQuery.Grounded (q : ResolvedQuery) (t : Tables) (values : String → Int) : Prop :=
  ∀ name ∈ q.varNames, ∃ n ∈ t.nodes, n.id = values name

/-- Whether a choice of a compiled statement takes the given rows for the patterns and for the
variables the rows of their nodes. -/
structure ResolvedQuery.Shows (q : ResolvedQuery) (t : Tables) (rows : List StatementRow)
    (choice : Choice) : Prop where
  labels : choice.map Prod.fst = q.select.tables.map Prod.snd
  length : rows.length = q.patterns.length
  patterns : ∀ i r, rows[i]? = some r → choice.lookup (patternLabel i) = some r.cells
  nodes : ∀ o ∈ q.occurrences, ∀ r, rows[o.pattern]? = some r →
    choice.lookup (o.nodeLabel q) = some (t.nodeCells (r.slotId o.slot))

namespace ResolvedQuery

variable {q : ResolvedQuery} {t : Tables} {rows : List StatementRow} {choice : Choice}

namespace Shows

theorem exists_row (h : q.Shows t rows choice) {o : Occurrence} (ho : o ∈ q.occurrences) :
    ∃ r, rows[o.pattern]? = some r := by
  obtain ⟨p, hp, -⟩ := mem_occurrences_iff.mp ho
  obtain ⟨hlt, -⟩ := List.getElem?_eq_some_iff.mp hp
  exact ⟨_, List.getElem?_eq_getElem (h.length ▸ hlt)⟩

theorem cell?_slot (h : q.Shows t rows choice) {i : Nat} {r : StatementRow}
    (hr : rows[i]? = some r) (slot : Slot) :
    choice.cell? ⟨patternLabel i, slot.column⟩ = some (.int (r.slotId slot)) := by
  simp [Choice.cell?, h.patterns i r hr, r.cells_column slot]

theorem cell?_column (h : q.Shows t rows choice) {o : Occurrence} {r : StatementRow}
    (hr : rows[o.pattern]? = some r) :
    choice.cell? o.column = some (.int (r.slotId o.slot)) :=
  h.cell?_slot hr o.slot

theorem truth?_param (h : q.Shows t rows choice) {i : Nat} {r : StatementRow}
    (hr : rows[i]? = some r) (slot : Slot) (id : Int) :
    choice.truth? ⟨⟨patternLabel i, slot.column⟩, .param id⟩ = some true ↔
      r.slotId slot = id := by
  simp [Choice.truth?, h.cell?_slot hr slot, Cell.equals]

theorem truth?_column (h : q.Shows t rows choice) {o o' : Occurrence} {r r' : StatementRow}
    (hr : rows[o.pattern]? = some r) (hr' : rows[o'.pattern]? = some r') :
    choice.truth? ⟨o.column, .column o'.column⟩ = some true ↔
      r.slotId o.slot = r'.slotId o'.slot := by
  simp [Choice.truth?, h.cell?_column hr, h.cell?_column hr', Cell.equals]

theorem truth?_deleted (h : q.Shows t rows choice) {i : Nat} {r : StatementRow}
    (hr : rows[i]? = some r) :
    choice.truth? ⟨⟨patternLabel i, "deleted"⟩, .param 0⟩ = some true ↔ r.live = true := by
  have hcell : r.cells "deleted" = .int r.deleted := rfl
  simp [Choice.truth?, Choice.cell?, h.patterns i r hr, hcell, Cell.equals, StatementRow.live]

theorem rows_unique (ht : t.Keyed) {rows' : List StatementRow} (h : q.Shows t rows choice)
    (h' : q.Shows t rows' choice) (hrows : ∀ r ∈ rows, r ∈ t.statements)
    (hrows' : ∀ r ∈ rows', r ∈ t.statements) : rows = rows' := by
  apply List.ext_getElem (h.length.trans h'.length.symm)
  intro i hi hi'
  have hcells := (h.patterns i _ (List.getElem?_eq_getElem hi)).symm.trans
    (h'.patterns i _ (List.getElem?_eq_getElem hi'))
  have hid : Cell.int rows[i].id = Cell.int rows'[i].id :=
    congrFun (Option.some.inj hcells) "id"
  exact List.inj_on_of_nodup_map ht.statements (hrows _ (List.getElem_mem hi))
    (hrows' _ (List.getElem_mem hi')) (Cell.int.inj hid)

theorem choice_unique {choice' : Choice} (h : q.Shows t rows choice)
    (h' : q.Shows t rows choice') : choice = choice' := by
  refine Choice.eq_of_lookup_eq (h.labels.trans h'.labels.symm) (h.labels ▸ nodup_labels q) ?_
  intro label hlabel
  rw [h.labels, List.mem_map] at hlabel
  obtain ⟨source, hsource, rfl⟩ := hlabel
  rcases mem_tables_iff.mp hsource with ⟨i, p, hp, rfl⟩ | ⟨o, ho, rfl⟩
  · obtain ⟨hlt, -⟩ := List.getElem?_eq_some_iff.mp hp
    have hr := List.getElem?_eq_getElem (h.length ▸ hlt)
    rw [h.patterns i _ hr, h'.patterns i _ hr]
  · obtain ⟨r, hr⟩ := h.exists_row ho
    rw [h.nodes o ho r hr, h'.nodes o ho r hr]

end Shows

/-- The value that given rows have for a variable: that of its first occurrence. -/
def valueIn (q : ResolvedQuery) (rows : List StatementRow) (name : String) : Int :=
  match q.firstOccurrence? name with
  | some o => (rows[o.pattern]?.map fun r => r.slotId o.slot).getD 0
  | none => 0

theorem valueIn_eq {name : String} {o : Occurrence} {r : StatementRow}
    (ho : q.firstOccurrence? name = some o) (hr : rows[o.pattern]? = some r) :
    q.valueIn rows name = r.slotId o.slot := by
  simp [valueIn, ho, hr]

theorem Solves.length {values : String → Int} (h : q.Solves t values rows) :
    rows.length = q.patterns.length :=
  h.rows.length_eq.symm

theorem Solves.fits {values : String → Int} (h : q.Solves t values rows) {i : Nat}
    {p : ResolvedPattern} {r : StatementRow} (hp : q.patterns[i]? = some p)
    (hr : rows[i]? = some r) : r ∈ t.statements ∧ p.Fits values r := by
  obtain ⟨hi, rfl⟩ := List.getElem?_eq_some_iff.mp hp
  obtain ⟨hi', rfl⟩ := List.getElem?_eq_some_iff.mp hr
  exact List.forall₂_iff_get.mp h.rows |>.2 i hi hi'

theorem Solves.value_eq {values : String → Int} (h : q.Solves t values rows) {o : Occurrence}
    {r : StatementRow} (ho : o ∈ q.occurrences) (hr : rows[o.pattern]? = some r) :
    r.slotId o.slot = values o.name := by
  obtain ⟨p, hp, hslot⟩ := mem_occurrences_iff.mp ho
  exact (h.fits hp hr).2.slots _ hslot

theorem Solves.mem_rows {values : String → Int} (h : q.Solves t values rows) :
    ∀ r ∈ rows, r ∈ t.statements ∧ r.live = true := by
  intro r hr
  obtain ⟨i, hi⟩ := List.getElem?_of_mem hr
  obtain ⟨hlt, -⟩ := List.getElem?_eq_some_iff.mp hi
  obtain ⟨hmem, hfits⟩ := h.fits (List.getElem?_eq_getElem (h.length ▸ hlt)) hi
  exact ⟨hmem, hfits.live⟩

theorem Solves.exists_row {values : String → Int} (h : q.Solves t values rows) {o : Occurrence}
    (ho : o ∈ q.occurrences) : ∃ r, rows[o.pattern]? = some r := by
  obtain ⟨p, hp, -⟩ := mem_occurrences_iff.mp ho
  obtain ⟨hlt, -⟩ := List.getElem?_eq_some_iff.mp hp
  exact ⟨_, List.getElem?_eq_getElem (h.length ▸ hlt)⟩

theorem Solves.grounded {values : String → Int}
    (h : q.Solves t values rows) (href : t.Referenced) :
    q.Grounded t values := by
  intro name hname
  obtain ⟨o, ho, rfl⟩ := mem_varNames_iff.mp hname
  obtain ⟨r, hr⟩ := h.exists_row ho
  obtain ⟨hmem, hlive⟩ := h.mem_rows r (List.mem_of_getElem? hr)
  obtain ⟨n, hn, hid⟩ := href r hmem hlive o.slot
  exact ⟨n, hn, hid.trans (h.value_eq ho hr)⟩

theorem Shows.cell?_node {values : String → Int} (h : q.Shows t rows choice) (ht : t.Keyed)
    (hq : q.Solves t values rows) (hground : q.Grounded t values)
    {o : Occurrence} {r : StatementRow}
    (ho : o ∈ q.occurrences) (hr : rows[o.pattern]? = some r) :
    choice.cell? ⟨o.nodeLabel q, "id"⟩ = some (.int (r.slotId o.slot)) := by
  obtain ⟨n, hn, hid⟩ := hground o.name (mem_varNames_iff.mpr ⟨o, ho, rfl⟩)
  rw [← hq.value_eq ho hr] at hid
  have hcell : t.nodeCells (r.slotId o.slot) "id" = .int (r.slotId o.slot) := by
    rw [← hid, ht.nodeCells_eq hn]
    rfl
  simp [Choice.cell?, h.nodes o ho r hr, hcell]

theorem exists_first {i : Nat} {p : ResolvedPattern} {slot : Slot} {name : String}
    (hp : q.patterns[i]? = some p) (hslot : (slot, .var name) ∈ p.slots) :
    ∃ first, q.firstOccurrence? name = some first := by
  have here : ⟨i, slot, name⟩ ∈ q.occurrences := mem_occurrences_iff.mpr ⟨p, hp, hslot⟩
  exact exists_firstOccurrence (mem_varNames_iff.mpr ⟨_, here, rfl⟩)

section Solving

variable {values : String → Int}

theorem Shows.first_value (h : q.Shows t rows choice) (hq : q.Solves t values rows)
    {name : String} {o : Occurrence} (ho : q.firstOccurrence? name = some o) :
    ∃ r, rows[o.pattern]? = some r ∧ r.slotId o.slot = values name := by
  obtain ⟨hmem, rfl⟩ := firstOccurrence?_eq_some ho
  obtain ⟨r, hr⟩ := h.exists_row hmem
  exact ⟨r, hr, hq.value_eq hmem hr⟩

theorem Shows.holds_values (h : q.Shows t rows choice) (hq : q.Solves t values rows)
    {entries : List (String × Int)}
    (hentries : ∀ e ∈ entries, e.1 ∈ q.varNames → values e.1 = e.2) :
    ∀ c ∈ q.valueConditions entries, choice.truth? c = some true := by
  intro c hc
  obtain ⟨e, he, o, ho, rfl⟩ := mem_valueConditions_iff.mp hc
  obtain ⟨r, hr, hvalue⟩ := h.first_value hq ho
  refine (h.truth?_param hr o.slot e.2).mpr (hvalue.trans (hentries e he ?_))
  exact firstOccurrence?_isSome_iff.mp ⟨o, ho⟩

theorem Shows.holds_slot (h : q.Shows t rows choice) (hq : q.Solves t values rows) {i : Nat}
    {p : ResolvedPattern} {r : StatementRow} (hp : q.patterns[i]? = some p)
    (hr : rows[i]? = some r) {entry : Slot × SlotTerm} (hslot : entry ∈ p.slots) :
    ∀ c ∈ q.slotConditions i entry, choice.truth? c = some true := by
  intro c hc
  obtain ⟨slot, term⟩ := entry
  cases term with
  | id id =>
      rw [slotConditions, List.mem_singleton] at hc
      subst hc
      exact (h.truth?_param hr slot id).mpr ((hq.fits hp hr).2.slots _ hslot)
  | var name =>
      rw [slotConditions] at hc
      have here : ⟨i, slot, name⟩ ∈ q.occurrences := mem_occurrences_iff.mpr ⟨p, hp, hslot⟩
      obtain ⟨first, hfirst⟩ := exists_first hp hslot
      obtain ⟨r', hr', hvalue⟩ := h.first_value hq hfirst
      simp only [hfirst] at hc
      split at hc
      · cases hc
      · rw [List.mem_singleton] at hc
        subst hc
        refine (h.truth?_column (o := ⟨i, slot, name⟩) hr hr').mpr ?_
        exact (hq.value_eq here hr).trans hvalue.symm

theorem Shows.holds_of_solves (h : q.Shows t rows choice) (ht : t.Keyed)
    (hq : q.Solves t values rows) (hground : q.Grounded t values) :
    ∀ c ∈ q.select.equations, choice.truth? c = some true := by
  intro c hc
  rcases mem_equations_iff.mp hc with ⟨o, ho, rfl⟩ | ⟨i, p, hp, hc⟩ | hc | hc | hc
  · obtain ⟨r, hr⟩ := h.exists_row ho
    simp [Choice.truth?, h.cell?_node ht hq hground ho hr, h.cell?_column hr, Cell.equals]
  · obtain ⟨hi, -⟩ := List.getElem?_eq_some_iff.mp hp
    have hr := List.getElem?_eq_getElem (h.length ▸ hi)
    rw [patternConditions, List.mem_append, List.mem_flatMap, List.mem_singleton] at hc
    rcases hc with ⟨entry, hslot, hc⟩ | rfl
    · exact h.holds_slot hq hp hr hslot c hc
    · exact (h.truth?_deleted hr).mpr (hq.fits hp hr).2.live
  · exact h.holds_values hq hq.bindings c hc
  · obtain ⟨e, he, o, o', ho, ho', rfl⟩ := mem_termConditions_iff.mp hc
    obtain ⟨r, hr, hvalue⟩ := h.first_value hq ho
    obtain ⟨r', hr', hvalue'⟩ := h.first_value hq ho'
    refine (h.truth?_column hr hr').mpr ?_
    rw [hvalue, hvalue']
    exact hq.sameTerms e he (firstOccurrence?_isSome_iff.mp ⟨o, ho⟩)
      (firstOccurrence?_isSome_iff.mp ⟨o', ho'⟩)
  · exact h.holds_values hq hq.sameValues c hc

end Solving

theorem Shows.solves_values (h : q.Shows t rows choice) {entries : List (String × Int)}
    (hholds : ∀ c ∈ q.valueConditions entries, choice.truth? c = some true) :
    ∀ e ∈ entries, e.1 ∈ q.varNames → q.valueIn rows e.1 = e.2 := by
  intro e he hname
  obtain ⟨o, ho⟩ := exists_firstOccurrence hname
  obtain ⟨r, hr⟩ := h.exists_row (firstOccurrence?_eq_some ho).1
  rw [valueIn_eq ho hr]
  refine (h.truth?_param hr o.slot e.2).mp (hholds _ ?_)
  exact mem_valueConditions_iff.mpr ⟨e, he, o, ho, rfl⟩

theorem Shows.allows_slot (h : q.Shows t rows choice) {i : Nat} {p : ResolvedPattern}
    {r : StatementRow} (hp : q.patterns[i]? = some p) (hr : rows[i]? = some r)
    {entry : Slot × SlotTerm} (hslot : entry ∈ p.slots)
    (hholds : ∀ c ∈ q.slotConditions i entry, choice.truth? c = some true) :
    entry.2.Allows (q.valueIn rows) (r.slotId entry.1) := by
  obtain ⟨slot, term⟩ := entry
  cases term with
  | id id => exact (h.truth?_param hr slot id).mp (hholds _ (by simp [slotConditions]))
  | var name =>
      obtain ⟨first, hfirst⟩ := exists_first hp hslot
      obtain ⟨r', hr'⟩ := h.exists_row (firstOccurrence?_eq_some hfirst).1
      change r.slotId slot = q.valueIn rows name
      rw [valueIn_eq hfirst hr']
      by_cases hsame : first = ⟨i, slot, name⟩
      · subst hsame
        rw [hr] at hr'
        rw [Option.some.inj hr']
      · refine (h.truth?_column (o := ⟨i, slot, name⟩) hr hr').mp (hholds _ ?_)
        simp [slotConditions, hfirst, hsame]

theorem Shows.fits_of_holds (h : q.Shows t rows choice) {i : Nat} {p : ResolvedPattern}
    {r : StatementRow} (hp : q.patterns[i]? = some p) (hr : rows[i]? = some r)
    (hholds : ∀ c ∈ q.patternConditions i p, choice.truth? c = some true) :
    p.Fits (q.valueIn rows) r := by
  refine ⟨?_, fun entry hslot => h.allows_slot hp hr hslot fun c hc => hholds c ?_⟩
  · exact (h.truth?_deleted hr).mp (hholds _ (by simp [patternConditions]))
  · exact List.mem_append_left _ (List.mem_flatMap.mpr ⟨_, hslot, hc⟩)

theorem Shows.solves_of_holds (h : q.Shows t rows choice) (hrows : ∀ r ∈ rows, r ∈ t.statements)
    (hholds : ∀ c ∈ q.select.equations, choice.truth? c = some true) :
    q.Solves t (q.valueIn rows) rows := by
  refine ⟨?_, ?_, ?_, ?_⟩
  · refine List.forall₂_iff_get.mpr ⟨h.length.symm, fun i hi hi' => ?_⟩
    have hp : q.patterns[i]? = some q.patterns[i] := List.getElem?_eq_getElem hi
    have hr : rows[i]? = some rows[i] := List.getElem?_eq_getElem hi'
    refine ⟨hrows _ (List.getElem_mem hi'), h.fits_of_holds hp hr fun c hc => hholds c ?_⟩
    exact mem_equations_iff.mpr (.inr (.inl ⟨i, _, hp, hc⟩))
  · refine h.solves_values fun c hc => hholds c ?_
    exact mem_equations_iff.mpr (.inr (.inr (.inl hc)))
  · intro e he hname hname'
    obtain ⟨o, ho⟩ := exists_firstOccurrence hname
    obtain ⟨o', ho'⟩ := exists_firstOccurrence hname'
    obtain ⟨r, hr⟩ := h.exists_row (firstOccurrence?_eq_some ho).1
    obtain ⟨r', hr'⟩ := h.exists_row (firstOccurrence?_eq_some ho').1
    rw [valueIn_eq ho hr, valueIn_eq ho' hr']
    refine (h.truth?_column hr hr').mp (hholds _ ?_)
    refine mem_equations_iff.mpr (.inr (.inr (.inr (.inl ?_))))
    exact mem_termConditions_iff.mpr ⟨e, he, o, o', ho, ho', rfl⟩
  · refine h.solves_values fun c hc => hholds c ?_
    exact mem_equations_iff.mpr (.inr (.inr (.inr (.inr hc))))

theorem Shows.grounded_of_holds (h : q.Shows t rows choice)
    (hholds : ∀ c ∈ q.select.equations, choice.truth? c = some true) :
    q.Grounded t (q.valueIn rows) := by
  intro name hname
  obtain ⟨o, hfirst⟩ := exists_firstOccurrence hname
  have ho := (firstOccurrence?_eq_some hfirst).1
  obtain ⟨r, hr⟩ := h.exists_row ho
  rw [valueIn_eq hfirst hr]
  have hjoin := hholds _ (mem_equations_iff.mpr (.inl ⟨o, ho, rfl⟩))
  have hcell : choice.cell? ⟨o.nodeLabel q, "id"⟩ =
      some (t.nodeCells (r.slotId o.slot) "id") := by
    rw [Choice.cell?, h.nodes o ho r hr]
    rfl
  simp only [Choice.truth?, hcell, h.cell?_column hr, Option.map_some] at hjoin
  cases hfind : t.nodeById? (r.slotId o.slot) with
  | none => simp [Tables.nodeCells, hfind, Cell.equals] at hjoin
  | some n =>
      refine ⟨n, List.mem_of_find?_eq_some hfind, ?_⟩
      simpa using List.find?_some hfind

/-- What a table of the statement contributes to a choice that shows the given rows. -/
structure Sourced (q : ResolvedQuery) (t : Tables) (rows : List StatementRow)
    (source : String × String) (row : Row) : Prop where
  pattern : ∀ i r, source.2 = patternLabel i → rows[i]? = some r → row = r.cells
  node : ∀ o ∈ q.occurrences, ∀ r, source.2 = o.nodeLabel q → rows[o.pattern]? = some r →
    row = t.nodeCells (r.slotId o.slot)

theorem sourced_pattern {i : Nat} {r : StatementRow} (hr : rows[i]? = some r) (table : String) :
    q.Sourced t rows (table, patternLabel i) r.cells := by
  refine ⟨fun i' r' hlabel hr' => ?_, fun o _ r' hlabel _ => ?_⟩
  · rw [← patternLabel_injective hlabel, hr] at hr'
    rw [Option.some.inj hr']
  · exact absurd hlabel.symm (Occurrence.nodeLabel_ne_patternLabel q o i)

theorem sourced_node (ht : t.Keyed) {o : Occurrence} {r : StatementRow} {n : NodeRow}
    (hr : rows[o.pattern]? = some r) (hn : n ∈ t.nodes) (hid : n.id = r.slotId o.slot)
    (table : String) : q.Sourced t rows (table, o.nodeLabel q) n.cells := by
  refine ⟨fun i _ hlabel _ => ?_, fun o' _ r' hlabel hr' => ?_⟩
  · exact absurd hlabel (Occurrence.nodeLabel_ne_patternLabel q o i)
  · rw [← Occurrence.pattern_eq_of_nodeLabel_eq hlabel, hr] at hr'
    rw [← Option.some.inj hr', ← Occurrence.slot_eq_of_nodeLabel_eq hlabel, ← hid,
      ht.nodeCells_eq hn]

section

variable {values : String → Int}

theorem exists_sourced (ht : t.Keyed) (hq : q.Solves t values rows)
    (hground : q.Grounded t values)
    {source : String × String} (hsource : source ∈ q.select.tables) :
    ∃ row ∈ t.rows source.1, q.Sourced t rows source row := by
  rcases mem_tables_iff.mp hsource with ⟨i, p, hp, rfl⟩ | ⟨o, ho, rfl⟩
  · obtain ⟨hi, -⟩ := List.getElem?_eq_some_iff.mp hp
    have hr := List.getElem?_eq_getElem (hq.length ▸ hi)
    have hmem := (hq.mem_rows _ (List.mem_of_getElem? hr)).1
    exact ⟨_, List.mem_map.mpr ⟨_, hmem, rfl⟩, sourced_pattern hr _⟩
  · obtain ⟨r, hr⟩ := hq.exists_row ho
    obtain ⟨n, hn, hid⟩ := hground o.name (mem_varNames_iff.mpr ⟨o, ho, rfl⟩)
    rw [← hq.value_eq ho hr] at hid
    exact ⟨_, List.mem_map.mpr ⟨n, hn, rfl⟩, sourced_node ht hr hn hid _⟩

theorem exists_shows (ht : t.Keyed) (hq : q.Solves t values rows)
    (hground : q.Grounded t values) :
    ∃ choice, q.Shows t rows choice ∧ Choice.Draws t q.select.tables choice := by
  have row_exists : ∀ source ∈ q.select.tables, ∃ entry : String × Row,
      (entry.1 = source.2 ∧ entry.2 ∈ t.rows source.1) ∧ q.Sourced t rows source entry.2 := by
    intro source hsource
    obtain ⟨row, hmem, hsourced⟩ := exists_sourced ht hq hground hsource
    exact ⟨(source.2, row), ⟨rfl, hmem⟩, hsourced⟩
  obtain ⟨choice, hchoice⟩ := exists_forall₂ row_exists
  have hdraws : Choice.Draws t q.select.tables choice := hchoice.imp fun _ _ h => h.1
  have hnodup : (choice.map Prod.fst).Nodup := hdraws.labels ▸ nodup_labels q
  have lookup_source : ∀ source ∈ q.select.tables, ∃ row,
      choice.lookup source.2 = some row ∧ q.Sourced t rows source row := by
    intro source hsource
    obtain ⟨⟨label, row⟩, hmem, ⟨rfl, -⟩, hsourced⟩ := exists_mem_of_forall₂ hchoice hsource
    exact ⟨row, Choice.lookup_eq_of_mem hnodup hmem, hsourced⟩
  refine ⟨choice, ⟨hdraws.labels, hq.length, ?_, ?_⟩, hdraws⟩
  · intro i r hr
    obtain ⟨hi, -⟩ := List.getElem?_eq_some_iff.mp hr
    rw [hq.length] at hi
    have hp : q.patterns[i]? = some q.patterns[i] := List.getElem?_eq_getElem hi
    obtain ⟨row, hrow, hsourced⟩ := lookup_source _ (mem_tables_iff.mpr (.inl ⟨i, _, hp, rfl⟩))
    rw [hrow, hsourced.pattern i r rfl hr]
  · intro o ho r hr
    obtain ⟨row, hrow, hsourced⟩ := lookup_source _ (mem_tables_iff.mpr (.inr ⟨o, ho, rfl⟩))
    rw [hrow, hsourced.node o ho r rfl hr]

end

/-- A choice for which the equations of the statement hold shows the rows that it takes. -/
theorem exists_shown (ht : t.Keyed) (hdraws : Choice.Draws t q.select.tables choice)
    (hholds : ∀ c ∈ q.select.equations, choice.truth? c = some true) :
    ∃ rows, q.Shows t rows choice ∧ ∀ r ∈ rows, r ∈ t.statements := by
  have hnodup : (choice.map Prod.fst).Nodup := hdraws.labels ▸ nodup_labels q
  have row_exists : ∀ e ∈ q.numbered, ∃ r ∈ t.statements,
      choice.lookup (patternLabel e.1) = some r.cells := by
    intro e he
    obtain ⟨row, hrow, hmem⟩ :=
      hdraws.exists_row (mem_tables_iff.mpr (.inl ⟨e.1, e.2, mem_numbered_iff.mp he, rfl⟩))
    obtain ⟨r, hr, rfl⟩ := List.mem_map.mp hrow
    exact ⟨r, hr, Choice.lookup_eq_of_mem hnodup hmem⟩
  obtain ⟨rows, hrows⟩ := exists_forall₂ row_exists
  have hlength : rows.length = q.patterns.length := by
    rw [← hrows.length_eq]
    simp [numbered]
  have row_at : ∀ i r, rows[i]? = some r →
      r ∈ t.statements ∧ choice.lookup (patternLabel i) = some r.cells := by
    intro i r hr
    obtain ⟨hi, rfl⟩ := List.getElem?_eq_some_iff.mp hr
    have hi' : i < q.numbered.length := hrows.length_eq.symm ▸ hi
    have hrow := List.forall₂_iff_get.mp hrows |>.2 i hi' hi
    simpa [numbered] using hrow
  refine ⟨rows, ⟨hdraws.labels, hlength, fun i r hr => (row_at i r hr).2, ?_⟩, ?_⟩
  · intro o ho r hr
    obtain ⟨row, hrow, hmem⟩ := hdraws.exists_row (mem_tables_iff.mpr (.inr ⟨o, ho, rfl⟩))
    obtain ⟨n, hn, rfl⟩ := List.mem_map.mp hrow
    have hlookup := Choice.lookup_eq_of_mem hnodup hmem
    -- The join demands that the row of the node has the id in the slot.
    have hjoin := hholds _ (mem_equations_iff.mpr (.inl ⟨o, ho, rfl⟩))
    have hcell : r.cells o.slot.column = .int (r.slotId o.slot) := r.cells_column o.slot
    have hnode : n.cells "id" = .int n.id := rfl
    simp only [Choice.truth?, Choice.cell?, Occurrence.column, hlookup, (row_at _ _ hr).2,
      Option.map_some, hcell, hnode, Cell.equals] at hjoin
    have hid : n.id = r.slotId o.slot := by simpa using hjoin
    rw [hlookup, ← hid, ht.nodeCells_eq hn]
  · intro r hr
    obtain ⟨i, hi⟩ := List.getElem?_of_mem hr
    exact (row_at i r hi).1

end ResolvedQuery
end QuadStore
