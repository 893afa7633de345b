import QuadStore.Proofs.Choices
import QuadStore.Proofs.Labels

namespace QuadStore

def SlotTerm.isVar : SlotTerm → Bool
  | .id _ => false
  | .var _ => true

/-- How many tables a pattern takes: one of statements, and one of nodes for
each of its variables. -/
def ResolvedPattern.tableCount (p : ResolvedPattern) : Nat :=
  (p.slots.countP fun e => e.2.isVar) + 1

namespace ResolvedQuery

variable {q : ResolvedQuery}

theorem mem_numbered_iff {i : Nat} {p : ResolvedPattern} :
    (i, p) ∈ q.numbered ↔ q.patterns[i]? = some p := by
  rw [numbered, List.mem_map]
  constructor
  · rintro ⟨⟨p', i'⟩, hmem, heq⟩
    obtain ⟨rfl, rfl⟩ := Prod.mk.inj heq
    exact List.mk_mem_zipIdx_iff_getElem?.mp hmem
  · intro h
    exact ⟨(p, i), List.mk_mem_zipIdx_iff_getElem?.mpr h, rfl⟩

theorem mem_occurrences_iff {o : Occurrence} :
    o ∈ q.occurrences ↔
      ∃ p, q.patterns[o.pattern]? = some p ∧ (o.slot, SlotTerm.var o.name) ∈ p.slots := by
  simp only [occurrences, List.mem_flatMap, List.mem_filterMap]
  constructor
  · rintro ⟨⟨i, p⟩, hp, ⟨slot, term⟩, hslot, ho⟩
    cases term with
    | id id => cases ho
    | var name =>
        cases ho
        exact ⟨p, mem_numbered_iff.mp hp, hslot⟩
  · rintro ⟨p, hp, hslot⟩
    exact ⟨(o.pattern, p), mem_numbered_iff.mpr hp, (o.slot, .var o.name), hslot, rfl⟩

theorem mem_varNames_iff {name : String} :
    name ∈ q.varNames ↔ ∃ o ∈ q.occurrences, o.name = name := by
  simp [varNames, List.mem_eraseDups]

theorem mem_varNames_iff_slot {name : String} :
    name ∈ q.varNames ↔ ∃ p ∈ q.patterns, ∃ slot, (slot, SlotTerm.var name) ∈ p.slots := by
  rw [mem_varNames_iff]
  constructor
  · rintro ⟨o, ho, rfl⟩
    obtain ⟨p, hp, hslot⟩ := mem_occurrences_iff.mp ho
    exact ⟨p, List.mem_of_getElem? hp, o.slot, hslot⟩
  · rintro ⟨p, hp, slot, hslot⟩
    obtain ⟨i, hi⟩ := List.getElem?_of_mem hp
    exact ⟨⟨i, slot, name⟩, mem_occurrences_iff.mpr ⟨p, hi, hslot⟩, rfl⟩

theorem firstOccurrence?_eq_some {name : String} {o : Occurrence}
    (h : q.firstOccurrence? name = some o) : o ∈ q.occurrences ∧ o.name = name := by
  refine ⟨List.mem_of_find?_eq_some h, ?_⟩
  simpa using List.find?_some h

theorem exists_firstOccurrence {name : String} (h : name ∈ q.varNames) :
    ∃ o, q.firstOccurrence? name = some o := by
  obtain ⟨o, ho, hname⟩ := mem_varNames_iff.mp h
  rw [← Option.isSome_iff_exists, firstOccurrence?, List.find?_isSome]
  exact ⟨o, ho, by simpa using hname⟩

theorem firstOccurrence?_isSome_iff {name : String} :
    (∃ o, q.firstOccurrence? name = some o) ↔ name ∈ q.varNames := by
  refine ⟨?_, exists_firstOccurrence⟩
  rintro ⟨o, ho⟩
  exact mem_varNames_iff.mpr ⟨o, (firstOccurrence?_eq_some ho)⟩

theorem mem_joins_iff {i : Nat} {p : ResolvedPattern} {j : Join} :
    j ∈ (q.source i p).joins ↔
      ∃ slot name, (slot, SlotTerm.var name) ∈ p.slots ∧
        j = ⟨"nodes", Occurrence.nodeLabel q ⟨i, slot, name⟩,
          [⟨⟨Occurrence.nodeLabel q ⟨i, slot, name⟩, "id"⟩,
            .column (Occurrence.column ⟨i, slot, name⟩)⟩]⟩ := by
  simp only [source, List.mem_filterMap]
  constructor
  · rintro ⟨⟨slot, term⟩, hslot, hj⟩
    cases term with
    | id id => cases hj
    | var name => exact ⟨slot, name, hslot, (Option.some.inj hj).symm⟩
  · rintro ⟨slot, name, hslot, rfl⟩
    exact ⟨(slot, .var name), hslot, rfl⟩

/-- The tables that a pattern brings into a statement, with the names of their rows. -/
def patternTables (q : ResolvedQuery) (pattern : Nat) (p : ResolvedPattern) :
    List (String × String) :=
  ("triples", patternLabel pattern) :: (q.source pattern p).joins.map fun j => (j.table, j.label)

theorem tables_select (q : ResolvedQuery) :
    q.select.tables = q.numbered.flatMap fun e => q.patternTables e.1 e.2 := by
  simp only [SelectQuery.tables, select, List.flatMap_map]
  rfl

theorem mem_patternTables_iff {i : Nat} {p : ResolvedPattern} {source : String × String} :
    source ∈ q.patternTables i p ↔
      source = ("triples", patternLabel i) ∨
        ∃ slot name, (slot, SlotTerm.var name) ∈ p.slots ∧
          source = ("nodes", Occurrence.nodeLabel q ⟨i, slot, name⟩) := by
  simp only [patternTables, List.mem_cons, List.mem_map]
  refine or_congr_right ?_
  constructor
  · rintro ⟨j, hj, rfl⟩
    obtain ⟨slot, name, hslot, rfl⟩ := mem_joins_iff.mp hj
    exact ⟨slot, name, hslot, rfl⟩
  · rintro ⟨slot, name, hslot, rfl⟩
    exact ⟨_, mem_joins_iff.mpr ⟨slot, name, hslot, rfl⟩, rfl⟩

theorem mem_tables_iff {source : String × String} :
    source ∈ q.select.tables ↔
      (∃ i p, q.patterns[i]? = some p ∧ source = ("triples", patternLabel i)) ∨
        ∃ o ∈ q.occurrences, source = ("nodes", o.nodeLabel q) := by
  simp only [tables_select, List.mem_flatMap, mem_patternTables_iff]
  constructor
  · rintro ⟨⟨i, p⟩, hp, rfl | ⟨slot, name, hslot, rfl⟩⟩
    · exact .inl ⟨i, p, mem_numbered_iff.mp hp, rfl⟩
    · exact .inr ⟨⟨i, slot, name⟩,
        mem_occurrences_iff.mpr ⟨p, mem_numbered_iff.mp hp, hslot⟩, rfl⟩
  · rintro (⟨i, p, hp, rfl⟩ | ⟨o, ho, rfl⟩)
    · exact ⟨(i, p), mem_numbered_iff.mpr hp, .inl rfl⟩
    · obtain ⟨p, hp, hslot⟩ := mem_occurrences_iff.mp ho
      exact ⟨(o.pattern, p), mem_numbered_iff.mpr hp, .inr ⟨o.slot, o.name, hslot, rfl⟩⟩

theorem nodup_slots (p : ResolvedPattern) : (p.slots.map Prod.fst).Nodup := by
  cases hcontext : p.context with
  | none => simp [ResolvedPattern.slots, hcontext]
  | some context => simp [ResolvedPattern.slots, hcontext]

theorem nodup_patternTables (i : Nat) (p : ResolvedPattern) :
    ((q.patternTables i p).map Prod.snd).Nodup := by
  simp only [patternTables, List.map_cons, List.nodup_cons, List.map_map, List.mem_map]
  constructor
  · rintro ⟨j, hj, heq⟩
    obtain ⟨slot, name, -, rfl⟩ := mem_joins_iff.mp hj
    exact Occurrence.nodeLabel_ne_patternLabel q _ i heq
  · rw [source, List.map_filterMap]
    refine List.Pairwise.filterMap _ ?_ (List.pairwise_map.mp (nodup_slots p))
    rintro ⟨slot, term⟩ ⟨slot', term'⟩ hslot label hlabel label' hlabel' rfl
    cases term with
    | id id => cases hlabel
    | var name =>
        cases term' with
        | id id => cases hlabel'
        | var name' =>
            apply hslot
            have heq := (Option.some.inj hlabel).trans (Option.some.inj hlabel').symm
            exact Occurrence.slot_eq_of_nodeLabel_eq heq

theorem stem_of_mem_patternTables {i : Nat} {p : ResolvedPattern} {source : String × String}
    (h : source ∈ q.patternTables i p) : stem source.2 = (patternLabel i).toList := by
  rcases mem_patternTables_iff.mp h with rfl | ⟨slot, name, -, rfl⟩
  · exact stem_patternLabel i
  · exact Occurrence.stem_nodeLabel q _

theorem nodup_labels (q : ResolvedQuery) : (q.select.tables.map Prod.snd).Nodup := by
  rw [tables_select, List.map_flatMap, List.nodup_flatMap]
  refine ⟨fun e _ => nodup_patternTables e.1 e.2, ?_⟩
  have hnumbers : (q.numbered.map Prod.fst).Nodup := by
    simp [numbered, Function.comp_def, List.nodup_range']
  refine (List.pairwise_map.mp hnumbers).imp ?_
  intro e e' hne
  rw [Function.onFun, List.disjoint_left]
  intro label hlabel hlabel'
  obtain ⟨source, hsource, rfl⟩ := List.mem_map.mp hlabel
  obtain ⟨source', hsource', heq⟩ := List.mem_map.mp hlabel'
  apply hne
  apply patternLabel_injective
  rw [← String.toList_inj, ← stem_of_mem_patternTables hsource, ← heq,
    stem_of_mem_patternTables hsource']

/-- The number of tables that a query takes, whichever order its patterns have. -/
theorem tableCount_eq (q : ResolvedQuery) :
    q.select.tableCount = (q.patterns.map ResolvedPattern.tableCount).sum := by
  have count : ∀ entries : List (Nat × ResolvedPattern),
      (entries.map fun e => q.source e.1 e.2).foldr
        (fun s count => s.joins.length + 1 + count) 0 =
        (entries.map fun e => e.2.tableCount).sum := by
    intro entries
    induction entries with
    | nil => rfl
    | cons e rest ih =>
        have hjoins : (q.source e.1 e.2).joins.length = e.2.slots.countP fun e => e.2.isVar := by
          rw [source, List.length_filterMap_eq_countP]
          refine List.countP_congr fun entry _ => ?_
          obtain ⟨slot, term⟩ := entry
          cases term <;> simp [SlotTerm.isVar]
        rw [List.map_cons, List.foldr_cons, ih, hjoins, List.map_cons, List.sum_cons,
          ResolvedPattern.tableCount]
  have hpatterns : q.numbered.map Prod.snd = q.patterns := by
    rw [numbered, List.map_map]
    exact List.zipIdx_map_fst 0 q.patterns
  rw [← hpatterns, List.map_map]
  exact count q.numbered

theorem mem_equations_iff {c : Condition} :
    c ∈ q.select.equations ↔
      (∃ o ∈ q.occurrences, c = ⟨⟨o.nodeLabel q, "id"⟩, .column o.column⟩) ∨
      (∃ i p, q.patterns[i]? = some p ∧ c ∈ q.patternConditions i p) ∨
      c ∈ q.valueConditions q.bindings ∨ c ∈ q.termConditions ∨
      c ∈ q.valueConditions q.sameValues := by
  have hjoins : c ∈ q.select.sources.flatMap (fun s => s.joins.flatMap Join.on) ↔
      ∃ o ∈ q.occurrences, c = ⟨⟨o.nodeLabel q, "id"⟩, .column o.column⟩ := by
    simp only [select, List.mem_flatMap, List.mem_map]
    constructor
    · rintro ⟨_, ⟨⟨i, p⟩, hp, rfl⟩, j, hj, hc⟩
      obtain ⟨slot, name, hslot, rfl⟩ := mem_joins_iff.mp hj
      refine ⟨⟨i, slot, name⟩, ?_, List.mem_singleton.mp hc⟩
      exact mem_occurrences_iff.mpr ⟨p, mem_numbered_iff.mp hp, hslot⟩
    · rintro ⟨o, ho, rfl⟩
      obtain ⟨p, hp, hslot⟩ := mem_occurrences_iff.mp ho
      refine ⟨_, ⟨(o.pattern, p), mem_numbered_iff.mpr hp, rfl⟩, ?_⟩
      exact ⟨_, mem_joins_iff.mpr ⟨o.slot, o.name, hslot, rfl⟩, List.mem_singleton.mpr rfl⟩
  have hpatterns : c ∈ q.numbered.flatMap (fun e => q.patternConditions e.1 e.2) ↔
      ∃ i p, q.patterns[i]? = some p ∧ c ∈ q.patternConditions i p := by
    rw [List.mem_flatMap]
    constructor
    · rintro ⟨⟨i, p⟩, hp, hc⟩
      exact ⟨i, p, mem_numbered_iff.mp hp, hc⟩
    · rintro ⟨i, p, hp, hc⟩
      exact ⟨(i, p), mem_numbered_iff.mpr hp, hc⟩
  rw [SelectQuery.equations, List.mem_append, hjoins]
  refine or_congr_right ?_
  simp only [select, List.mem_append]
  rw [hpatterns, or_assoc, or_assoc]

theorem mem_valueConditions_iff {entries : List (String × Int)} {c : Condition} :
    c ∈ q.valueConditions entries ↔
      ∃ e ∈ entries, ∃ o, q.firstOccurrence? e.1 = some o ∧ c = ⟨o.column, .param e.2⟩ := by
  simp only [valueConditions, List.mem_filterMap, Option.map_eq_some_iff]
  constructor
  · rintro ⟨e, he, o, ho, rfl⟩
    exact ⟨e, he, o, ho, rfl⟩
  · rintro ⟨e, he, o, ho, rfl⟩
    exact ⟨e, he, o, ho, rfl⟩

theorem mem_termConditions_iff {c : Condition} :
    c ∈ q.termConditions ↔
      ∃ e ∈ q.sameTerms, ∃ o o', q.firstOccurrence? e.1 = some o ∧
        q.firstOccurrence? e.2 = some o' ∧ c = ⟨o.column, .column o'.column⟩ := by
  simp only [termConditions, List.mem_filterMap]
  constructor
  · rintro ⟨e, he, hc⟩
    split at hc
    · rename_i o o' ho ho'
      exact ⟨e, he, o, o', ho, ho', (Option.some.inj hc).symm⟩
    · cases hc
  · rintro ⟨e, he, o, o', ho, ho', rfl⟩
    exact ⟨e, he, by rw [ho, ho']⟩

end ResolvedQuery
end QuadStore
