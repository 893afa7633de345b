import Mathlib
import QuadStore.Query.Run

namespace QuadStore

theorem exists_forall₂ {P : α → β → Prop} {xs : List α} (h : ∀ x ∈ xs, ∃ y, P x y) :
    ∃ ys, List.Forall₂ P xs ys := by
  induction xs with
  | nil => exact ⟨[], .nil⟩
  | cons x xs ih =>
      obtain ⟨y, hy⟩ := h x (by simp)
      obtain ⟨ys, hys⟩ := ih fun z hz => h z (by simp [hz])
      exact ⟨y :: ys, .cons hy hys⟩

theorem exists_mem_of_forall₂ {P : α → β → Prop} {xs : List α} {ys : List β}
    (h : List.Forall₂ P xs ys) {x : α} (hx : x ∈ xs) : ∃ y ∈ ys, P x y := by
  induction h with
  | nil => cases hx
  | @cons x' y xs ys hxy _ ih =>
      rcases List.mem_cons.mp hx with rfl | hx
      · exact ⟨y, by simp, hxy⟩
      · obtain ⟨y', hy', hP⟩ := ih hx
        exact ⟨y', by simp [hy'], hP⟩

namespace Choice

theorem lookup_append_of_some {choice rest : Choice} {label : String} {row : Row}
    (h : choice.lookup label = some row) : (choice ++ rest).lookup label = some row := by
  rw [List.lookup_append, h]
  rfl

theorem cell?_append_of_some {choice rest : Choice} {c : Column} {value : Cell}
    (h : choice.cell? c = some value) : (choice ++ rest).cell? c = some value := by
  simp only [cell?, Option.map_eq_some_iff] at h ⊢
  obtain ⟨row, hrow, hvalue⟩ := h
  exact ⟨row, lookup_append_of_some hrow, hvalue⟩

theorem truth?_append_of_some {choice rest : Choice} {c : Condition} {b : Bool}
    (h : choice.truth? c = some b) : (choice ++ rest).truth? c = some b := by
  unfold truth? at h ⊢
  cases hleft : choice.cell? c.left with
  | none => simp [hleft] at h
  | some left =>
      rw [cell?_append_of_some hleft]
      rw [hleft] at h
      cases hright : c.right with
      | param value => simpa [hright] using h
      | column right =>
          simp only [hright, Option.map_eq_some_iff] at h ⊢
          obtain ⟨value, hvalue, hb⟩ := h
          exact ⟨value, cell?_append_of_some hvalue, hb⟩

theorem admits_of_holds {choice rest : Choice} {conditions : List Condition}
    (h : ∀ c ∈ conditions, (choice ++ rest).truth? c = some true) :
    choice.admits conditions = true := by
  rw [admits, List.all_eq_true]
  intro c hc
  cases htruth : choice.truth? c with
  | none => rfl
  | some b =>
      have hfull : (choice ++ rest).truth? c = some b := truth?_append_of_some htruth
      rw [h c hc] at hfull
      simpa using hfull.symm

/-- Whether the entries of a choice are rows of the tables, under their
names and in their order. -/
def Draws (t : Tables) : List (String × String) → Choice → Prop :=
  List.Forall₂ fun source entry => entry.1 = source.2 ∧ entry.2 ∈ t.rows source.1

/-- Chooses rows of several tables, one after the other. -/
def extendAll (t : Tables) (conditions : List Condition) (tables : List (String × String))
    (choices : List Choice) : List Choice :=
  tables.foldl (fun choices source => extend t conditions source.1 source.2 choices) choices

theorem mem_extend_iff {t : Tables} {conditions : List Condition} {table label : String}
    {choices : List Choice} {choice : Choice} :
    choice ∈ extend t conditions table label choices ↔
      ∃ start ∈ choices, ∃ row ∈ t.rows table,
        choice = start ++ [(label, row)] ∧ choice.admits conditions = true := by
  simp only [extend, List.mem_flatMap, List.mem_filter, List.mem_map]
  constructor
  · rintro ⟨start, hstart, ⟨row, hrow, rfl⟩, hadmits⟩
    exact ⟨start, hstart, row, hrow, rfl, hadmits⟩
  · rintro ⟨start, hstart, row, hrow, rfl, hadmits⟩
    exact ⟨start, hstart, ⟨row, hrow, rfl⟩, hadmits⟩

theorem draws_of_mem_extendAll {t : Tables} {conditions : List Condition}
    {tables : List (String × String)} {choices : List Choice} {choice : Choice}
    (h : choice ∈ extendAll t conditions tables choices) :
    ∃ start ∈ choices, ∃ rest, choice = start ++ rest ∧ Draws t tables rest := by
  induction tables generalizing choices with
  | nil => exact ⟨choice, h, [], by simp, .nil⟩
  | cons source tables ih =>
      obtain ⟨start, hstart, rest, rfl, hrest⟩ := ih h
      obtain ⟨first, hfirst, row, hrow, rfl, -⟩ := mem_extend_iff.mp hstart
      refine ⟨first, hfirst, (source.2, row) :: rest, by simp, ?_⟩
      exact .cons ⟨rfl, hrow⟩ hrest

theorem mem_extendAll_of_draws {t : Tables} {conditions : List Condition}
    {tables : List (String × String)} {choices : List Choice} {start rest : Choice}
    (hstart : start ∈ choices) (hrest : Draws t tables rest)
    (hholds : ∀ c ∈ conditions, (start ++ rest).truth? c = some true) :
    start ++ rest ∈ extendAll t conditions tables choices := by
  induction hrest generalizing choices start with
  | nil => simpa [extendAll] using hstart
  | @cons source entry tables rest hentry hrest ih =>
      obtain ⟨label, row⟩ := entry
      obtain ⟨rfl, hrow⟩ := hentry
      have hsplit : start ++ (source.2, row) :: rest = (start ++ [(source.2, row)]) ++ rest := by
        simp
      rw [hsplit] at hholds ⊢
      apply ih _ hholds
      exact mem_extend_iff.mpr ⟨start, hstart, row, hrow, rfl, admits_of_holds hholds⟩

theorem nodup_extend {t : Tables} {conditions : List Condition} {table label : String}
    {choices : List Choice} (hrows : (t.rows table).Nodup) (hchoices : choices.Nodup) :
    (extend t conditions table label choices).Nodup := by
  refine List.nodup_flatMap.mpr ⟨?_, ?_⟩
  · intro start _
    refine .filter _ (hrows.map ?_)
    intro row row' h
    simpa using h
  · refine hchoices.imp ?_
    intro start start' hne
    rw [Function.onFun, List.disjoint_left]
    intro choice hchoice hchoice'
    obtain ⟨row, -, rfl⟩ := List.mem_map.mp (List.mem_filter.mp hchoice).1
    obtain ⟨row', -, heq⟩ := List.mem_map.mp (List.mem_filter.mp hchoice').1
    exact hne (List.append_inj_left' heq rfl).symm

theorem nodup_extendAll {t : Tables} {conditions : List Condition}
    {tables : List (String × String)} {choices : List Choice}
    (hrows : ∀ table, (t.rows table).Nodup) (hchoices : choices.Nodup) :
    (extendAll t conditions tables choices).Nodup := by
  induction tables generalizing choices with
  | nil => exact hchoices
  | cons source tables ih => exact ih (nodup_extend (hrows source.1) hchoices)

theorem Draws.labels {t : Tables} {tables : List (String × String)} {choice : Choice}
    (h : Draws t tables choice) : choice.map Prod.fst = tables.map Prod.snd := by
  induction h with
  | nil => rfl
  | cons hentry _ ih => simp [hentry.1, ih]

/-- Every table gives a row to the choice. -/
theorem Draws.exists_row {t : Tables} {tables : List (String × String)} {choice : Choice}
    (h : Draws t tables choice) {source : String × String} (hsource : source ∈ tables) :
    ∃ row ∈ t.rows source.1, (source.2, row) ∈ choice := by
  obtain ⟨⟨label, row⟩, hmem, rfl, hrow⟩ := exists_mem_of_forall₂ h hsource
  exact ⟨row, hrow, hmem⟩

theorem lookup_eq_of_mem {choice : Choice} (hlabels : (choice.map Prod.fst).Nodup)
    {label : String} {row : Row} (h : (label, row) ∈ choice) :
    choice.lookup label = some row := by
  induction choice with
  | nil => cases h
  | cons entry rest ih =>
      rw [List.map_cons, List.nodup_cons] at hlabels
      rcases List.mem_cons.mp h with rfl | h
      · simp
      · have hne : label ≠ entry.1 := by
          rintro rfl
          exact hlabels.1 (List.mem_map.mpr ⟨_, h, rfl⟩)
        rw [List.lookup_cons, beq_false_of_ne hne]
        exact ih hlabels.2 h

theorem eq_of_lookup_eq {a b : Choice} (hlabels : a.map Prod.fst = b.map Prod.fst)
    (hnodup : (a.map Prod.fst).Nodup)
    (h : ∀ label ∈ a.map Prod.fst, a.lookup label = b.lookup label) : a = b := by
  apply List.ext_getElem (by simpa using congrArg List.length hlabels)
  intro i hi hi'
  have hlabel : a[i].1 = b[i].1 := by
    have := congrArg (·[i]?) hlabels
    simpa [hi, hi'] using this
  have hrow := h a[i].1 (List.mem_map.mpr ⟨_, List.getElem_mem hi, rfl⟩)
  have ha : a.lookup a[i].1 = some a[i].2 := lookup_eq_of_mem hnodup (List.getElem_mem hi)
  have hb : b.lookup b[i].1 = some b[i].2 :=
    lookup_eq_of_mem (hlabels ▸ hnodup) (List.getElem_mem hi')
  rw [ha, hlabel, hb] at hrow
  exact Prod.ext hlabel (Option.some.inj hrow)

end Choice

namespace SelectQuery

/-- The tables of a statement with the names that it gives to their rows. -/
def tables (q : SelectQuery) : List (String × String) :=
  q.sources.flatMap fun s => (s.table, s.label) :: s.joins.map fun j => (j.table, j.label)

theorem foldl_addSource (t : Tables) (conditions : List Condition) (sources : List TableRef)
    (choices : List Choice) :
    sources.foldl (Choice.addSource t conditions) choices =
      Choice.extendAll t conditions
        (sources.flatMap fun s => (s.table, s.label) :: s.joins.map fun j => (j.table, j.label))
        choices := by
  induction sources generalizing choices with
  | nil => rfl
  | cons s sources ih =>
      rw [List.foldl_cons, ih]
      simp only [Choice.extendAll, Choice.addSource, List.flatMap_cons, List.cons_append,
        List.foldl_cons, List.foldl_append, List.foldl_map]

theorem mem_choices_iff {q : SelectQuery} {t : Tables} {choice : Choice} :
    choice ∈ q.choices t ↔
      Choice.Draws t q.tables choice ∧ ∀ c ∈ q.equations, choice.truth? c = some true := by
  rw [choices, foldl_addSource, List.mem_filter]
  simp only [List.all_eq_true, decide_eq_true_eq]
  constructor
  · rintro ⟨hmem, hholds⟩
    obtain ⟨start, hstart, rest, rfl, hrest⟩ := Choice.draws_of_mem_extendAll hmem
    rw [List.mem_singleton] at hstart
    subst hstart
    exact ⟨hrest, hholds⟩
  · rintro ⟨hdraws, hholds⟩
    have hstart : ([] : Choice) ∈ [([] : Choice)] := List.mem_singleton.mpr rfl
    exact ⟨Choice.mem_extendAll_of_draws hstart hdraws hholds, hholds⟩

theorem nodup_choices {q : SelectQuery} {t : Tables} (hrows : ∀ table, (t.rows table).Nodup) :
    (q.choices t).Nodup := by
  rw [choices, foldl_addSource]
  exact .filter _ (Choice.nodup_extendAll hrows (List.nodup_singleton _))

end SelectQuery
end QuadStore
