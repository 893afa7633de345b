import QuadStore.Proofs.PatternAnswers
import QuadStore.Proofs.ReadableStatements

namespace QuadStore

namespace ResolvedQuery

theorem tableCount_of_ids {q : ResolvedQuery}
    (h : ∀ p ∈ q.patterns, ∀ e ∈ p.slots, ∃ id, e.2 = .id id) :
    q.select.tableCount = q.patterns.length := by
  have one_table : ∀ p ∈ q.patterns, p.tableCount = 1 := by
    intro p hp
    rw [ResolvedPattern.tableCount, Nat.add_eq_right, List.countP_eq_zero]
    intro e he
    obtain ⟨id, hid⟩ := h p hp e he
    simp [hid, SlotTerm.isVar]
  rw [tableCount_eq, List.map_congr_left one_table]
  simp

theorem tableCount_le (q : ResolvedQuery) : q.select.tableCount ≤ q.patterns.length * 5 := by
  rw [tableCount_eq, ← List.length_map (f := ResolvedPattern.tableCount), ← smul_eq_mul]
  refine List.sum_le_card_nsmul _ _ fun count hcount => ?_
  obtain ⟨p, -, rfl⟩ := List.mem_map.mp hcount
  have hslots : p.slots.length ≤ 4 := by
    cases hcontext : p.context <;> simp [ResolvedPattern.slots, hcontext]
  have hvars : p.slots.countP (fun e => e.2.isVar) ≤ p.slots.length := List.countP_le_length
  rw [ResolvedPattern.tableCount]
  omega

theorem check_eq_ok {q : ResolvedQuery} (hcount : q.select.tableCount ≤ SelectQuery.maxTables)
    (hlimit : q.limit = none) : q.select.check = .ok () := by
  have hlimit' : q.select.limit = none := hlimit
  unfold SelectQuery.check
  rw [if_neg (not_lt.mpr hcount), hlimit']
  rfl

end ResolvedQuery

namespace PatternQuery

variable {q : PatternQuery} {given : List ResolvedPattern} {q' : ResolvedQuery} {t : Tables}

theorem ResolvesTo.check_eq_ok (h : q.ResolvesTo t given q') (hvars : q.varNames = [])
    (hcount : q.patterns.length ≤ SelectQuery.maxTables) (hlimit : q.limit = none) :
    q'.select.check = .ok () := by
  have resolved_ids : ∀ {p : Pattern} {p' : ResolvedPattern}, p ∈ q.patterns → p.ResolvesTo t p' →
      ∀ e ∈ p'.slots, ∃ id, e.2 = .id id := by
    intro p p' hp hresolved
    have ids : ∀ {term : PatternTerm} {term' : SlotTerm}, term ∈ p.terms →
        term.ResolvesTo t term' →
        ∃ id, term' = .id id := by
      intro term term' hterm hresolved
      cases term with
      | value n =>
          cases term' with
          | id id => exact ⟨id, rfl⟩
          | var name => exact hresolved.elim
      | var name =>
          have hmem : name ∈ q.varNames :=
            List.mem_flatMap.mpr ⟨p, hp, List.mem_filterMap.mpr ⟨_, hterm, rfl⟩⟩
          simp [hvars] at hmem
    intro e he
    simp only [ResolvedPattern.slots, List.mem_append, List.mem_cons, List.not_mem_nil, or_false,
      List.mem_map, Option.mem_toList] at he
    rcases he with (rfl | rfl | rfl) | ⟨term', hterm', rfl⟩
    · exact ids (by simp [Pattern.terms]) hresolved.subject
    · exact ids (by simp [Pattern.terms]) hresolved.predicate
    · exact ids (by simp [Pattern.terms]) hresolved.object
    · have hcontext := hresolved.context
      rw [hterm'] at hcontext
      cases hp : p.context with
      | none =>
          rw [hp] at hcontext
          cases hcontext
      | some term =>
          rw [hp] at hcontext
          cases hcontext with
          | some hrel => exact ids (by simp [Pattern.terms, hp]) hrel
  have htables : q'.select.tableCount = q'.patterns.length := by
    refine ResolvedQuery.tableCount_of_ids fun p' hp' => ?_
    obtain ⟨p, hp, hresolved⟩ := exists_mem_of_forall₂ h.patterns.flip (h.order.mem_iff.mp hp')
    exact resolved_ids hp hresolved
  have hlength : q'.patterns.length = q.patterns.length :=
    h.order.length_eq.trans h.patterns.length_eq.symm
  exact ResolvedQuery.check_eq_ok (by rwa [htables, hlength]) (h.limit.trans hlimit)

end PatternQuery

/-- Whether all nodes of a query satisfy a condition. -/
structure PatternQuery.AllNodes (P : Node → Prop) (q : PatternQuery) : Prop where
  patterns : ∀ p ∈ q.patterns, ∀ n, PatternTerm.value n ∈ p.terms → P n
  bindings : ∀ e ∈ q.bindings, P e.2
  filters : ∀ name n, Filter.sameValue name n ∈ q.filters → P n

namespace Action

variable {t : Tables}

section

variable {I : Workspace → Prop} (hview : ∀ w, I w → w.view = t)

theorem resolveTerm_delivers {term : PatternTerm}
    (h : ∀ n, PatternTerm.value n = term → Delivers I (nodeId n) fun _ => True) :
    Delivers I (resolveTerm term) fun _ => True := by
  cases term with
  | var name => exact .pure trivial
  | value n => exact (h n rfl).bind fun _ _ => .pure trivial

theorem resolvePattern_delivers {p : Pattern} (i : Nat)
    (h : ∀ n, PatternTerm.value n ∈ p.terms → Delivers I (nodeId n) fun _ => True) :
    Delivers I (resolvePattern i p) fun _ => True := by
  have term_delivers : ∀ term ∈ p.terms, Delivers I (resolveTerm term) fun _ => True :=
    fun term hterm => resolveTerm_delivers fun n hn => h n (hn ▸ hterm)
  refine (term_delivers _ (by simp [Pattern.terms])).bind fun subject _ => ?_
  refine (term_delivers _ (by simp [Pattern.terms])).bind fun predicate _ => ?_
  refine (term_delivers _ (by simp [Pattern.terms])).bind fun object _ => ?_
  split
  · split
    · exact .pure trivial
    · rename_i hcontext
      exact (term_delivers _ (by simp [Pattern.terms, hcontext])).bind fun _ _ => .pure trivial
  · exact .pure trivial

theorem collect_delivers {α β : Type} {f : α → Action (Option β)} {xs : List α}
    (hf : ∀ x ∈ xs, Delivers I (f x) fun _ => True) :
    Delivers I (collect f xs) fun _ => True := by
  induction xs with
  | nil => exact .pure trivial
  | cons x rest ih =>
      refine (hf x (by simp)).bind fun y _ => ?_
      cases y with
      | some y => exact (ih fun x hx => hf x (by simp [hx])).bind fun _ _ => .pure trivial
      | none => exact .pure trivial

theorem resolveQuery_delivers {q : PatternQuery}
    (h : q.AllNodes fun n => Delivers I (nodeId n) fun _ => True) :
    Delivers I (resolveQuery q) fun _ => True := by
  have value_delivers : ∀ e : String × Node, Delivers I (nodeId e.2) (fun _ => True) →
      Delivers I (resolveValueOf e) fun _ => True :=
    fun _ he => he.bind fun _ _ => .pure trivial
  have hpatterns : Delivers I (collect (fun e => resolvePattern e.2 e.1) q.patterns.zipIdx)
      fun _ => True :=
    collect_delivers fun e he =>
      resolvePattern_delivers e.2 (h.patterns e.1 (List.fst_mem_of_mem_zipIdx he))
  refine hpatterns.bind fun patterns _ => ?_
  cases patterns with
  | none => exact .pure trivial
  | some patterns =>
      refine (collect_delivers fun e he => value_delivers e ?_).bind fun bindings _ => ?_
      · exact h.bindings e (List.mem_of_mem_filter ((partition_bindings_perm q).1.mem_iff.mp he))
      cases bindings with
      | none => exact .pure trivial
      | some bindings =>
          refine (collect_delivers fun e he => value_delivers e ?_).bind fun sameValues _ => ?_
          · exact h.filters e.1 e.2 (PatternQuery.mem_valueEntries_iff.mp he)
          cases sameValues with
          | none => exact .pure trivial
          | some sameValues => exact .pure trivial

include hview

theorem reorderPatterns_delivers (q : ResolvedQuery) :
    Delivers I (reorderPatterns q) fun _ => True := by
  unfold reorderPatterns
  split
  · exact .pure trivial
  · have counted : ∀ p ∈ q.patterns, Delivers I (countPattern p.boundIds) fun _ => True :=
      fun _ _ => (Delivers.view hview _).imp fun _ _ => trivial
    refine Delivers.bind (Q := fun _ => True) (fun w hw => ?_) fun _ _ => .pure trivial
    obtain ⟨counts, w', hcounts, hw', -⟩ := Delivers.mapM counted w hw
    exact ⟨.ok counts, w', by rw [attempt, hcounts], hw', trivial⟩

theorem prepareQuery_delivers {q : PatternQuery} (hvalid : q.validate = .ok ())
    (h : q.AllNodes fun n => Delivers I (nodeId n) fun _ => True) (reorder : Bool) :
    Delivers I (prepareQuery q reorder) fun _ => True := by
  unfold prepareQuery
  rw [hvalid]
  refine Delivers.bind (Q := fun _ => True) (.pure trivial) fun _ _ => ?_
  refine (resolveQuery_delivers h).bind fun resolved _ => ?_
  cases resolved with
  | none => exact .pure trivial
  | some resolved =>
      dsimp only
      split
      · rw [map_eq_pure_bind]
        exact (reorderPatterns_delivers hview resolved).bind fun _ _ => .pure trivial
      · exact .pure trivial

theorem evaluate_delivers {q : PatternQuery} (hvalid : q.validate = .ok ())
    (h : q.AllNodes fun n => Delivers I (nodeId n) fun _ => True)
    (hcheck : ∀ given q', q.ResolvesTo t given q' → q'.select.check = .ok ()) (reorder : Bool) :
    Delivers I (evaluate q reorder) fun _ => True := by
  intro w hw
  obtain ⟨resolved, w₁, hprepare, hw₁, -⟩ := prepareQuery_delivers hview hvalid h reorder w hw
  unfold evaluate
  rw [bind_of_ok hprepare]
  cases resolved with
  | none => exact ⟨_, w₁, rfl, hw₁, trivial⟩
  | some q' =>
      obtain ⟨given, hresolved⟩ := (prepareQuery_eq hprepare).2.1 q' rfl
      have hcheck := hcheck given q' (hview w hw ▸ hresolved)
      dsimp only
      rw [bind_of_ok (a := (get : Action Workspace)) (s := w₁) rfl]
      have hrun : ∃ rows, q'.compile.select.run w₁.view = .ok rows := by
        unfold SelectQuery.run
        have hcheck' : q'.compile.select.check = .ok () := hcheck
        rw [hcheck']
        exact ⟨_, rfl⟩
      obtain ⟨found, hfound⟩ := hrun
      exact Delivers.bind (.ofData hfound) (fun _ _ => .pure trivial) w₁ hw₁

end

/-- A query without variables is answered, and its answer has a row if there is a solution. -/
theorem evaluate_yields {q : PatternQuery} (hvalid : q.validate = .ok ())
    (hvars : q.varNames = [])
    (hcount : q.patterns.length ≤ SelectQuery.maxTables)
    (hlimit : q.limit = none) (reorder : Bool)
    (hsound : t.Sound) (hlegible : t.Legible) {values : String → Int} {rows : List StatementRow}
    (hsolves : q.Solves t values rows) (hstored : q.AllStored t) :
    Yields t (evaluate q reorder) fun r => r.rows ≠ [] := by
  have hreferenced : t.Referenced := by
    intro r hr _ slot
    have hrow := hlegible r hr
    cases slot with
    | subject =>
        obtain ⟨d, hd, hid, -⟩ := hrow.subject
        exact ⟨d, hd, hid⟩
    | predicate =>
        obtain ⟨d, hd, hid, -⟩ := hrow.predicate
        exact ⟨d, hd, hid⟩
    | object => exact hrow.object
    | context =>
        obtain ⟨d, hd, hid, -⟩ := hrow.context
        exact ⟨d, hd, hid⟩
  have hsucceeds : Yields t (evaluate q reorder) fun _ => True := by
    refine evaluate_delivers (fun _ hw => hw.view) hvalid ?_
      (fun given q' hresolved => ?_) reorder
    · have looked_up : ∀ n, Yields t (nodeId n) fun _ => True :=
        fun n => (nodeId_yields n).imp fun _ _ => trivial
      exact ⟨fun _ _ n _ => looked_up n, fun e _ => looked_up e.2, fun _ n _ => looked_up n⟩
    · exact hresolved.check_eq_ok hvars hcount hlimit
  intro w hw
  obtain ⟨r, w', hop, hw', -⟩ := hsucceeds w hw
  refine ⟨r, w', hop, hw', ?_⟩
  have hanswers := (evaluate_answers (w := w) ?_ ?_ hlimit hop).1 (hw.view ▸ hstored)
  · obtain ⟨solutions, -, -, hall, hrows⟩ := hanswers.rows
    intro hnone
    rw [hnone] at hrows
    have hempty : solutions = [] := by simpa using hrows.nil_eq.symm
    have hmem := hall values rows (hw.view ▸ hsolves)
    simp [hempty] at hmem
  · rw [hw.view]
    exact hsound.keyed
  · rw [hw.view]
    exact hreferenced

end Action
end QuadStore
