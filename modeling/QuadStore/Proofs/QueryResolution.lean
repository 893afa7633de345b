import QuadStore.Proofs.ResolvedQueries

namespace QuadStore

namespace PatternQuery

theorem forM_eq_ok {α : Type} {f : α → Except StoreError Unit} {xs : List α}
    (h : xs.forM f = .ok ()) : ∀ x ∈ xs, f x = .ok () := by
  induction xs with
  | nil => simp
  | cons x rest ih =>
      change (f x >>= fun _ => rest.forM f) = .ok () at h
      cases hx : f x with
      | error e =>
          rw [hx] at h
          cases h
      | ok u =>
          rw [hx] at h
          intro y hy
          rcases List.mem_cons.mp hy with rfl | hy
          · exact hx
          · exact ih h y hy

theorem closed_of_validate {q : PatternQuery} (h : q.validate = .ok ()) : q.Closed := by
  unfold validate at h
  dsimp only at h
  split at h
  · cases h
  cases hfilters : q.filters.forM checkFilter with
  | error e =>
      rw [hfilters] at h
      cases h
  | ok u =>
  rw [hfilters] at h
  change (if q.varNames.contains "" then _ else _) = Except.ok () at h
  split at h
  · cases h
  cases horder : q.orderBy.forM (q.checkVariable .order) with
  | error e =>
      rw [horder] at h
      cases h
  | ok u' =>
      rw [horder] at h
      intro f hf name hname
      have hcheck := forM_eq_ok (forM_eq_ok h f hf) name hname
      unfold checkVariable at hcheck
      split at hcheck
      · simpa using ‹q.varNames.contains name = true›
      · cases hcheck

end PatternQuery

theorem ResolvedQuery.reordered_eq (q : ResolvedQuery) {counts : Except StoreError (List Nat)}
    (h : ∀ counted, counts = .ok counted → counted.length = q.patterns.length) :
    ∃ patterns, patterns.Perm q.patterns ∧ q.reordered counts = { q with patterns } := by
  cases counts with
  | error e => exact ⟨q.patterns, .refl _, rfl⟩
  | ok counted =>
      refine ⟨_, ((List.mergeSort_perm _ _).map _).trans (.of_eq ?_), rfl⟩
      exact List.map_snd_zip (h counted rfl).ge

namespace Action

variable {w w' : Workspace}

theorem resolveTerm_eq {term : PatternTerm} {answer : Option SlotTerm}
    (h : resolveTerm term w = .ok answer w') :
    (∀ term', answer = some term' → term.ResolvesTo w.view term') ∧
      (answer = none → ∃ n, term = .value n ∧ w.view.storedId? n = none) := by
  cases term with
  | var name =>
      obtain ⟨rfl, -⟩ := pure_eq_ok_iff.mp h
      refine ⟨?_, by simp⟩
      rintro _ ⟨⟩
      rfl
  | value n =>
      obtain ⟨id, w₁, hid, h⟩ := bind_eq_ok_iff.mp h
      obtain ⟨rfl, -⟩ := pure_eq_ok_iff.mp h
      rw [nodeId_eq hid]
      constructor
      · intro term' hterm
        obtain ⟨id', hid', rfl⟩ := Option.map_eq_some_iff.mp hterm
        exact hid'
      · intro hnone
        exact ⟨n, rfl, Option.map_eq_none_iff.mp hnone⟩

theorem resolvePattern_eq {i : Nat} {p : Pattern} {answer : Option ResolvedPattern}
    (h : resolvePattern i p w = .ok answer w') :
    (∀ p', answer = some p' → p.ResolvesTo w.view p' ∧ p'.index = i) ∧
      (answer = none → ¬p.AllStored w.view) := by
  obtain ⟨subject, w₁, hs, h⟩ := bind_eq_ok_iff.mp h
  obtain ⟨predicate, w₂, hp, h⟩ := bind_eq_ok_iff.mp h
  obtain ⟨object, w₃, ho, h⟩ := bind_eq_ok_iff.mp h
  have hw₁ : w₁.view = w.view := ((resolveTerm_reads _).ok hs).view_eq
  have hw₂ : w₂.view = w.view := ((resolveTerm_reads _).ok hp).view_eq.trans hw₁
  have hw₃ : w₃.view = w.view := ((resolveTerm_reads _).ok ho).view_eq.trans hw₂
  obtain ⟨resolved_subject, missing_subject⟩ := resolveTerm_eq hs
  obtain ⟨resolved_predicate, missing_predicate⟩ := resolveTerm_eq hp
  obtain ⟨resolved_object, missing_object⟩ := resolveTerm_eq ho
  rw [hw₁] at resolved_predicate missing_predicate
  rw [hw₂] at resolved_object missing_object
  have missing : ∀ {term : PatternTerm}, term ∈ p.terms →
      (∃ n, term = .value n ∧ w.view.storedId? n = none) → ¬p.AllStored w.view := by
    rintro term hterm ⟨n, rfl, hn⟩ hstored
    exact hstored n hterm hn
  cases subject with
  | none =>
      obtain ⟨rfl, -⟩ := pure_eq_ok_iff.mp h
      exact ⟨by simp, fun _ => missing (by simp [Pattern.terms]) (missing_subject rfl)⟩
  | some subject =>
  cases predicate with
  | none =>
      obtain ⟨rfl, -⟩ := pure_eq_ok_iff.mp h
      exact ⟨by simp, fun _ => missing (by simp [Pattern.terms]) (missing_predicate rfl)⟩
  | some predicate =>
  cases object with
  | none =>
      obtain ⟨rfl, -⟩ := pure_eq_ok_iff.mp h
      exact ⟨by simp, fun _ => missing (by simp [Pattern.terms]) (missing_object rfl)⟩
  | some object =>
  cases hcontext : p.context with
  | none =>
      simp only [hcontext] at h
      obtain ⟨rfl, -⟩ := pure_eq_ok_iff.mp h
      refine ⟨?_, by simp⟩
      rintro _ ⟨⟩
      refine ⟨⟨resolved_subject _ rfl, resolved_predicate _ rfl, resolved_object _ rfl, ?_⟩, rfl⟩
      rw [hcontext]
      exact .none
  | some term =>
      simp only [hcontext] at h
      obtain ⟨context, w₄, hc, h⟩ := bind_eq_ok_iff.mp h
      obtain ⟨rfl, -⟩ := pure_eq_ok_iff.mp h
      obtain ⟨resolved_context, missing_context⟩ := resolveTerm_eq hc
      rw [hw₃] at resolved_context missing_context
      constructor
      · intro p' hp'
        obtain ⟨term', hterm, rfl⟩ := Option.map_eq_some_iff.mp hp'
        refine ⟨⟨resolved_subject _ rfl, resolved_predicate _ rfl,
          resolved_object _ rfl, ?_⟩, rfl⟩
        rw [hcontext]
        exact .some (resolved_context term' hterm)
      · intro hnone
        exact missing (by simp [Pattern.terms, hcontext])
          (missing_context (Option.map_eq_none_iff.mp hnone))

theorem resolveValueOf_eq {entry : String × Node} {answer : Option (String × Int)}
    (h : resolveValueOf entry w = .ok answer w') :
    (∀ entry', answer = some entry' → EntryResolvesTo w.view entry entry') ∧
      (answer = none → w.view.storedId? entry.2 = none) := by
  obtain ⟨id, w₁, hid, h⟩ := bind_eq_ok_iff.mp h
  obtain ⟨rfl, -⟩ := pure_eq_ok_iff.mp h
  rw [nodeId_eq hid]
  constructor
  · intro entry' hentry
    obtain ⟨id', hid', rfl⟩ := Option.map_eq_some_iff.mp hentry
    exact ⟨rfl, hid'⟩
  · exact Option.map_eq_none_iff.mp

theorem collect_eq {α β : Type} {f : α → Action (Option β)} {S : α → β → Prop} {P : α → Prop}
    (hreads : ∀ x, Keeps Reads (f x))
    (hf : ∀ x w₁ w₂ answer, w₁.view = w.view → f x w₁ = .ok answer w₂ →
      (∀ y, answer = some y → S x y) ∧ (answer = none → P x))
    {xs : List α} {answers : Option (List β)} {w₀ : Workspace} (hw₀ : w₀.view = w.view)
    (h : collect f xs w₀ = .ok answers w') :
    (∀ ys, answers = some ys → List.Forall₂ S xs ys) ∧ (answers = none → ∃ x ∈ xs, P x) := by
  induction xs generalizing w₀ w' answers with
  | nil =>
      obtain ⟨rfl, -⟩ := pure_eq_ok_iff.mp h
      refine ⟨?_, by simp⟩
      rintro _ ⟨⟩
      exact .nil
  | cons x rest ih =>
      obtain ⟨answer, w₁, hx, h⟩ := bind_eq_ok_iff.mp h
      obtain ⟨hsome, hnone⟩ := hf x w₀ w₁ answer hw₀ hx
      cases answer with
      | none =>
          obtain ⟨rfl, -⟩ := pure_eq_ok_iff.mp h
          exact ⟨by simp, fun _ => ⟨x, by simp, hnone rfl⟩⟩
      | some y =>
          obtain ⟨more, w₂, hrest, h⟩ := bind_eq_ok_iff.mp h
          obtain ⟨rfl, -⟩ := pure_eq_ok_iff.mp h
          have hw₁ : w₁.view = w.view := ((hreads x).ok hx).view_eq.trans hw₀
          obtain ⟨rest_some, rest_none⟩ := ih hw₁ hrest
          constructor
          · intro ys hys
            obtain ⟨ys', hys', rfl⟩ := Option.map_eq_some_iff.mp hys
            exact .cons (hsome y rfl) (rest_some ys' hys')
          · intro hmore
            obtain ⟨x', hx', hP⟩ := rest_none (Option.map_eq_none_iff.mp hmore)
            exact ⟨x', by simp [hx'], hP⟩

/-- The bindings of variables that the patterns mention, and the other ones. -/
theorem partition_bindings_perm (q : PatternQuery) :
    let sorted := q.bindings.mergeSort fun a b => !(b.1 < a.1)
    let parts := sorted.partition fun entry => q.varNames.contains entry.1
    parts.1.Perm (q.bindings.filter fun entry => q.varNames.contains entry.1) ∧
      parts.2.Perm (q.bindings.filter fun entry => !q.varNames.contains entry.1) := by
  intro sorted parts
  have hsorted : sorted.Perm q.bindings := List.mergeSort_perm _ _
  have hparts : parts = (sorted.filter _, sorted.filter _) := List.partition_eq_filter_filter
  rw [hparts]
  exact ⟨hsorted.filter _, hsorted.filter _⟩

theorem collect_patterns_eq {ps : List Pattern} {answer : Option (List ResolvedPattern)}
    (h : collect (fun e => resolvePattern e.2 e.1) ps.zipIdx w = .ok answer w') :
    (∀ ps', answer = some ps' → List.Forall₂ (Pattern.ResolvesTo w.view) ps ps' ∧
      ps'.map ResolvedPattern.index = List.range ps'.length) ∧
      (answer = none → ∃ p ∈ ps, ¬p.AllStored w.view) := by
  have patterns_read : ∀ e : Pattern × Nat, Keeps Reads (resolvePattern e.2 e.1) :=
    fun e => resolvePattern_reads e.2 e.1
  obtain ⟨some_patterns, no_patterns⟩ :=
    collect_eq (w := w) (S := fun e p' => e.1.ResolvesTo w.view p' ∧ p'.index = e.2)
      (P := fun e => ¬e.1.AllStored w.view) patterns_read
      (fun e w₁ w₂ answer hw hanswer => hw ▸ resolvePattern_eq hanswer) rfl h
  refine ⟨fun ps' hps' => ⟨?_, ?_⟩, fun hnone => ?_⟩
  · rw [← List.zipIdx_map_fst 0 ps, List.forall₂_map_left_iff]
    exact (some_patterns ps' hps').imp fun _ _ h => h.1
  · have hindices : ps.zipIdx.map Prod.snd = ps'.map ResolvedPattern.index :=
      map_eq_of_forall₂ ((some_patterns ps' hps').imp fun _ _ h => h.2.symm)
    rw [← hindices, List.zipIdx_map_snd, ← (some_patterns ps' hps').length_eq,
      List.length_zipIdx, List.range_eq_range']
  · obtain ⟨e, he, hmissing⟩ := no_patterns hnone
    exact ⟨e.1, List.fst_mem_of_mem_zipIdx he, hmissing⟩

theorem resolveQuery_eq {q : PatternQuery} {answer : Option ResolvedQuery}
    (h : resolveQuery q w = .ok answer w') :
    (∀ q', answer = some q' → ∃ given, q.ResolvesTo w.view given q') ∧
      (answer = none → ¬q.AllStored w.view) := by
  obtain ⟨patterns, w₁, hpatterns, h⟩ := bind_eq_ok_iff.mp h
  have hw₁ : w₁.view = w.view :=
    ((collect_reads (fun e : Pattern × Nat => resolvePattern_reads e.2 e.1) _).ok
      hpatterns).view_eq
  obtain ⟨some_patterns, no_patterns⟩ := collect_patterns_eq hpatterns
  have values_eq : ∀ (e : String × Node) (w₁ w₂ : Workspace) (answer : Option (String × Int)),
      w₁.view = w.view → resolveValueOf e w₁ = .ok answer w₂ →
      (∀ e', answer = some e' → EntryResolvesTo w.view e e') ∧
        (answer = none → w.view.storedId? e.2 = none) :=
    fun e w₁ w₂ answer hw hanswer => hw ▸ resolveValueOf_eq hanswer
  cases patterns with
  | none =>
      obtain ⟨rfl, -⟩ := pure_eq_ok_iff.mp h
      refine ⟨by simp, fun _ hstored => ?_⟩
      obtain ⟨p, hp, hmissing⟩ := no_patterns rfl
      exact hmissing (hstored.patterns p hp)
  | some patterns =>
  obtain ⟨bindings, w₂, hbindings, h⟩ := bind_eq_ok_iff.mp h
  have hw₂ : w₂.view = w.view :=
    ((collect_reads resolveValueOf_reads _).ok hbindings).view_eq.trans hw₁
  obtain ⟨some_bindings, no_bindings⟩ := collect_eq resolveValueOf_reads values_eq hw₁ hbindings
  obtain ⟨perm_named, perm_others⟩ := partition_bindings_perm q
  cases bindings with
  | none =>
      obtain ⟨rfl, -⟩ := pure_eq_ok_iff.mp h
      refine ⟨by simp, fun _ hstored => ?_⟩
      obtain ⟨e, he, hmissing⟩ := no_bindings rfl
      obtain ⟨hmem, hname⟩ := List.mem_filter.mp (perm_named.mem_iff.mp he)
      exact hstored.bindings e.1 e.2 hmem (by simpa using hname) hmissing
  | some bindings =>
  obtain ⟨sameValues, w₃, hvalues, h⟩ := bind_eq_ok_iff.mp h
  obtain ⟨some_values, no_values⟩ := collect_eq resolveValueOf_reads values_eq hw₂ hvalues
  cases sameValues with
  | none =>
      obtain ⟨rfl, -⟩ := pure_eq_ok_iff.mp h
      refine ⟨by simp, fun _ hstored => ?_⟩
      obtain ⟨⟨name, n⟩, he, hmissing⟩ := no_values rfl
      exact hstored.sameValues name n (PatternQuery.mem_valueEntries_iff.mp he) hmissing
  | some sameValues =>
      obtain ⟨rfl, -⟩ := pure_eq_ok_iff.mp h
      refine ⟨?_, by simp⟩
      rintro _ ⟨⟩
      obtain ⟨hgiven, hindices⟩ := some_patterns _ rfl
      exact ⟨patterns, hgiven, hindices, .refl _, ⟨_, perm_named, some_bindings _ rfl⟩,
        perm_others, rfl, some_values _ rfl, rfl, rfl⟩

theorem reorderPatterns_eq {q q' : ResolvedQuery} (h : reorderPatterns q w = .ok q' w') :
    ∃ patterns, patterns.Perm q.patterns ∧ q' = { q with patterns } := by
  unfold reorderPatterns at h
  split at h
  · obtain ⟨rfl, -⟩ := pure_eq_ok_iff.mp h
    exact ⟨q.patterns, .refl _, rfl⟩
  · obtain ⟨counts, w₁, hcounts, h⟩ := bind_eq_ok_iff.mp h
    obtain ⟨rfl, -⟩ := pure_eq_ok_iff.mp h
    refine q.reordered_eq fun counted hcounted => ?_
    rw [hcounted] at hcounts
    have hsame := Keeps.mapM_eq_ok (R := Reads) (fun _ => keeps_view _) (attempt_eq_ok hcounts)
    exact hsame.length_eq.symm

theorem prepareQuery_eq {q : PatternQuery} {reorder : Bool} {answer : Option ResolvedQuery}
    (h : prepareQuery q reorder w = .ok answer w') :
    q.validate = .ok () ∧
      (∀ q', answer = some q' → ∃ given, q.ResolvesTo w.view given q') ∧
        (answer = none → ¬q.AllStored w.view) := by
  obtain ⟨_, w₁, hchecked, h⟩ := bind_eq_ok_iff.mp h
  obtain ⟨hvalid, rfl⟩ := ofExcept_eq_ok_iff.mp hchecked
  obtain ⟨resolved, w₂, hresolved, h⟩ := bind_eq_ok_iff.mp h
  obtain ⟨some_resolved, none_resolved⟩ := resolveQuery_eq hresolved
  refine ⟨hvalid, ?_⟩
  cases resolved with
  | none =>
      obtain ⟨rfl, -⟩ := pure_eq_ok_iff.mp h
      exact ⟨by simp, fun _ => none_resolved rfl⟩
  | some resolved =>
      obtain ⟨given, hgiven⟩ := some_resolved resolved rfl
      dsimp only at h
      split at h
      · rw [map_eq_pure_bind] at h
        obtain ⟨q', w₃, hq', h⟩ := bind_eq_ok_iff.mp h
        obtain ⟨rfl, -⟩ := pure_eq_ok_iff.mp h
        obtain ⟨patterns, hperm, rfl⟩ := reorderPatterns_eq hq'
        refine ⟨?_, by simp⟩
        rintro _ ⟨⟩
        exact ⟨given, { hgiven with order := hperm.trans hgiven.order }⟩
      · obtain ⟨rfl, -⟩ := pure_eq_ok_iff.mp h
        refine ⟨?_, by simp⟩
        rintro _ ⟨⟩
        exact ⟨given, hgiven⟩

end Action
end QuadStore
