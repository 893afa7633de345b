import QuadStore.Proofs.Evolution
import QuadStore.Proofs.StoredIds

namespace QuadStore

/-- Whether the given nodes are stored under the ids of a statement. An absent node matches any
id, and one that is not stored matches none. -/
structure StatementKey.MatchesNodes (t : Tables) (subject predicate object context : Option Node)
    (k : StatementKey) : Prop where
  subject : ∀ n ∈ subject, t.storedId? n = some k.subject
  predicate : ∀ n ∈ predicate, t.storedId? n = some k.predicate
  object : ∀ n ∈ object, t.storedId? n = some k.object
  context : ∀ n ∈ context, t.storedId? n = some k.context

theorem StatementKey.MatchesNodes.stored {t : Tables}
    {subject predicate object context : Option Node}
    {k : StatementKey} (h : k.MatchesNodes t subject predicate object context) {n : Node}
    (hn : some n ∈ [subject, predicate, object, context]) : t.storedId? n ≠ none := by
  simp only [List.mem_cons, List.not_mem_nil, or_false] at hn
  rcases hn with rfl | rfl | rfl | rfl
  · simp [h.subject n rfl]
  · simp [h.predicate n rfl]
  · simp [h.object n rfl]
  · simp [h.context n rfl]

namespace Action

variable {w w' : Workspace}

/-- The id that a slot is fixed to. -/
def SlotId (t : Tables) (slot : Option Node) (id : Option Int) : Prop :=
  match slot with
  | none => id = none
  | some n => ∃ i, id = some i ∧ t.storedId? n = some i

theorem slotIds_eq_ok {slots : List (Option Node)} {answer : Option (List (Option Int))}
    (h : slotIds slots w = .ok answer w') :
    (∀ ids, answer = some ids → List.Forall₂ (SlotId w.view) slots ids) ∧
      (answer = none → ∃ n, some n ∈ slots ∧ w.view.storedId? n = none) := by
  induction slots generalizing w w' answer with
  | nil =>
      obtain ⟨rfl, -⟩ := pure_eq_ok_iff.mp h
      refine ⟨?_, by simp⟩
      rintro _ ⟨⟩
      exact .nil
  | cons slot rest ih =>
      cases slot with
      | none =>
          obtain ⟨more, w₁, hmore, h⟩ := bind_eq_ok_iff.mp h
          obtain ⟨rfl, -⟩ := pure_eq_ok_iff.mp h
          obtain ⟨some_ids, no_ids⟩ := ih hmore
          constructor
          · intro ids hids
            obtain ⟨ids', hids', rfl⟩ := Option.map_eq_some_iff.mp hids
            exact .cons rfl (some_ids ids' hids')
          · intro hnone
            obtain ⟨n, hn, hmissing⟩ := no_ids (Option.map_eq_none_iff.mp hnone)
            exact ⟨n, by simp [hn], hmissing⟩
      | some n =>
          obtain ⟨id, w₁, hid, h⟩ := bind_eq_ok_iff.mp h
          have hview : w₁.view = w.view := ((nodeId_reads n).ok hid).view_eq
          have hstored := nodeId_eq hid
          cases id with
          | none =>
              obtain ⟨rfl, -⟩ := pure_eq_ok_iff.mp h
              exact ⟨by simp, fun _ => ⟨n, by simp, hstored.symm⟩⟩
          | some id =>
              obtain ⟨more, w₂, hmore, h⟩ := bind_eq_ok_iff.mp h
              obtain ⟨rfl, -⟩ := pure_eq_ok_iff.mp h
              obtain ⟨some_ids, no_ids⟩ := ih hmore
              rw [hview] at some_ids no_ids
              constructor
              · intro ids hids
                obtain ⟨ids', hids', rfl⟩ := Option.map_eq_some_iff.mp hids
                exact .cons ⟨id, rfl, hstored.symm⟩ (some_ids ids' hids')
              · intro hnone
                obtain ⟨m, hm, hmissing⟩ := no_ids (Option.map_eq_none_iff.mp hnone)
                exact ⟨m, by simp [hm], hmissing⟩

theorem matchesNodes_iff {t : Tables} {subject predicate object context : Option Node}
    {ids : List (Option Int)}
    (h : List.Forall₂ (SlotId t) [subject, predicate, object, context] ids) {k : StatementKey} :
    k.Matches ids ↔ k.MatchesNodes t subject predicate object context := by
  obtain _ | ⟨hs, _ | ⟨hp, _ | ⟨ho, _ | ⟨hc, _ | _⟩⟩⟩⟩ := h
  rename_i s p o c
  have slot_iff : ∀ {slot : Option Node} {id : Option Int} {i : Int}, SlotId t slot id →
      (id.all (· == i) = true ↔ ∀ n ∈ slot, t.storedId? n = some i) := by
    intro slot id i hslot
    cases slot with
    | none =>
        obtain rfl := hslot
        simp
    | some n =>
        obtain ⟨i', rfl, hstored⟩ := hslot
        simp [hstored]
  have hall : k.Matches [s, p, o, c] ↔ s.all (· == k.subject) = true ∧
      p.all (· == k.predicate) = true ∧ o.all (· == k.object) = true ∧
        c.all (· == k.context) = true := by
    simp [StatementKey.Matches]
  rw [hall, slot_iff hs, slot_iff hp, slot_iff ho, slot_iff hc]
  constructor
  · rintro ⟨hs, hp, ho, hc⟩
    exact ⟨hs, hp, ho, hc⟩
  · rintro ⟨hs, hp, ho, hc⟩
    exact ⟨hs, hp, ho, hc⟩

/-- A list of statements comes from the live rows that match, one by one. -/
theorem listStatements_eq_ok {subject predicate object context : Option Node} {inferred : Bool}
    {found : List Statement} (hkeyed : w.store.caches.Keyed)
    (h : listStatements subject predicate object context inferred w = .ok found w') :
    ∃ rows : List StatementRow,
      List.Forall₂ (fun r t => t.id = r.id ∧ t.key = r.key) rows found ∧
        (∀ r, r ∈ rows ↔ r ∈ w.view.statements ∧ r.live = true ∧
          r.key.MatchesNodes w.view subject predicate object context ∧
            (inferred = true ∨ r.isInferred = false)) ∧
          ((w.view.statements.map StatementRow.id).Nodup → (rows.map StatementRow.id).Nodup) := by
  obtain ⟨ids, w₁, hids, h⟩ := bind_eq_ok_iff.mp h
  obtain ⟨some_ids, no_ids⟩ := slotIds_eq_ok hids
  have hreads := (slotIds_reads _).ok hids
  cases ids with
  | none =>
      obtain ⟨rfl, -⟩ := pure_eq_ok_iff.mp h
      obtain ⟨n, hn, hmissing⟩ := no_ids rfl
      refine ⟨[], .nil, fun r => ?_, fun _ => .nil⟩
      simp only [List.not_mem_nil, false_iff]
      rintro ⟨-, -, hmatch, -⟩
      exact hmatch.stored hn hmissing
  | some ids =>
      obtain ⟨rows, w₂, hrows, h⟩ := bind_eq_ok_iff.mp h
      obtain ⟨hfilter, rfl⟩ := view_eq_ok_iff.mp hrows
      rw [hreads.view_eq] at hfilter
      have hslots := some_ids ids rfl
      refine ⟨rows, ?_, ?_, ?_⟩
      · refine (Keeps.mapM_eq_ok statementOfRow_reads h).imp ?_
        rintro r t ⟨s₁, s₂, hreads', ht⟩
        obtain ⟨hid, hkey, -⟩ := statementOfRow_eq_ok (hreads'.keyed (hreads.keyed hkeyed)) ht
        exact ⟨hid, hkey⟩
      · intro r
        rw [← hfilter, List.mem_filter, Tables.liveStatements,
          List.mem_mergeSort, List.mem_filter,
          ← matchesNodes_iff hslots, ← StatementRow.hasIds_iff]
        simp [and_assoc]
      · intro hnodup
        rw [← hfilter]
        refine List.Nodup.sublist (List.Sublist.map _ List.filter_sublist) ?_
        rw [Tables.liveStatements]
        refine ((List.mergeSort_perm _ _).map _).nodup_iff.mpr ?_
        exact hnodup.sublist (List.Sublist.map _ List.filter_sublist)

end Action
end QuadStore
