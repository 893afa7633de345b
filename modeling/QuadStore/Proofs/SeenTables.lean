import QuadStore.Proofs.OpenStores

namespace QuadStore

open Transaction

namespace OpenStore

variable {P : Tables → Prop} {s s' : OpenStore} {e : Event} {i : Nat} {x y : Scope}

/-- Whether something holds of the committed tables and of those that each transaction sees. -/
structure Everywhere (P : Tables → Prop) (s : OpenStore) : Prop where
  committed : P s.database.committed
  scopes : ∀ i x, s.scope? i = some x → P x.work.view

theorem everywhere_iff : s.Everywhere P ↔
    P s.database.committed ∧ ∀ t ∈ s.transactions, P (s.scopeOf t).work.view := by
  constructor
  · refine fun h => ⟨h.committed, fun t ht => ?_⟩
    obtain ⟨i, hi⟩ := List.mem_iff_getElem?.mp ht
    exact h.scopes i _ (by rw [scope?, hi, Option.map_some])
  · rintro ⟨hcommitted, hseen⟩
    refine ⟨hcommitted, fun i x hx => ?_⟩
    obtain ⟨t, ht, rfl⟩ := Option.map_eq_some_iff.mp hx
    exact hseen t (List.mem_of_getElem? ht)

instance [DecidablePred P] : Decidable (s.Everywhere P) :=
  decidable_of_iff _ everywhere_iff.symm

theorem Everywhere.imp {Q : Tables → Prop} (hs : s.Everywhere P) (h : ∀ t, P t → Q t) :
    s.Everywhere Q :=
  ⟨h _ hs.committed, fun i x hx => h _ (hs.scopes i x hx)⟩

theorem everywhere_within {w : Workspace} (hx : P x.work.view) (hw : P w.database.committed) :
    P (x.within w).work.view := by
  cases hwriting : x.work.conn.writing with
  | true => rwa [Scope.view_within_of_writing hwriting]
  | false => rwa [Scope.view_within_of_idle hwriting]

theorem Everywhere.put (hs : s.Everywhere P) (hx : s.scope? i = some x) (hy : P y.work.view)
    (hcommitted : P y.work.database.committed) : (s.put i y).Everywhere P := by
  refine ⟨hcommitted, fun j z hz => ?_⟩
  rcases scope?_put_eq_some hx hz with ⟨-, rfl⟩ | ⟨-, z', hz', rfl⟩
  · exact hy
  · exact everywhere_within (hs.scopes j z' hz') hcommitted

theorem Everywhere.of_put (h : (s.put i y).Everywhere P) (hcommitted : P s.database.committed)
    (hx : s.scope? i = some x) (hseen : P x.work.view) : s.Everywhere P := by
  refine ⟨hcommitted, fun j z hz => ?_⟩
  by_cases hj : j = i
  · subst hj
    rwa [Option.some.inj (hz.symm.trans hx)]
  · have hlater := h.scopes j (z.within y.work) (by rw [scope?_put_of_ne y hj, hz]; rfl)
    cases hwriting : z.work.conn.writing with
    | true => rwa [Scope.view_within_of_writing hwriting] at hlater
    | false => rwa [Workspace.view_eq_committed hwriting, database_of_scope? hz]

/-- Who has ended sees what is committed. -/
theorem Everywhere.put_ended (hs : s.Everywhere P) (hx : s.scope? i = some x) (h : Ended x y)
    (hcommitted : P y.work.database.committed) : (s.put i y).Everywhere P := by
  refine hs.put hx ?_ hcommitted
  rwa [Workspace.view_eq_committed (by simp [Connection.writing, h.pending])]

theorem Everywhere.withStore (hs : s.Everywhere P) (store : Store) :
    (s.withStore store).Everywhere P := by
  refine ⟨hs.committed, fun i x hx => ?_⟩
  obtain ⟨x', hx', rfl⟩ := of_scope?_withStore hx
  exact everywhere_within (hs.scopes i x' hx') hs.committed

theorem Everywhere.step (hs : s.Everywhere P) (h : s.Step e s')
    (hrows : ∀ t t' : Tables, t'.nodes = t.nodes → t'.statements = t.statements →
      t'.namespaces = t.namespaces → P t → P t')
    (hcall : ∀ {i before after c answer}, e = .call i before after c answer → c.ends = false →
      ∀ x, s.scope? i = some x → before = x.work.view → P x.work.view →
        P (finalState (c.run x)).work.view) : s'.Everywhere P := by
  cases h with
  | begin =>
      refine ⟨hs.committed, fun i x hx => ?_⟩
      rcases scope?_begin hx with ⟨x', hx', rfl⟩ | ⟨-, rfl⟩
      · exact everywhere_within (hs.scopes i x' hx') hs.committed
      · exact hs.committed
  | clearCaches | evict => exact hs.withStore _
  | call c hx =>
      rename_i i x
      have hcommitted : P x.work.database.committed := by
        rw [database_of_scope? hx]
        exact hs.committed
      have hview := hs.scopes i x hx
      rcases c.run_cases x with
        ⟨hadvances, hcase⟩ | ⟨refusal, y, rfl, hop, -, hended⟩ | ⟨-, -, habandoned⟩
      · refine hs.put hx ?_ (by rwa [hadvances.works.committed])
        rcases hcase with hends | hsame
        · exact hcall rfl hends x hx rfl hview
        · rwa [hsame]
      · rw [Call.run, hop]
        exact hs.put_ended hx hended.toEnded
          (hrows _ _ hended.nodes hended.statements hended.namespaces hview)
      · exact hs.put_ended hx habandoned.toEnded (by rwa [habandoned.committed])

end OpenStore
end QuadStore
