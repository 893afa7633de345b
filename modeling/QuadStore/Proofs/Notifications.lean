import QuadStore.Proofs.OpenStores

namespace QuadStore.OpenStore

open Transaction

variable {s s' : OpenStore} {e : Event} {i : Nat}

theorem Step.events_eq (h : s.Step e s') (huncommitted : e.committed? = none) :
    s'.store.events = s.store.events := by
  cases h with
  | begin | clearCaches => rfl
  | evict hevicts => exact hevicts.loses.events
  | call c hx =>
      rename_i j x
      show (finalState (c.run x)).work.store.events = s.store.events
      rw [← store_of_scope? hx]
      rcases c.run_cases x with
        ⟨hadvances, -⟩ | ⟨refusal, y, rfl, hop, -⟩ | ⟨-, -, habandoned⟩
      · exact hadvances.works.events
      · rw [Call.run, hop] at huncommitted
        cases huncommitted
      · exact habandoned.events

theorem Good.events_of_committed (hs : s.Good) (h : s.Step e s')
    (hcommitted : e.committed? = some i) :
    ∃ event : ChangeEvent, event.IsDifference s.database.committed s'.database.committed ∧
      s'.store.events = if event.isEmpty then s.store.events else s.store.events ++ [event] := by
  obtain ⟨x, y, hx, rfl, -, hended⟩ := h.commits hcommitted
  rw [← store_of_scope? hx, ← database_of_scope? hx]
  have hlive : y.work.database.committed.liveIds = x.work.view.liveIds :=
    Tables.liveIds_congr hended.statements
  exact ⟨x.changes, (hs.scopes i x hx).account.congr hlive, hended.events⟩

variable {config : Config} {tables : Tables} {registryFile : RegistryFile} {labelStart : String}
variable {log : List Event}

/-- After every run, a commit that succeeds is told of once if a row is live after it
that was not live before or the other way round, by exactly these rows. Whatever else
happens is not told of. -/
theorem events_eq_difference (htables : tables.Sound)
    (h : (opened config tables registryFile labelStart).Run log s) (hstep : s.Step e s') :
    (e.committed? = none → s'.store.events = s.store.events) ∧
      (e.committed? = some i →
        s'.database.committed.liveIds = s.database.committed.liveIds ∧
            s'.store.events = s.store.events ∨
          s'.database.committed.liveIds ≠ s.database.committed.liveIds ∧
            ∃ event : ChangeEvent, s'.store.events = s.store.events ++ [event] ∧
              event.IsDifference s.database.committed s'.database.committed) := by
  refine ⟨hstep.events_eq, fun hcommitted => ?_⟩
  have hgood := (good_opened config htables registryFile labelStart).run h
  obtain ⟨event, hdifference, hevents⟩ := hgood.events_of_committed hstep hcommitted
  cases hempty : event.isEmpty with
  | true =>
      rw [hempty, if_pos rfl] at hevents
      exact .inl ⟨hdifference.isEmpty_iff.mp hempty, hevents⟩
  | false =>
      rw [hempty, if_neg (by simp)] at hevents
      refine .inr ⟨fun hsame => ?_, event, hevents, hdifference⟩
      rw [hdifference.isEmpty_iff.mpr hsame] at hempty
      cases hempty

/-- An addition is told of when it is committed. -/
theorem events_eq_difference_added :
    let a : Node := .uri "urn:a"
    let s := (opened {} {} [] "w").begin.after 0 (.add a a a none)
    ∃ event : ChangeEvent, (s.after 0 (.commit none)).store.events = [event] ∧
      event.IsDifference s.database.committed (s.after 0 (.commit none)).database.committed := by
  intro a s
  have hrun := Run.nil (s := opened {} {} [] "w") |>.snoc .begin |>.call 0 (.add a a a none)
  have hstep : s.Step _ (s.after 0 (.commit none)) := .call (.commit none) rfl
  rcases (events_eq_difference Tables.sound_empty hrun hstep).2 rfl with ⟨-, hsame⟩ | ⟨-, htold⟩
  · cases congrArg List.length hsame
  · exact htold

end QuadStore.OpenStore
