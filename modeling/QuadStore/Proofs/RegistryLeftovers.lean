import QuadStore.Proofs.DeletedIds
import QuadStore.Proofs.LastingIds

namespace QuadStore

open Transaction
open QuadStore.Action (registered? Identified Stored SameRegistry withRegistered)

/-- The transaction that was answered with a statement that it had asked for or added. -/
def Happening.statement? : Happening → Option (Nat × Statement)
  | .step e => e.statement?
  | .lost _ | .shutdown => none

/-! What ids have been given to -/

/-- Whether the id of every row has been given to its statement. -/
def Tables.Given (t : Tables) (given : Int → StatementKey → Prop) : Prop :=
  ∀ r ∈ t.statements, given r.id r.key

/-- Whether ids have been given to one statement each, the counter has passed them, and what the
registry carries has been given. -/
structure Workspace.Gives (w : Workspace) (given : Int → StatementKey → Prop) : Prop where
  single : ∀ {id key key'}, given id key → given id key' → key = key'
  bounded : ∀ {id key}, given id key → id ≤ w.store.counters.statements
  carried : ∀ {key id}, w.Carries key id → given id key

/-- What has been given to statements stays so, and what is carried or seen
has been given by then. -/
structure Giving (given given' : Int → StatementKey → Prop) (w w' : Workspace) : Prop where
  kept : ∀ {id key}, given id key → given' id key
  gives : w'.Gives given'
  view : w'.view.Given given'

section

variable {given given' given'' : Int → StatementKey → Prop} {w w' w'' : Workspace} {t t' : Tables}
  {x y : Scope} {key : StatementKey} {id : Int}

theorem Tables.Given.mono (h : t.Given given) (hkept : ∀ {id key}, given id key → given' id key) :
    t.Given given' :=
  fun r hr => hkept (h r hr)

theorem Tables.Given.of_eq (h : t.Given given) (hsame : t'.statements = t.statements) :
    t'.Given given := by
  rw [Given, hsame]
  exact h

theorem Tables.Given.of_hasLive (h : t.Given given)
    (hlive : t.HasLive key id) : given id key := by
  obtain ⟨r, hr, -, rfl, rfl⟩ := hlive
  exact h r hr

theorem Tables.Given.evolve (h : t.Given given) (hevolves : t.Evolves t') (hsound : t'.Sound)
    (hids : ∀ r' ∈ t'.statements, r'.id ∈ t.statements.map StatementRow.id ∨ given r'.id r'.key) :
    t'.Given given := by
  intro r' hr'
  rcases hids r' hr' with hold | hgiven
  · obtain ⟨r, hr, hid⟩ := List.mem_map.mp hold
    obtain ⟨r₁, hr₁, hbecomes⟩ := hevolves r hr
    obtain rfl := hsound.row_eq hr' hr₁ (hid.symm.trans hbecomes.id.symm)
    rw [← hid, hbecomes.key]
    exact h r hr
  · exact hgiven

theorem Workspace.Gives.later (h : w.Gives given)
    (hcounter : w.store.counters.statements ≤ w'.store.counters.statements)
    (hcarries : ∀ {key id}, w'.Carries key id → w.Carries key id) : w'.Gives given :=
  ⟨h.single, fun hgiven => le_trans (h.bounded hgiven) hcounter,
    fun hcarried => h.carried (hcarries hcarried)⟩

theorem Workspace.Gives.of_conn (h : w.Gives given) (c : Connection) :
    Workspace.Gives { w with conn := c } given :=
  ⟨h.single, h.bounded, h.carried⟩

namespace Giving

theorem trans (h : Giving given given' w w') (h' : Giving given' given'' w' w'') :
    Giving given given'' w w'' :=
  ⟨fun hgiven => h'.kept (h.kept hgiven), h'.gives, h'.view⟩

theorem of_carries (hw : w.Gives given) (hview : w'.view.Given given)
    (hcounter : w.store.counters.statements ≤ w'.store.counters.statements)
    (hcarries : ∀ {key id}, w'.Carries key id → w.Carries key id) : Giving given given w w' :=
  ⟨fun hgiven => hgiven, hw.later hcounter hcarries, hview⟩

theorem of_quiet (hw : w.Gives given) (hview : w.view.Given given) (h : Quiet w w')
    (hregistry : SameRegistry w w') : Giving given given w w' := by
  refine .of_carries hw (hview.of_eq h.statements) h.toWorks.statementCounter fun hcarried => ?_
  rwa [Workspace.Carries, hregistry.1, hregistry.2] at hcarried

theorem of_silent (hw : w.Gives given) (hview : w.view.Given given) (h : Silent w w') :
    Giving given given w w' :=
  .of_quiet hw hview h.toQuiet h.sameRegistry

end Giving

theorem Action.Identified.giving (hw : w.Gives given) (hview : w.view.Given given)
    (h : Identified w key id w') : ∃ given', Giving given given' w w' ∧ given' id key := by
  cases h with
  | shared h =>
      have hcarries : w.Carries key id := Registry.carries_of_lookup? h
      refine ⟨given, .of_carries hw hview (withRegistered_quiet w key id).toWorks.statementCounter
        fun hcarried => ?_, hw.carried hcarries⟩
      rcases Registry.Carries.of_register hcarried with hold | ⟨rfl, rfl⟩
      · exact hold
      · exact hcarries
  | stored h hrow hreads =>
      have hlive : w.view.HasLive key id := hrow
      exact ⟨given, .of_silent hw hview hreads.silent, hview.of_hasLive hlive⟩
  | minted h hnew hid =>
      subst hid
      have hquiet := Identified.quiet (.minted h hnew rfl)
      refine ⟨fun i k => given i k ∨ i = w.store.counters.statements + 1 ∧ k = key,
        ⟨.inl, ⟨?_, ?_, ?_⟩, ?_⟩, .inr ⟨rfl, rfl⟩⟩
      · rintro i k k' (hold | ⟨rfl, rfl⟩) (hold' | ⟨hid, rfl⟩)
        · exact hw.single hold hold'
        · have hle := hw.bounded hold
          omega
        · have hle := hw.bounded hold'
          omega
        · rfl
      · rintro i k (hold | ⟨rfl, -⟩)
        · exact le_trans (hw.bounded hold) hquiet.toWorks.statementCounter
        · exact le_refl _
      · intro k i hcarried
        rcases Registry.Carries.of_register hcarried with hold | ⟨rfl, rfl⟩
        · exact .inl (hw.carried hold)
        · exact .inr ⟨rfl, rfl⟩
      · exact (hview.mono .inl).of_eq hquiet.statements

/-! Asking for statements, adding and removing them -/

theorem Transaction.Requested.giving (hw : w.Gives given) (hview : w.view.Given given)
    (h : Requested w w' key id) : ∃ given', Giving given given' w w' ∧ given' id key := by
  obtain ⟨w₁, hsilent, hidentified⟩ := h
  have hfirst := Giving.of_silent hw hview hsilent
  obtain ⟨given', hsecond, hgiven⟩ := hidentified.giving hfirst.gives hfirst.view
  exact ⟨given', hfirst.trans hsecond, hgiven⟩

theorem Transaction.Adds.giving {t : Statement} (hw : x.work.Gives given)
    (hview : x.work.view.Given given) (hcounted : x.work.Counted)
    (hvouches : x.work.Vouches x.work.view) (hgood : x.work.Good) (h : Adds x y t) :
    ∃ given', Giving given given' x.work y.work ∧ given' t.id t.key := by
  obtain ⟨w, t₁, added, hrequested, hkey, hstored, hworks, hregistry⟩ := h.stored
  obtain ⟨given', hfirst, hgiven⟩ := hrequested.giving hw hview
  obtain ⟨-, hreserves⟩ := hrequested.vouching hcounted hvouches hgood
  have hcarries : ∀ {k i}, y.work.Carries k i → w.Carries k i := fun hcarried => by
    rwa [Workspace.Carries, hregistry.1, hregistry.2] at hcarried
  have giving_of_view : y.work.view.Given given' →
      Giving given given' x.work y.work := fun hview' =>
    hfirst.trans (.of_carries hfirst.gives hview' hworks.statementCounter hcarries)
  cases hstored with
  | found hseen hrow =>
      have hlive : w.view.HasLive t₁.key t.id := hrow
      refine ⟨given', giving_of_view ?_, hkey ▸ hfirst.view.of_hasLive hlive⟩
      rw [hseen]
      exact hfirst.view
  | added hseen hnew hfresh hid =>
      have hid : t.id = t₁.id :=
        hid hreserves.nonneg fun hused => hnew (hreserves.live hused).mem_members
      rw [← hid, ← hkey] at hgiven
      refine ⟨given', giving_of_view ?_, hgiven⟩
      rw [hseen]
      intro r hr
      rcases List.mem_append.mp hr with hold | hlast
      · exact hfirst.view r hold
      · rw [List.mem_singleton.mp hlast, StatementRow.key_ofStatement]
        exact hgiven

theorem Transaction.Fails.giving (hw : x.work.Gives given) (hview : x.work.view.Given given)
    (h : Fails x y) : ∃ given', Giving given given' x.work y.work := by
  rcases h with hunder | ⟨w, key, id, hrequested, hunder⟩
  · exact ⟨given, .of_silent hw hview hunder.work⟩
  · obtain ⟨given', hfirst, -⟩ := hrequested.giving hw hview
    obtain ⟨hquiet, hregistry⟩ := hunder.work
    exact ⟨given', hfirst.trans (.of_quiet hfirst.gives hfirst.view hquiet hregistry)⟩

theorem Call.giving {c : Call} (hends : c.ends = false) (hw : x.work.Gives given)
    (hview : x.work.view.Given given) (hcounted : x.work.Counted)
    (hvouches : x.work.Vouches x.work.view) (hgood : x.work.Good) :
    ∃ given', Giving given given' x.work (finalState (c.run x)).work ∧
      ∀ number before after i t,
        (Event.call number before after c (answerOf (c.run x))).statement? = some (i, t) →
          given' t.id t.key := by
  cases hremoves : c.removes with
  | true =>
      cases c with
      | remove subject predicate object context =>
          have hdrops : Drops x.work
              (finalState (Transaction.remove subject predicate object context x)).work :=
            remove_rel (fun _ _ h => .of_silent h)
              (fun _ _ _ _ hid hrow h => Action.removeStatement_drops hid hrow h) hgood
          refine ⟨given, .of_carries hw ?_ hdrops.works.statementCounter
            fun hcarried => (hdrops.carries _ _ hcarried).1,
              fun _ _ _ _ _ hanswer => by cases hanswer⟩
          refine hview.evolve hdrops.works.evolves (hdrops.works.good hgood).sound fun r hr => ?_
          rw [← hdrops.ids]
          exact .inl (List.mem_map_of_mem hr)
      | _ => cases hremoves
  | false =>
      rcases Call.request_cases hends hremoves hgood with
        ⟨hsilent, hnone⟩ | ⟨-, ⟨t, hdone, hanswered⟩ | ⟨hfails, hfailed⟩⟩
      · refine ⟨given, .of_silent hw hview hsilent, fun number before after i t hanswer => ?_⟩
        cases hnone.symm.trans (Call.requests_of_answer hanswer).1
      · have hgiving : ∃ given', Giving given given' x.work (finalState (c.run x)).work ∧
            given' t.id t.key := by
          rcases hdone with hrequested | hadds
          · exact hrequested.giving hw hview
          · exact hadds.giving hw hview hcounted hvouches hgood
        obtain ⟨given', hgiving, hgiven⟩ := hgiving
        refine ⟨given', hgiving, fun number before after i t' hanswer => ?_⟩
        cases (hanswered number before after).symm.trans hanswer
        exact hgiven
      · obtain ⟨given', hgiving⟩ := hfails.giving hw hview
        refine ⟨given', hgiving, fun number before after i t hanswer => ?_⟩
        cases (hfailed number before after).symm.trans hanswer

end

/-! Registries of stores that are shut down -/

namespace Registry

variable {r : Registry} {rows : RegistryFile} {key : StatementKey} {id : Int}

theorem Carries.of_forgetCaches (h : r.forgetCaches.Carries rows key id) :
    r.Carries rows key id := by
  cases r with
  | cached registry known =>
      cases known with
      | true =>
          obtain ⟨e, he, -⟩ := h
          cases he
      | false => exact h
  | _ => exact h

end Registry

namespace OpenStore

variable {s s' : OpenStore} {m : Happening} {i : Nat} {x y : Scope} {P : Tables → Prop}
  {given : Int → StatementKey → Prop}

/-! Lost connections and shutdowns -/

theorem shared_put_lost (hx : s.scope? i = some x) :
    (s.put i x.lost).shared = { s.shared with database := (s.put i x.lost).database } := by
  obtain ⟨t, -, rfl⟩ := Option.map_eq_some_iff.mp hx
  unfold shared put
  rw [Scope.work_lost]
  rfl

theorem Everywhere.put_lost (hs : s.Everywhere P) (hx : s.scope? i = some x) :
    (s.put i x.lost).Everywhere P := by
  have hcommitted : P x.work.database.committed := by
    rw [database_of_scope? hx]
    exact hs.committed
  refine hs.put hx ?_ ?_
  · rwa [Scope.view_lost]
  · rwa [Scope.committed_lost]

theorem Everywhere.settled (hs : s.Everywhere P) (hcommitted : P s.settled.database.committed) :
    s.settled.Everywhere P := by
  refine ⟨hcommitted, fun i x hx => ?_⟩
  obtain ⟨x', hx', rfl⟩ := scope?_settled_eq_some hx
  exact everywhere_within (hs.scopes i x' hx') hcommitted

theorem Vouched.put_lost (hs : s.Vouched) (hx : s.scope? i = some x) :
    (s.put i x.lost).Vouched := by
  obtain ⟨⟨hcounter, hbounded, hinjective⟩, htables⟩ := hs
  constructor <;> rw [shared_put_lost hx]
  · exact ⟨hcounter, hbounded, hinjective⟩
  · exact (htables.imp fun _ ht => ⟨ht.bounded, ht.live⟩).put_lost hx

theorem carries_settled {key : StatementKey} {id : Int} (h : s.settled.shared.Carries key id) :
    s.shared.Carries key id :=
  Registry.Carries.of_forgetCaches h

theorem Vouched.settled (hs : s.Vouched) : s.settled.Vouched := by
  obtain ⟨⟨hcounter, hbounded, hinjective⟩, htables⟩ := hs
  refine ⟨⟨hcounter, fun _ _ h => hbounded _ _ (carries_settled h),
    fun _ _ _ h h' => hinjective _ _ _ (carries_settled h) (carries_settled h')⟩, ?_⟩
  have hlater : s.Everywhere fun t => s.settled.shared.Vouches t :=
    htables.imp fun _ ht => ⟨ht.bounded, fun _ _ h => ht.live _ _ (carries_settled h)⟩
  exact hlater.settled (hlater.committed.congr rfl)

theorem Vouched.happens (hs : s.Vouched) (hgood : s.Good) (h : s.Happens m s') : s'.Vouched := by
  cases h with
  | step hstep => exact hs.step hgood hstep
  | lost hx => exact hs.put_lost hx
  | shutdown =>
      rcases s.shutdown_cases with ⟨-, heq⟩ | heq <;> rw [heq]
      · exact hs.settled
      · exact hs

/-! What a store gives -/

/-- Whether ids have been given to one statement each, by the registry and by
the rows that are seen. -/
structure Gives (s : OpenStore) (given : Int → StatementKey → Prop) : Prop where
  shared : s.shared.Gives given
  tables : s.Everywhere fun t => t.Given given

theorem Gives.of_scope? (hs : s.Gives given) (hx : s.scope? i = some x) : x.work.Gives given := by
  rw [work_of_scope? hx]
  exact hs.shared.of_conn _

theorem Gives.put {given' : Int → StatementKey → Prop} (hs : s.Gives given)
    (hx : s.scope? i = some x) (h : Giving given given' x.work y.work)
    (hcommitted : y.work.database.committed = x.work.database.committed) :
    (s.put i y).Gives given' := by
  have htables : s.Everywhere fun t => t.Given given' := hs.tables.imp fun _ ht => ht.mono h.kept
  refine ⟨h.gives.of_conn _, htables.put hx h.view ?_⟩
  rw [hcommitted, database_of_scope? hx]
  exact htables.committed

theorem Gives.put_ended (hs : s.Gives given) (hx : s.scope? i = some x) (h : Ended x y)
    (hcommitted : y.work.database.committed.Given given) :
    (s.put i y).Gives given := by
  have hcarries : ∀ {key id}, y.work.Carries key id → x.work.Carries key id := by
    intro key id hcarried
    have hreleased : (y.work.store.registry, y.work.registryFile) = _ := h.registry
    rw [Workspace.Carries, (Prod.mk.inj hreleased).1, (Prod.mk.inj hreleased).2] at hcarried
    exact hcarried.of_release
  refine ⟨((hs.of_scope? hx).later ?_ hcarries).of_conn _, hs.tables.put_ended hx h hcommitted⟩
  rw [h.counters]

theorem Gives.loses {store : Store} (hs : s.Gives given) (h : s.store.Loses store) :
    (s.withStore store).Gives given :=
  ⟨⟨hs.shared.single, h.counters ▸ hs.shared.bounded, fun hcarried =>
    hs.shared.carried (carries_of_loses h hcarried)⟩, hs.tables.withStore store⟩

theorem Gives.step {e : Event} (hs : s.Gives given) (hgood : s.Good) (hvouched : s.Vouched)
    (h : s.Step e s') : ∃ given', (∀ {id key}, given id key → given' id key) ∧ s'.Gives given' ∧
      ∀ i t, e.statement? = some (i, t) → given' t.id t.key := by
  cases h with
  | begin =>
      refine ⟨given, id, ⟨⟨hs.shared.single, hs.shared.bounded, hs.shared.carried⟩, ?_⟩,
        fun _ _ hanswer => by cases hanswer⟩
      exact hs.tables.step .begin (fun _ _ _ hsame _ ht => ht.of_eq hsame) nofun
  | clearCaches =>
      exact ⟨given, id, hs.loses (.clearCaches _), fun _ _ hanswer => by cases hanswer⟩
  | evict hevicts =>
      exact ⟨given, id, hs.loses hevicts.loses, fun _ _ hanswer => by cases hanswer⟩
  | @call i x c hx =>
      have hview := hs.tables.scopes i x hx
      cases hends : c.ends with
      | false =>
          obtain ⟨hcounted, htables⟩ := hvouched.of_scope? hx
          obtain ⟨given', hgiving, hanswer⟩ := Call.giving hends (hs.of_scope? hx) hview hcounted
            (htables.scopes i x hx) (hgood.scopes i x hx).work
          exact ⟨given', hgiving.kept, hs.put hx hgiving (Call.advances hends x).works.committed,
            hanswer _ _ _⟩
      | true =>
          refine ⟨given, id, ?_, fun j t hanswer => ?_⟩
          · rcases c.run_cases x with
              ⟨-, hends' | hsame⟩ | ⟨refusal, y, rfl, hop, -, hended⟩ | ⟨-, -, habandoned⟩
            · cases hends.symm.trans hends'
            · rw [hsame]
              exact hs.put hx (.of_silent (hs.of_scope? hx) hview (refl x.work)) rfl
            · rw [Call.run, hop]
              exact hs.put_ended hx hended.toEnded
                (hview.of_eq hended.statements)
            · refine hs.put_ended hx habandoned.toEnded ?_
              rw [habandoned.committed, database_of_scope? hx]
              exact hs.tables.committed
          · cases hends.symm.trans (Call.requests_of_answer hanswer).2.1

theorem Gives.happens (hs : s.Gives given) (hgood : s.Good) (hvouched : s.Vouched)
    (h : s.Happens m s') :
    ∃ given', (∀ {id key}, given id key → given' id key) ∧ s'.Gives given' ∧
      ∀ i t, m.statement? = some (i, t) → given' t.id t.key := by
  cases h with
  | step hstep => exact hs.step hgood hvouched hstep
  | lost hx =>
      refine ⟨given, id, ⟨?_, hs.tables.put_lost hx⟩, fun _ _ hanswer => by cases hanswer⟩
      rw [shared_put_lost hx]
      exact ⟨hs.shared.single, hs.shared.bounded, hs.shared.carried⟩
  | shutdown =>
      refine ⟨given, id, ?_, fun _ _ hanswer => by cases hanswer⟩
      rcases s.shutdown_cases with ⟨-, heq⟩ | heq <;> rw [heq]
      · exact ⟨⟨hs.shared.single, hs.shared.bounded,
          fun h => hs.shared.carried (carries_settled h)⟩,
          hs.tables.settled (hs.tables.committed.of_eq rfl)⟩
      · exact hs

theorem Vouched.exists_gives {config : Config} {tables : Tables} {registryFile : RegistryFile}
    {labelStart : String} (hgood : (opened config tables registryFile labelStart).Good)
    (h : (opened config tables registryFile labelStart).Vouched) :
    ∃ given, (opened config tables registryFile labelStart).Gives given := by
  obtain ⟨hcounted, hcommitted, -⟩ := h
  have carried_row : ∀ {key : StatementKey} {r : StatementRow},
      r ∈ (opened config tables registryFile labelStart).database.committed.statements →
        (opened config tables registryFile labelStart).shared.Carries key r.id → key = r.key := by
    intro key r hr hcarried
    obtain ⟨r', hr', -, rfl, hid⟩ := hcommitted.live key r.id hcarried (List.mem_map_of_mem hr)
    rw [hgood.sound.row_eq hr' hr hid]
  refine ⟨fun id key => (opened config tables registryFile labelStart).shared.Carries key id ∨
    ∃ r ∈ (opened config tables registryFile labelStart).database.committed.statements,
      r.id = id ∧ r.key = key, ⟨?_, ?_, .inl⟩, fun r hr =>
        .inr ⟨r, hr, rfl, rfl⟩, by rintro i x ⟨⟩⟩
  · rintro id key key' (hcarried | ⟨r, hr, rfl, rfl⟩) (hcarried' | ⟨r', hr', hid, rfl⟩)
    · exact hcounted.injective key key' id hcarried hcarried'
    · exact carried_row hr' (hid ▸ hcarried)
    · exact (carried_row hr hcarried').symm
    · rw [hgood.sound.row_eq hr hr' hid.symm]
  · rintro id key (hcarried | ⟨r, hr, rfl, -⟩)
    · exact (hcounted.bounded key id hcarried).2
    · exact hcommitted.bounded r.id (List.mem_map_of_mem hr)

theorem Gives.happenings {ms : List Happening} (hs : s.Gives given) (hgood : s.Good)
    (hvouched : s.Vouched) (h : s.Happenings ms s') :
    s'.Good ∧ s'.Vouched ∧ ∃ given', s'.Gives given' ∧
      ∀ m ∈ ms, ∀ i t, m.statement? = some (i, t) → given' t.id t.key := by
  induction h with
  | nil => exact ⟨hgood, hvouched, given, hs, by simp⟩
  | snoc _ hm ih =>
      obtain ⟨hgood, hvouched, given₁, hgives, hanswered⟩ := ih
      obtain ⟨given₂, hkept, hgives₂, hanswer⟩ := hgives.happens hgood hvouched hm
      refine ⟨hgood.happens hm, hvouched.happens hgood hm, given₂, hgives₂, fun m hm i t h => ?_⟩
      rcases List.mem_append.mp hm with hbefore | hlast
      · exact hkept (hanswered m hbefore i t h)
      · rw [List.mem_singleton.mp hlast] at h
        exact hanswer i t h

end OpenStore

/-! Registry files -/

/-- Whether the rows of a registry file may stand beside the rows of some tables: each
id in it is that of one statement, and if a row of the tables has it then that is the
live one of the statement. -/
structure RegistryFile.Fits (file : RegistryFile) (tables : Tables) : Prop where
  single : ∀ row ∈ file, ∀ row' ∈ file, row.statement = row'.statement → row.key = row'.key
  nonneg : ∀ row ∈ file, 0 ≤ row.statement
  live : ∀ row ∈ file, row.statement ∈ tables.statements.map StatementRow.id →
    tables.HasLive row.key row.statement

/-- Whether the counter of a store that is opened on some files has passed
the ids in its registry. -/
def RegistryFile.Passed (file : RegistryFile) (tables : Tables) : Prop :=
  ∀ row ∈ file, row.statement ≤ Counters.resume tables .statements

instance (file : RegistryFile) (tables : Tables) : Decidable (file.Passed tables) :=
  inferInstanceAs (Decidable (∀ row ∈ file, row.statement ≤ Counters.resume tables .statements))

namespace OpenStore

variable {s s' : OpenStore} {m : Happening} {config : Config} {tables : Tables}
  {registryFile : RegistryFile} {labelStart : String}

theorem carries_iff_row (hregistry : s.store.registry = .file) {key : StatementKey} {id : Int} :
    s.shared.Carries key id ↔ ∃ row ∈ s.registryFile, row.key = key ∧ row.statement = id := by
  show s.store.registry.Carries s.registryFile key id ↔ _
  rw [hregistry, Registry.carries_file_iff]
  exact ⟨fun ⟨_, hrow⟩ => ⟨_, hrow, rfl, rfl⟩, fun ⟨row, hrow, hkey, hid⟩ =>
    ⟨row.transaction, by rwa [← hkey, ← hid]⟩⟩

theorem carries_row (hregistry : s.store.registry = .file) {row : RegistryRow}
    (hrow : row ∈ s.registryFile) : s.shared.Carries row.key row.statement :=
  (carries_iff_row hregistry).mpr ⟨row, hrow, rfl, rfl⟩

theorem Vouched.fits (hs : s.Vouched) (hregistry : s.store.registry = .file) :
    s.registryFile.Fits s.database.committed := by
  refine ⟨fun row hrow row' hrow' hid => ?_, fun row hrow => ?_, fun row hrow => ?_⟩
  · exact hs.counted.injective _ _ _ (carries_row hregistry hrow)
      (hid ▸ carries_row hregistry hrow')
  · exact (hs.counted.bounded _ _ (carries_row hregistry hrow)).1
  · exact hs.tables.committed.live _ _ (carries_row hregistry hrow)

theorem registry_opened (hregistry : config.registry = .database) :
    (opened config tables registryFile labelStart).store.registry = .file := by
  show Registry.make config = .file
  rw [Registry.make, hregistry]

theorem vouched_of_fits (hregistry : config.registry = .database) (hsound : tables.Sound)
    (hfits : registryFile.Fits tables) (hpassed : registryFile.Passed tables) :
    (opened config tables registryFile labelStart).Vouched := by
  have exists_row : ∀ key id,
      (opened config tables registryFile labelStart).shared.Carries key id →
      ∃ row ∈ registryFile, row.key = key ∧ row.statement = id :=
    fun _ _ => (carries_iff_row (registry_opened hregistry)).mp
  have hcounter : (opened config tables registryFile
      labelStart).shared.store.counters.statements =
      Counters.resume tables .statements :=
        current_opened config tables registryFile labelStart .statements
  refine ⟨⟨(good_opened config hsound registryFile labelStart).counter,
    fun key id hcarried => ?_, fun key key' id hcarried hcarried' => ?_⟩,
      ⟨?_, fun key id hcarried => ?_⟩,
    by rintro i x ⟨⟩⟩
  · obtain ⟨row, hrow, -, rfl⟩ := exists_row key id hcarried
    exact ⟨hfits.nonneg row hrow, hcounter ▸ hpassed row hrow⟩
  · obtain ⟨row, hrow, rfl, rfl⟩ := exists_row key id hcarried
    obtain ⟨row', hrow', rfl, hid⟩ := exists_row key' row.statement hcarried'
    exact hfits.single row hrow row' hrow' hid.symm
  · exact fun id hid => le_trans (Tables.le_greatestId hid) (le_max_right _ _)
  · obtain ⟨row, hrow, rfl, rfl⟩ := exists_row key id hcarried
    show row.statement ∈ tables.prepare.statements.map StatementRow.id →
      tables.prepare.HasLive row.key row.statement
    rw [tables.statements_prepare, Tables.hasLive_congr tables.statements_prepare]
    exact hfits.live row hrow

theorem Vouched.passed_shutdown (hs : s.Vouched) (hregistry : s.store.registry = .file)
    (hfree : s.database.locked = false) :
    s.shutdown.registryFile.Passed s.shutdown.database.committed := by
  rw [shutdown_of_free hfree]
  intro row hrow
  exact le_trans (hs.counted.bounded _ _ (carries_row hregistry hrow)).2
    (Counters.current_le_resume s.store.counters s.database.committed .statements)

end OpenStore

/-- Whether the registry of a store that is opened is in its file, and its counter has passed the
ids in it. The file is not replaced. -/
def FileChange.PassesRegistered : FileChange → Prop
  | .opening config tables registryFile _ =>
      config.registry = .database ∧ registryFile.Passed tables
  | .work _ => True
  | .leaving => True
  | .replaced _ => False

instance (c : FileChange) : Decidable c.PassesRegistered :=
  match c with
  | .opening config tables registryFile _ =>
      inferInstanceAs (Decidable (config.registry = .database ∧ registryFile.Passed tables))
  | .work _ => .isTrue trivial
  | .leaving => .isTrue trivial
  | .replaced _ => .isFalse id

namespace Files

variable {p p' : Files} {log : List FileChange} {c : FileChange}

/-- Whether the registry file fits the tables, and so does the registry of an
open store what is seen. -/
def Fits : Files → Prop
  | closed tables registryFile => tables.Sound ∧ registryFile.Fits tables
  | opened s => s.Good ∧ s.Vouched ∧ s.store.registry = .file

theorem Fits.step (hp : p.Fits) (h : Step p c p') (hpasses : c.PassesRegistered) : p'.Fits := by
  cases h with
  | opening config labelStart =>
      obtain ⟨hsound, hfits⟩ := hp
      obtain ⟨hregistry, hpassed⟩ := hpasses
      exact ⟨OpenStore.good_opened config hsound _ labelStart,
        OpenStore.vouched_of_fits hregistry hsound hfits hpassed,
          OpenStore.registry_opened hregistry⟩
  | work h =>
      obtain ⟨hgood, hvouched, hregistry⟩ := hp
      exact ⟨hgood.happens h, hvouched.happens hgood h, h.registry hregistry⟩
  | leaving =>
      obtain ⟨hgood, hvouched, hregistry⟩ := hp
      exact ⟨hgood.sound, hvouched.fits hregistry⟩
  | replaced => exact hpasses.elim

theorem Fits.run (hp : p.Fits) (h : Run p log p') (hpasses : ∀ c ∈ log, c.PassesRegistered) :
    p'.Fits := by
  induction h with
  | nil => exact hp
  | snoc hrun hstep ih =>
      obtain ⟨hbefore, hlast⟩ := List.forall_mem_append.mp hpasses
      exact (ih hbefore).step hstep (hlast _ (by simp))

/-- Stores with the registry in its file are opened on some files one after the other, and their
transactions may be lost and the stores go away without releasing what was registered. If every
counter has passed at the opening the ids in the registry file, then who asks for a statement or
adds one is not answered with an id that any transaction of the store was answered with for
another statement, nor with the id of the row of another statement, be it committed or written
by an open transaction. -/
theorem ids_given_once {tables tables' : Tables} (hsound : tables.Sound)
    (hrun : (closed tables []).Run log p)
    (hpasses : ∀ c ∈ log, c.PassesRegistered) {config : Config}
    {registryFile : RegistryFile} {labelStart : String} {s₀ s s' : OpenStore}
    (hopening : p.Step (.opening config tables' registryFile labelStart) (.opened s₀))
    (hpassed : FileChange.PassesRegistered (.opening config tables' registryFile labelStart))
    {ms : List Happening} (hms : s₀.Happenings ms s) {m : Happening}
    (hm : s.Happens m s') {i : Nat} {t : Statement} (hanswer : m.statement? = some (i, t)) :
    (∀ m' ∈ ms, ∀ j u, m'.statement? = some (j, u) → u.id = t.id → u.key = t.key) ∧
      s'.Everywhere fun seen => ∀ r ∈ seen.statements, r.id = t.id → r.key = t.key := by
  have hempty : Files.Fits (closed tables []) := ⟨hsound, by simp, by simp, by simp⟩
  obtain ⟨hgood, hvouched, -⟩ := (hempty.run hrun hpasses).step hopening hpassed
  cases hopening
  obtain ⟨given, hgives⟩ := hvouched.exists_gives hgood
  obtain ⟨hgood', hvouched', given₁, hgives₁, hanswered⟩ := hgives.happenings hgood hvouched hms
  obtain ⟨given₂, hkept, hgives₂, hgiven⟩ := hgives₁.happens hgood' hvouched' hm
  refine ⟨fun m' hm' j u hu hid => ?_, hgives₂.tables.imp fun seen hseen r hr hid => ?_⟩
  · have hold := hkept (hanswered m' hm' j u hu)
    rw [hid] at hold
    exact hgives₂.shared.single hold (hgiven i t hanswer)
  · have hrow := hseen r hr
    rw [hid] at hrow
    exact hgives₂.shared.single hrow (hgiven i t hanswer)

/-- A connection is lost after it has been answered with a statement, and the files are opened
again after another transaction has committed: statements are given ids of their own. -/
theorem leftover_id_given_once :
    let config : Config := { registry := .database }
    let a : Node := .uri "urn:a"
    let b : Node := .uri "urn:b"
    let c : Node := .uri "urn:c"
    let left := (OpenStore.opened config {} [] "v").begin |>.after 0 (.add a b c none)
      |>.after 0 (.commit none) |>.begin |>.after 1 (.statement a a b none) |>.lose 1 |>.begin
      |>.after 2 (.add c c c none) |>.after 2 (.commit none)
    let later := (OpenStore.opened config left.database.committed left.registryFile "w").begin
    left.registryFile = [⟨⟨1, 1, 2, 4⟩, 2, 2⟩] ∧ ∃ x, later.scope? 0 = some x ∧
      (answerOf ((Call.statement a a c none).run x)).toOption.map
        Statement.key = some ⟨1, 1, 3, 4⟩ ∧
      (answerOf ((Call.statement a a b none).run
        (finalState ((Call.statement a a c none).run x)))).toOption.map Statement.key =
          some ⟨1, 1, 2, 4⟩ ∧
      ∀ t u, answerOf ((Call.statement a a c none).run x) = .ok t →
        answerOf ((Call.statement a a b none).run
          (finalState ((Call.statement a a c none).run x))) =
          .ok u → u.id ≠ t.id := by
  intro config a b c left later
  have hleft := Run.nil (p := closed {} []) |>.snoc (.opening config "v")
    |>.events (OpenStore.Run.nil |>.snoc .begin
      |>.call 0 (.add a b c none) |>.call 0 (.commit none)
      |>.snoc .begin |>.call 1 (.statement a a b none))
    |>.lose 1 (by decide +kernel)
    |>.events (OpenStore.Run.nil |>.snoc .begin
      |>.call 2 (.add c c c none) |>.call 2 (.commit none))
    |>.snoc .leaving
  obtain ⟨x, hx⟩ := Option.isSome_iff_exists.mp (by decide +kernel : (later.scope? 0).isSome)
  have hkeys : (later.scope? 0).all fun x =>
      (answerOf ((Call.statement a a c none).run x)).toOption.map
        Statement.key = some ⟨1, 1, 3, 4⟩ ∧
        (answerOf ((Call.statement a a b none).run
          (finalState ((Call.statement a a c none).run x)))).toOption.map Statement.key =
            some ⟨1, 1, 2, 4⟩ := by decide +kernel
  rw [hx, Option.all_some, decide_eq_true_iff] at hkeys
  refine ⟨by decide +kernel, x, hx, hkeys.1, hkeys.2, fun t u ht hu hid => ?_⟩
  have hfirst := OpenStore.Step.call (.statement a a c none) hx
  have hsecond := OpenStore.Step.call (.statement a a b none)
    (OpenStore.scope?_put_self (y := finalState ((Call.statement a a c none).run x)) hx)
  have hsame := (ids_given_once Tables.sound_empty hleft (by decide +kernel) (.opening config "w")
    (by decide +kernel) (.events .nil (.snoc (.snoc .nil .begin) hfirst)) (.step hsecond)
    (i := 0) (t := u) (by rw [hu]; rfl)).1 (.step (.call 0 _ _ _ _))
    (List.mem_append_right _ (List.mem_map_of_mem (List.mem_append_right _ List.mem_cons_self)))
    0 t (by rw [ht]; rfl) hid.symm
  rw [ht, hu] at hkeys
  have hkey : t.key = ⟨1, 1, 3, 4⟩ := Option.some.inj hkeys.1
  have hkey' : u.key = ⟨1, 1, 2, 4⟩ := Option.some.inj hkeys.2
  rw [hkey, hkey'] at hsame
  exact absurd hsame (by decide)

/-- A connection is lost after it has been answered with a statement and the files are
opened again: a transaction is answered with the same id for another statement, and
then also for that one. -/
theorem leftover_id_given_twice :
    let config : Config := { registry := .database }
    let a : Node := .uri "urn:a"
    let b : Node := .uri "urn:b"
    let c : Node := .uri "urn:c"
    let left := (OpenStore.opened config {} [] "v").begin |>.after 0 (.add a b c none)
      |>.after 0 (.commit none) |>.begin |>.after 1 (.statement a a b none) |>.lose 1
    let later := (OpenStore.opened config left.database.committed left.registryFile "w").begin
    let answered (s : OpenStore) (o : Node) := (s.scope? 0).bind fun x =>
      (answerOf ((Call.statement a a o none).run x)).toOption.map fun t => (t.id, t.key)
    (∃ log, (closed {} []).Run log (opened later)) ∧ answered later c = some (2, ⟨1, 1, 3, 4⟩) ∧
      answered (later.after 0 (.statement a a c none)) b = some (2, ⟨1, 1, 2, 4⟩) := by
  intro config a b c left later answered
  have hleft := Run.nil (p := closed {} []) |>.snoc (.opening config "v")
    |>.events (OpenStore.Run.nil |>.snoc .begin
      |>.call 0 (.add a b c none) |>.call 0 (.commit none)
      |>.snoc .begin |>.call 1 (.statement a a b none))
    |>.lose 1 (by decide +kernel)
  have hlater := hleft.snoc .leaving |>.snoc (.opening config "w")
    |>.events (OpenStore.Run.nil |>.snoc .begin)
  exact ⟨⟨_, hlater⟩, by decide +kernel, by decide +kernel⟩

end Files
end QuadStore
