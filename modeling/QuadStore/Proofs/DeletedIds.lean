import QuadStore.Proofs.RegistryEntries
import QuadStore.Proofs.UndoneRemovals

namespace QuadStore

open Transaction
open QuadStore.Action (registered? Identified Stored SameRegistry withRegistered)

theorem Tables.Evolves.deleted {t t' : Tables} (h : t.Evolves t') {id : Int}
    (hdeleted : t.HasDeleted id) :
    t'.HasDeleted id := by
  obtain ⟨r, hr, hdead, rfl⟩ := hdeleted
  obtain ⟨r', hr', hbecomes⟩ := h r hr
  refine ⟨r', hr', ?_, hbecomes.id⟩
  cases hlive : r'.live with
  | false => rfl
  | true => exact (hbecomes.live hlive).symm.trans hdead

theorem Tables.Sound.not_deleted_of_live {t : Tables} (h : t.Sound)
    {key : StatementKey} {id : Int} (hlive : t.HasLive key id) : ¬t.HasDeleted id := by
  rintro ⟨r, hr, hdead, hid⟩
  obtain ⟨r', hr', hlive', -, hid'⟩ := hlive
  rw [h.row_eq hr hr' (hid.trans hid'.symm), hlive'] at hdead
  cases hdead

theorem Tables.HasDeleted.mem_ids {t : Tables} {id : Int} (h : t.HasDeleted id) :
    id ∈ t.statements.map StatementRow.id := by
  obtain ⟨r, hr, -, rfl⟩ := h
  exact List.mem_map_of_mem hr

namespace Workspace

/-- Whether an entry of the registry carries an id. -/
def Carries (w : Workspace) (key : StatementKey) (id : Int) : Prop :=
  w.store.registry.Carries w.registryFile key id

/-- Whether the entries of the registry carry ids that the counter has reached, for each
statement one of its own. -/
structure Counted (w : Workspace) : Prop where
  counter : 0 ≤ w.store.counters.statements
  bounded : ∀ key id, w.Carries key id → 0 ≤ id ∧ id ≤ w.store.counters.statements
  injective : ∀ key key' id, w.Carries key id → w.Carries key' id → key = key'

/-- Whether the entries of the registry may stand beside the rows of some tables: the counter has
reached all rows, and a row whose id is carried is the live one of the statement. -/
structure Vouches (w : Workspace) (t : Tables) : Prop where
  bounded : ∀ id ∈ t.statements.map StatementRow.id, id ≤ w.store.counters.statements
  live : ∀ key id, w.Carries key id → id ∈ t.statements.map StatementRow.id → t.HasLive key id

/-- Whether an id is given to one statement only, by the entries and by the rows that are seen. -/
structure Reserves (w : Workspace) (key : StatementKey) (id : Int) : Prop where
  nonneg : 0 ≤ id
  bounded : id ≤ w.store.counters.statements
  carried : ∀ k, w.Carries k id → k = key
  live : id ∈ w.view.statements.map StatementRow.id → w.view.HasLive key id

variable {w w' : Workspace} {t t' : Tables} {key : StatementKey} {id : Int}

theorem Vouches.congr (h : w.Vouches t) (hsame : t'.statements = t.statements) :
    w.Vouches t' := by
  constructor
  · rw [hsame]
    exact h.bounded
  · intro key id hcarries hid
    rw [hsame] at hid
    exact (Tables.hasLive_congr hsame).mpr (h.live key id hcarries hid)

theorem Vouches.of_conn (h : w.Vouches t) (c : Connection) : Vouches { w with conn := c } t :=
  ⟨h.bounded, h.live⟩

theorem Counted.of_conn (h : w.Counted) (c : Connection) : Counted { w with conn := c } :=
  ⟨h.counter, h.bounded, h.injective⟩

theorem Vouches.later (h : w.Vouches t)
    (hcounter : w.store.counters.statements ≤ w'.store.counters.statements)
    (hcarries : ∀ key id, w'.Carries key id →
      w.Carries key id ∨ w.store.counters.statements < id) : w'.Vouches t := by
  refine ⟨fun id hid => le_trans (h.bounded id hid) hcounter, fun key id hcarried hid => ?_⟩
  rcases hcarries key id hcarried with hold | hnew
  · exact h.live key id hold hid
  · have hle := h.bounded id hid
    omega

theorem Vouches.withStatement (h : w.Vouches t) {row : StatementRow} (hlive : row.live = true)
    (hbounded : row.id ≤ w.store.counters.statements)
    (hcarried : ∀ k, w.Carries k row.id → k = row.key) : w.Vouches (t.withStatement row) := by
  have hids : ∀ id ∈ (t.withStatement row).statements.map StatementRow.id,
      id ∈ t.statements.map StatementRow.id ∨ id = row.id := by
    simp [Tables.withStatement]
  constructor
  · intro id hmem
    rcases hids id hmem with hold | rfl
    · exact h.bounded id hold
    · exact hbounded
  · intro key id hcarries hmem
    rw [Tables.hasLive_withStatement hlive]
    rcases hids id hmem with hold | rfl
    · exact .inl (h.live key id hcarries hold)
    · exact .inr ⟨hcarried key hcarries, rfl⟩

theorem Vouches.not_deleted (h : w.Vouches t) (hsound : t.Sound) (hcarries : w.Carries key id) :
    ¬t.HasDeleted id := fun hdeleted =>
  hsound.not_deleted_of_live (h.live key id hcarries hdeleted.mem_ids) hdeleted

end Workspace

/-- Work that does not end a transaction. What is carried by entries anew has an id that the
counter had not reached. -/
structure Vouching (w w' : Workspace) : Prop where
  counter : w.store.counters.statements ≤ w'.store.counters.statements
  counted : w'.Counted
  view : w'.Vouches w'.view
  carries : ∀ key id, w'.Carries key id → w.Carries key id ∨ w.store.counters.statements < id

section

variable {w w' w'' : Workspace} {x y : Scope} {t t' : Statement} {key : StatementKey} {id : Int}

theorem Vouching.trans (h : Vouching w w') (h' : Vouching w' w'') : Vouching w w'' where
  counter := le_trans h.counter h'.counter
  counted := h'.counted
  view := h'.view
  carries key id hcarries := by
    rcases h'.carries key id hcarries with hold | hnew
    · exact h.carries key id hold
    · exact .inr (lt_of_le_of_lt h.counter hnew)

theorem Vouching.of_carries (hw : w.Counted) (hview : w.Vouches w.view) (hworks : Works w w')
    (hids : w'.view.statements.map StatementRow.id = w.view.statements.map StatementRow.id)
    (hcarries : ∀ key id, w'.Carries key id →
      w.Carries key id ∧ (w.view.HasLive key id → w'.view.HasLive key id)) : Vouching w w' := by
  have hcounter := hworks.statementCounter
  refine ⟨hcounter, ⟨le_trans hw.counter hcounter, fun key id h => ?_,
    fun key key' id h h' => ?_⟩, ⟨?_, fun key id h hid => ?_⟩,
    fun key id h => .inl (hcarries key id h).1⟩
  · obtain ⟨hnonneg, hle⟩ := hw.bounded key id (hcarries key id h).1
    exact ⟨hnonneg, le_trans hle hcounter⟩
  · exact hw.injective key key' id (hcarries key id h).1 (hcarries key' id h').1
  · rw [hids]
    exact fun id hid => le_trans (hview.bounded id hid) hcounter
  · rw [hids] at hid
    obtain ⟨hold, hlive⟩ := hcarries key id h
    exact hlive (hview.live key id hold hid)

theorem Vouching.of_quiet (hw : w.Counted) (hview : w.Vouches w.view) (hquiet : Quiet w w')
    (hregistry : SameRegistry w w') : Vouching w w' := by
  refine .of_carries hw hview hquiet.toWorks (by rw [hquiet.statements]) fun key id h => ⟨?_, ?_⟩
  · rwa [Workspace.Carries, hregistry.1, hregistry.2] at h
  · exact (Tables.hasLive_congr hquiet.statements).mpr

theorem Vouching.of_silent (hw : w.Counted) (hview : w.Vouches w.view) (h : Silent w w') :
    Vouching w w' :=
  .of_quiet hw hview h.toQuiet h.sameRegistry

theorem Action.Identified.vouching (hw : w.Counted)
    (hview : w.Vouches w.view) (hsound : w.view.Sound)
    (h : Identified w key id w') : Vouching w w' ∧ w'.Reserves key id := by
  cases h with
  | shared h =>
      have hcarries : w.Carries key id := Registry.carries_of_lookup? h
      have hsame : ∀ k i, (withRegistered w key id).Carries k i → w.Carries k i := by
        intro k i hcarried
        rcases Registry.Carries.of_register hcarried with hold | ⟨rfl, rfl⟩
        · exact hold
        · exact hcarries
      refine ⟨.of_carries hw hview (withRegistered_quiet w key id).toWorks rfl fun k i hcarried =>
        ⟨hsame k i hcarried, fun hlive => hlive⟩, ?_⟩
      obtain ⟨hnonneg, hle⟩ := hw.bounded key id hcarries
      exact ⟨hnonneg, hle, fun k hcarried => hw.injective k key id (hsame k id hcarried) hcarries,
        hview.live key id hcarries⟩
  | stored h hrow hreads =>
      have hlive : w.view.HasLive key id := hrow
      have hvouching : Vouching w w' := .of_silent hw hview hreads.silent
      have hlive' : w'.view.HasLive key id := by
        rw [hreads.view_eq]
        exact hlive
      have hsound' : w'.view.Sound := by
        rw [hreads.view_eq]
        exact hsound
      refine ⟨hvouching, ?_, hvouching.view.bounded id hlive'.mem_ids, fun k hcarried => ?_,
        fun _ => hlive'⟩
      · obtain ⟨r, hr, -, -, rfl⟩ := hlive
        exact hsound.nonneg r hr
      · obtain ⟨r, hr, -, hkey, hid⟩ := hvouching.view.live k id hcarried hlive'.mem_ids
        obtain ⟨r', hr', -, hkey', hid'⟩ := hlive'
        rw [← hkey, ← hkey', hsound'.row_eq hr hr' (hid.trans hid'.symm)]
  | minted h hnew hid =>
      subst hid
      have hcounter := hw.counter
      have hquiet := Identified.quiet (.minted h hnew rfl)
      have hcarries : ∀ k i, (w.minted key).Carries k i → w.Carries k i ∧
          i ≤ w.store.counters.statements ∨ k = key ∧ i = w.store.counters.statements + 1 :=
        fun k i hcarried => (Registry.Carries.of_register hcarried).imp_left fun hold =>
          ⟨hold, (hw.bounded k i hold).2⟩
      have hlater : ∀ k i, (w.minted key).Carries k i →
          w.Carries k i ∨ w.store.counters.statements < i := by
        intro k i hcarried
        rcases hcarries k i hcarried with ⟨hold, -⟩ | ⟨-, rfl⟩
        · exact .inl hold
        · exact .inr (by omega)
      have hvouches : (w.minted key).Vouches w.view :=
        hview.later hquiet.toWorks.statementCounter hlater
      refine ⟨⟨hquiet.toWorks.statementCounter, ⟨?_, ?_, ?_⟩, hvouches, hlater⟩,
        ?_, le_refl _, ?_, ?_⟩
      · exact le_trans hcounter hquiet.toWorks.statementCounter
      · intro k i hcarried
        show 0 ≤ i ∧ i ≤ w.store.counters.statements + 1
        rcases hcarries k i hcarried with ⟨hold, -⟩ | ⟨-, rfl⟩
        · have hbounded := hw.bounded k i hold
          omega
        · omega
      · intro k k' i hcarried hcarried'
        rcases hcarries k i hcarried with ⟨hold, hle⟩ | ⟨rfl, rfl⟩ <;>
          rcases hcarries k' _ hcarried' with ⟨hold', hle'⟩ | ⟨rfl, hid⟩
        · exact hw.injective k k' i hold hold'
        · omega
        · omega
        · rfl
      · omega
      · intro k hcarried
        rcases hcarries k _ hcarried with ⟨-, hle⟩ | ⟨rfl, -⟩
        · omega
        · rfl
      · intro hid
        have hle := hview.bounded _ hid
        omega

/-! Asking for statements, adding and removing them -/

theorem Transaction.Requested.vouching (hw : w.Counted)
    (hview : w.Vouches w.view) (hgood : w.Good)
    (h : Requested w w' key id) : Vouching w w' ∧ w'.Reserves key id := by
  obtain ⟨w₁, hsilent, hidentified⟩ := h
  have hfirst := Vouching.of_silent hw hview hsilent
  obtain ⟨hsecond, hreserves⟩ :=
    hidentified.vouching hfirst.counted hfirst.view (hsilent.good hgood).sound
  exact ⟨hfirst.trans hsecond, hreserves⟩

theorem Workspace.Reserves.stored {added : Bool} (hreserves : w.Reserves t.key t.id)
    (hkey : t'.key = t.key) (hw : w.Counted) (hview : w.Vouches w.view)
    (h : Stored w w' t t' added) (hworks : Works w w') (hregistry : SameRegistry w w') :
    Vouching w w' ∧ w'.view.HasLive t.key t'.id := by
  have hcarries : ∀ k i, w'.Carries k i → w.Carries k i := by
    intro k i hcarried
    rwa [Workspace.Carries, hregistry.1, hregistry.2] at hcarried
  cases h with
  | found hseen hrow =>
      refine ⟨.of_carries hw hview hworks (by rw [hseen]) fun k i hcarried =>
        ⟨hcarries k i hcarried, ?_⟩, ?_⟩
      · rw [hseen]
        exact id
      · rw [hseen]
        exact hrow
  | added hseen hnew hfresh hid =>
      have hid : t'.id = t.id := by
        refine hid hreserves.nonneg fun hused => ?_
        exact hnew (hreserves.live hused).mem_members
      have hrow : (StatementRow.ofStatement t').key = t.key ∧
          (StatementRow.ofStatement t').id = t.id :=
        ⟨(StatementRow.key_ofStatement t').trans hkey, hid⟩
      have hcounter := hworks.statementCounter
      refine ⟨⟨hcounter, ⟨le_trans hw.counter hcounter, ?_, ?_⟩, ?_,
        fun k i hcarried => .inl (hcarries k i hcarried)⟩, ?_⟩
      · intro k i hcarried
        obtain ⟨hnonneg, hle⟩ := hw.bounded k i (hcarries k i hcarried)
        exact ⟨hnonneg, le_trans hle hcounter⟩
      · exact fun k k' i hcarried hcarried' =>
          hw.injective k k' i (hcarries k i hcarried) (hcarries k' i hcarried')
      · rw [hseen]
        refine (hview.later hcounter fun k i hcarried =>
          .inl (hcarries k i hcarried)).withStatement rfl
          ?_ fun k hcarried => ?_
        · rw [hrow.2]
          exact le_trans hreserves.bounded hcounter
        · rw [hrow.2] at hcarried
          rw [hrow.1]
          exact hreserves.carried k (hcarries k t.id hcarried)
      · rw [hseen, Tables.hasLive_withStatement rfl, hrow.1, hrow.2]
        exact .inr ⟨rfl, hid⟩

theorem Transaction.Adds.vouching (hw : x.work.Counted) (hview : x.work.Vouches x.work.view)
    (hgood : x.work.Good) (h : Adds x y t) :
    Vouching x.work y.work ∧ y.work.view.HasLive t.key t.id := by
  obtain ⟨w, t₁, added, hrequested, hkey, hstored, hworks, hregistry⟩ := h.stored
  obtain ⟨hfirst, hreserves⟩ := hrequested.vouching hw hview hgood
  obtain ⟨hsecond, hlive⟩ :=
    hreserves.stored hkey hfirst.counted hfirst.view hstored hworks hregistry
  exact ⟨hfirst.trans hsecond, hkey ▸ hlive⟩

theorem Transaction.Fails.vouching (hw : x.work.Counted) (hview : x.work.Vouches x.work.view)
    (hgood : x.work.Good) (h : Fails x y) : Vouching x.work y.work := by
  rcases h with hunder | ⟨w, key, id, hrequested, hunder⟩
  · exact .of_silent hw hview hunder.work
  · have hfirst := (hrequested.vouching hw hview hgood).1
    obtain ⟨hquiet, hregistry⟩ := hunder.work
    exact hfirst.trans (.of_quiet hfirst.counted hfirst.view hquiet hregistry)

/-- Nothing is carried anew by removals, and what is carried stays live. -/
structure Drops (w w' : Workspace) : Prop where
  works : Works w w'
  ids : w'.view.statements.map StatementRow.id = w.view.statements.map StatementRow.id
  carries : ∀ key id, w'.Carries key id →
    w.Carries key id ∧ (w.view.HasLive key id → w'.view.HasLive key id)

instance : IsPreorder Workspace Drops where
  refl w := ⟨refl w, rfl, fun _ _ h => ⟨h, fun hlive => hlive⟩⟩
  trans w w' w'' h h' := by
    refine ⟨IsTrans.trans _ _ _ h.works h'.works, h'.ids.trans h.ids, fun key id hcarried => ?_⟩
    obtain ⟨hcarried', hlive'⟩ := h'.carries key id hcarried
    obtain ⟨hold, hlive⟩ := h.carries key id hcarried'
    exact ⟨hold, fun hrow => hlive' (hlive hrow)⟩

theorem Drops.of_silent (h : Silent w w') : Drops w w' := by
  refine ⟨h.toWorks, by rw [h.statements], fun key id hcarried => ⟨?_, ?_⟩⟩
  · rwa [Workspace.Carries, h.registry, h.registryFile] at hcarried
  · exact (Tables.hasLive_congr h.statements).mpr

theorem Action.removeStatement_drops (hid : 0 ≤ t.id) (hrow : w.view.Locates t)
    {answer : Statement × Bool} (h : removeStatement t w = .ok answer w') : Drops w w' := by
  obtain ⟨⟨t₁, removed⟩, w₁, hdelete, h⟩ := bind_eq_ok_iff.mp h
  cases hbegin : beginWrite w with
  | error e w₂ => cases (deleteStatement_error hid hbegin).symm.trans hdelete
  | ok u w₂ =>
      obtain ⟨t₂, removed', heq, -, hkey, -⟩ := deleteStatement_eq hid hbegin
      cases heq.symm.trans hdelete
      cases h
      obtain ⟨hwriting, hview⟩ := beginWrite_eq_ok hbegin
      refine IsTrans.trans _ _ _ (Drops.of_silent (beginWrite_silent.ok hbegin)) ?_
      rw [← hview] at hrow
      have hworks := (unregister_quiet t₁.key (withRemoved w₂ t.id)).toWorks
      refine ⟨IsTrans.trans _ _ _ (withRemoved_works hwriting t.id) hworks,
        Tables.map_id_withDeleted _ _, fun k i hcarried => ?_⟩
      obtain ⟨hold, hne⟩ := Registry.Carries.of_delete hcarried
      rw [hkey] at hne
      refine ⟨hold, fun hlive => Tables.hasLive_withDeleted.mpr ⟨hlive, ?_⟩⟩
      rw [List.mem_singleton, ← hrow k i hlive]
      exact hne

theorem Call.vouching {c : Call} (hends : c.ends = false) (hw : x.work.Counted)
    (hview : x.work.Vouches x.work.view) (hgood : x.work.Good) :
    Vouching x.work (finalState (c.run x)).work := by
  cases hremoves : c.removes with
  | true =>
      cases c with
      | remove subject predicate object context =>
          have hdrops : Drops x.work
              (finalState (Transaction.remove subject predicate object context x)).work :=
            remove_rel (fun _ _ h => .of_silent h)
              (fun _ _ _ _ hid hrow h => Action.removeStatement_drops hid hrow h) hgood
          exact .of_carries hw hview hdrops.works hdrops.ids hdrops.carries
      | _ => cases hremoves
  | false =>
      rcases Call.request_cases hends hremoves hgood with
        ⟨hsilent, -⟩ | ⟨-, ⟨t, hrequested | hadds, -⟩ | ⟨hfails, -⟩⟩
      · exact .of_silent hw hview hsilent
      · exact (hrequested.vouching hw hview hgood).1
      · exact (hadds.vouching hw hview hgood).1
      · exact hfails.vouching hw hview hgood

theorem Event.not_deleted_of_answer {c : Call} {number i : Nat} {before after : Tables}
    (hw : x.work.Counted) (hview : x.work.Vouches x.work.view) (hgood : x.work.Good)
    (hanswer : (Event.call number before after c (answerOf (c.run x))).statement? = some (i, t)) :
    ¬(finalState (c.run x)).work.view.HasDeleted t.id := by
  obtain ⟨hrequests, hends, hremoves⟩ := Call.requests_of_answer hanswer
  have hsound := (Call.advances hends x).works.good hgood |>.sound
  rcases Call.request_cases hends hremoves hgood with
    ⟨-, hnone⟩ | ⟨-, ⟨t', hdone, hanswered⟩ | ⟨-, hfailed⟩⟩
  · cases hnone.symm.trans hrequests
  · cases (hanswered number before after).symm.trans hanswer
    rcases hdone with hrequested | hadds
    · obtain ⟨-, hreserves⟩ := hrequested.vouching hw hview hgood
      exact fun hdeleted => hsound.not_deleted_of_live (hreserves.live hdeleted.mem_ids) hdeleted
    · exact hsound.not_deleted_of_live (hadds.vouching hw hview hgood).2
  · cases (hfailed number before after).symm.trans hanswer

end

/-! Whole runs -/

namespace OpenStore

variable {s s' : OpenStore} {log : List Event} {e : Event} {i : Nat}
  {x y : Scope} {key : StatementKey}
  {id : Int}

/-- Whether the entries of the registry may stand beside the rows of all tables of a store. -/
structure Vouched (s : OpenStore) : Prop where
  counted : s.shared.Counted
  tables : s.Everywhere fun t => s.shared.Vouches t

theorem Vouched.of_scope? (hs : s.Vouched) (hx : s.scope? i = some x) :
    x.work.Counted ∧ s.Everywhere fun t => x.work.Vouches t := by
  rw [work_of_scope? hx]
  exact ⟨hs.counted.of_conn _, hs.tables.imp fun _ ht => ht.of_conn _⟩

theorem Vouched.put (hs : s.Vouched) (hx : s.scope? i = some x) (h : Vouching x.work y.work)
    (hcommitted : y.work.database.committed = x.work.database.committed) :
    (s.put i y).Vouched := by
  have htables : s.Everywhere fun t => (s.put i y).shared.Vouches t :=
    (hs.of_scope? hx).2.imp fun _ ht => (ht.later h.counter h.carries).of_conn _
  refine ⟨h.counted.of_conn _, htables.put hx (h.view.of_conn _) ?_⟩
  rw [hcommitted, database_of_scope? hx]
  exact htables.committed

theorem Vouched.put_ended (hs : s.Vouched) (hx : s.scope? i = some x) (h : Ended x y)
    (hcommitted : x.work.Vouches y.work.database.committed) : (s.put i y).Vouched := by
  obtain ⟨hcounted, htables⟩ := hs.of_scope? hx
  have hcarries : ∀ key id, y.work.Carries key id → x.work.Carries key id := by
    intro key id hcarried
    have hreleased : (y.work.store.registry, y.work.registryFile) = _ := h.registry
    rw [Workspace.Carries, (Prod.mk.inj hreleased).1, (Prod.mk.inj hreleased).2] at hcarried
    exact hcarried.of_release
  have hcounter : y.work.store.counters.statements = x.work.store.counters.statements := by
    rw [h.counters]
  have later : ∀ {t}, x.work.Vouches t → y.work.Vouches t := fun ht =>
    ht.later (le_of_eq hcounter.symm) fun key id hcarried => .inl (hcarries key id hcarried)
  refine ⟨⟨?_, fun key id hcarried => ?_, fun key key' id hcarried hcarried' => ?_⟩, ?_⟩
  · exact hcounter ▸ hcounted.counter
  · exact hcounter ▸ hcounted.bounded key id (hcarries key id hcarried)
  · exact hcounted.injective key key' id (hcarries key id hcarried) (hcarries key' id hcarried')
  · exact (htables.imp fun _ ht => (later ht).of_conn _).put_ended hx
      h ((later hcommitted).of_conn _)

theorem Vouched.begin (hs : s.Vouched) : s.begin.Vouched := by
  refine ⟨⟨hs.counted.counter, hs.counted.bounded, hs.counted.injective⟩, ?_⟩
  have htables : s.Everywhere fun t => s.begin.shared.Vouches t :=
    hs.tables.imp fun _ ht => ⟨ht.bounded, ht.live⟩
  exact htables.step .begin (fun _ _ _ hsame _ ht => ht.congr hsame) nofun

theorem carries_of_loses {store : Store} (h : s.store.Loses store) {key : StatementKey} {id : Int}
    (hcarried : (s.withStore store).shared.Carries key id) : s.shared.Carries key id := by
  obtain ⟨hcaches, hregistry⟩ := h
  exact Registry.Carries.of_loses hregistry hcarried

theorem Vouched.loses {store : Store} (hs : s.Vouched) (h : s.store.Loses store) :
    (s.withStore store).Vouched := by
  have hcarries : ∀ key id, (s.withStore store).shared.Carries key id → s.shared.Carries key id :=
    fun _ _ => carries_of_loses h
  have hcounter := h.counters
  refine ⟨⟨?_, fun key id hcarried => ?_, fun key key' id hcarried hcarried' => ?_⟩, ?_⟩
  · exact hcounter ▸ hs.counted.counter
  · exact hcounter ▸ hs.counted.bounded key id (hcarries key id hcarried)
  · exact hs.counted.injective key key' id (hcarries key id hcarried) (hcarries key' id hcarried')
  · have htables : s.Everywhere fun t => (s.withStore store).shared.Vouches t :=
      hs.tables.imp fun _ ht => ⟨hcounter ▸ ht.bounded, fun key id hcarried =>
        ht.live key id (hcarries key id hcarried)⟩
    exact htables.withStore store

theorem Vouched.step (hs : s.Vouched) (hgood : s.Good) (h : s.Step e s') : s'.Vouched := by
  cases h with
  | begin => exact hs.begin
  | clearCaches => exact hs.loses (.clearCaches _)
  | evict hevicts => exact hs.loses hevicts.loses
  | @call i x c hx =>
      obtain ⟨hcounted, htables⟩ := hs.of_scope? hx
      have hview := htables.scopes i x hx
      rcases c.run_cases x with
        ⟨hadvances, hends | hsame⟩ | ⟨refusal, y, rfl, hop, -, hended⟩ | ⟨-, -, habandoned⟩
      · exact hs.put hx (Call.vouching hends hcounted hview (hgood.scopes i x hx).work)
          hadvances.works.committed
      · rw [hsame]
        exact hs.put hx (.of_silent hcounted hview (refl x.work)) rfl
      · rw [Call.run, hop]
        exact hs.put_ended hx hended.toEnded (hview.congr hended.statements)
      · refine hs.put_ended hx habandoned.toEnded ?_
        rw [habandoned.committed, database_of_scope? hx]
        exact htables.committed

theorem Run.vouched (hs : s.Vouched) (hgood : s.Good) (h : s.Run log s') : s'.Vouched := by
  induction h with
  | nil => exact hs
  | snoc hrun hstep ih => exact ih.step (hgood.run hrun) hstep

theorem vouched_opened (config : Config) {tables : Tables} (htables : tables.Sound)
    (labelStart : String) : (opened config tables [] labelStart).Vouched := by
  have none_carried : ∀ key id, ¬(opened config tables [] labelStart).shared.Carries key id :=
    fun _ _ => Registry.not_carries_make config
  refine ⟨⟨(good_opened config htables [] labelStart).counter,
    fun key id hcarried => absurd hcarried (none_carried key id),
    fun key key' id hcarried => absurd hcarried (none_carried key id)⟩,
      ⟨?_, ?_⟩, by rintro i x ⟨⟩⟩
  · exact fun id hid => le_trans (Tables.le_greatestId hid) (le_max_right _ _)
  · exact fun key id hcarried => absurd hcarried (none_carried key id)

theorem Vouched.not_deleted_of_answer (hs : s.Vouched) (hgood : s.Good)
    (h : s.Step e s') {t : Statement}
    (hanswer : e.statement? = some (i, t)) : ¬s.database.committed.HasDeleted t.id := by
  cases h with
  | begin | clearCaches | evict => cases hanswer
  | @call j x c hx =>
      obtain ⟨hcounted, htables⟩ := hs.of_scope? hx
      have hwork := (hgood.scopes j x hx).work
      obtain ⟨-, hends, -⟩ := Call.requests_of_answer hanswer
      have hseen := Event.not_deleted_of_answer hcounted (htables.scopes j x hx) hwork hanswer
      refine fun hdeleted => hseen ?_
      rw [← database_of_scope? hx] at hdeleted
      exact (Call.advances hends x).works.evolves.deleted (hwork.evolves.deleted hdeleted)

/-- No entry of the registry carries the id of a row that is deleted in the committed tables or in
those that a transaction sees. Once the deletion of a row is committed, no transaction that asks
for a statement or adds one is answered with its id any more. -/
theorem deleted_ids_retired {config : Config} {tables : Tables} (htables : tables.Sound)
    {labelStart : String} (h : (opened config tables [] labelStart).Run log s) :
    (∀ key entry, s.store.registry.HasEntry s.registryFile key entry →
      ¬s.database.committed.HasDeleted entry.statement ∧
        ∀ i x, s.scope? i = some x → ¬x.work.view.HasDeleted entry.statement) ∧
      ∀ id, s.database.committed.HasDeleted id → ∀ log' s', s.Run log' s' →
        ∀ e ∈ log', ∀ i t, e.statement? = some (i, t) → t.id ≠ id := by
  have hopened := good_opened config htables [] labelStart
  have hgood := hopened.run h
  have hvouched := Run.vouched (vouched_opened config htables labelStart) hopened h
  refine ⟨fun key entry hentry => ?_, fun id hdeleted log' s' hlater => ?_⟩
  · have hcarries : s.shared.Carries key entry.statement := ⟨entry, hentry, rfl⟩
    exact ⟨hvouched.tables.committed.not_deleted hgood.sound hcarries, fun i x hx =>
      (hvouched.tables.scopes i x hx).not_deleted (hgood.scopes i x hx).work.sound hcarries⟩
  · induction hlater with
    | nil => exact fun e he => absurd he List.not_mem_nil
    | snoc hrun hstep ih =>
        intro e he i t hanswer
        rcases List.mem_append.mp he with hbefore | hlast
        · exact ih e hbefore i t hanswer
        · obtain rfl := List.mem_singleton.mp hlast
          rintro rfl
          exact (Run.vouched hvouched hgood hrun).not_deleted_of_answer
            (hgood.run hrun) hstep hanswer ((hgood.run_evolves hrun).deleted hdeleted)

/-- A statement was added and removed and is added again by another
transaction, under another id. -/
theorem deleted_ids_retired_readded :
    let a : Node := ⟨1, .uri "urn:a"⟩
    let s := (opened {} {} [] "w").begin.after 0 (.uri "urn:a") |>.after 0 (.add a a a (some a))
      |>.after 0 (.remove (some a) none none none) |>.after 0 (.commit none) |>.begin
    s.database.committed.HasDeleted 1 ∧ ∃ x t, s.scope? 1 = some x ∧
      answerOf ((Call.add a a a (some a)).run x) = .ok t ∧ t.id ≠ 1 := by
  intro a s
  have hrun := Run.nil (s := opened {} {} [] "w") |>.snoc .begin |>.call 0 (.uri "urn:a")
    |>.call 0 (.add a a a (some a)) |>.call 0 (.remove (some a) none none none)
    |>.call 0 (.commit none) |>.snoc .begin
  have hdeleted : s.database.committed.HasDeleted 1 := by decide +kernel
  obtain ⟨x, hx, hok⟩ : ∃ x, s.scope? 1 = some x ∧
      (answerOf ((Call.add a a a (some a)).run x)).isOk = true := ⟨_, rfl, by decide +kernel⟩
  obtain ⟨-, hretired⟩ := deleted_ids_retired Tables.sound_empty hrun
  have hstep : s.Step _ _ := .call (.add a a a (some a)) hx
  cases hanswer : answerOf ((Call.add a a a (some a)).run x) with
  | error e =>
      rw [hanswer] at hok
      cases hok
  | ok t =>
      refine ⟨hdeleted, x, t, hx, hanswer, ?_⟩
      refine hretired 1 hdeleted _ _ (.snoc .nil hstep) _ List.mem_cons_self 1 t ?_
      rw [hanswer]
      rfl

end OpenStore
end QuadStore
