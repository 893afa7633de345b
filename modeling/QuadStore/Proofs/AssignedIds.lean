import QuadStore.Proofs.StatementIdentity

/-!
Ids of statements while statements are removed as well. A registered id that a row has is
that of the live row of its statement, what a transaction has stored without having
committed it is registered for it, and what has been removed is not registered any more
until someone asks for it anew.
-/

namespace QuadStore

open Transaction
open QuadStore.Action (registered? Identified Stored SameRegistry)

namespace Workspace

/-- Whether the registered ids fit the rows of some tables: an id that is registered
is that of the live row of its statement, if a row has it, and the counter has
reached the ids of all rows. -/
structure Fits (w : Workspace) (t : Tables) : Prop where
  bounded : ∀ id ∈ t.statements.map StatementRow.id, id ≤ w.store.counters.statements
  live : ∀ key id, registered? w key = some id → id ∈ t.statements.map StatementRow.id →
    t.HasLive key id

/-- Whether the registered ids fit the rows of all tables that a connection reads. What it sees is
committed, or is registered for its transaction. -/
structure Assigns (w : Workspace) : Prop where
  numbers : w.Numbers
  committed : w.Fits w.database.committed
  view : w.Fits w.view
  owned : ∀ key id, w.view.HasLive key id →
    w.database.committed.HasLive key id ∨ w.Owns key w.conn.transaction id

variable {w w' : Workspace} {t t' : Tables}

theorem Agrees.fits (h : w.Agrees t) : w.Fits t := by
  constructor
  · intro id hid
    obtain ⟨r, hr, rfl⟩ := List.mem_map.mp hid
    exact h.bounded r hr
  · intro key id hregistered hid
    obtain ⟨r, hr, rfl⟩ := List.mem_map.mp hid
    obtain ⟨hkey, hlive⟩ := h.key r hr key hregistered
    exact ⟨r, hr, hlive, hkey, rfl⟩

theorem Identifies.assigns (h : w.Identifies) : w.Assigns :=
  ⟨h.numbers, h.committed.fits, h.view.fits, h.owned⟩

theorem Fits.congr (h : w.Fits t) (hsame : t'.statements = t.statements) : w.Fits t' := by
  constructor
  · rw [hsame]
    exact h.bounded
  · intro key id hregistered hid
    rw [hsame] at hid
    exact (Tables.hasLive_congr hsame).mpr (h.live key id hregistered hid)

theorem Fits.of_conn (h : w.Fits t) (c : Connection) : Fits { w with conn := c } t :=
  ⟨h.bounded, h.live⟩

theorem Fits.later (h : w.Fits t)
    (hcounter : w.store.counters.statements ≤ w'.store.counters.statements)
    (hlookup : ∀ key id, registered? w' key = some id →
      registered? w key = some id ∨ w.store.counters.statements < id) : w'.Fits t := by
  refine ⟨fun id hid => le_trans (h.bounded id hid) hcounter, fun key id hregistered hid => ?_⟩
  rcases hlookup key id hregistered with hold | hnew
  · exact h.live key id hold hid
  · have hle := h.bounded id hid
    omega

/-- A live row may be added under the id that its statement is registered by. -/
theorem Fits.withStatement (h : w.Fits t) (hw : w.Numbers) {row : StatementRow}
    (hlive : row.live = true) (hid : registered? w row.key = some row.id) :
    w.Fits (t.withStatement row) := by
  have hids : ∀ id ∈ (t.withStatement row).statements.map StatementRow.id,
      id ∈ t.statements.map StatementRow.id ∨ id = row.id := by
    simp [Tables.withStatement]
  constructor
  · intro id hmem
    rcases hids id hmem with hold | rfl
    · exact h.bounded id hold
    · exact (hw.bounded row.key row.id hid).2
  · intro key id hregistered hmem
    rw [Tables.hasLive_withStatement hlive]
    rcases hids id hmem with hold | rfl
    · exact .inl (h.live key id hregistered hold)
    · exact .inr ⟨hw.injective key row.key row.id hregistered hid, rfl⟩

theorem Assigns.of_idle (hnumbers : w.Numbers) (hcommitted : w.Fits w.database.committed)
    (hpending : w.conn.pending = none) : w.Assigns := by
  have hview : w.view = w.database.committed :=
    view_eq_committed (by simp [Connection.writing, hpending])
  refine ⟨hnumbers, hcommitted, ?_, ?_⟩
  · rwa [hview]
  · rw [hview]
    exact fun _ _ h => .inl h

end Workspace

/-- Work that does not end a transaction. Ids are registered anew for requested statements that no
live row holds, others own what they have owned unless this one writes, and nothing is registered
for what has been removed. -/
structure Assigning (requested : StatementKey → Prop) (w w' : Workspace) : Prop where
  assigns : w'.Assigns
  lookup : ∀ key id, registered? w' key = some id → registered? w key = some id ∨
    requested key ∧ key ∉ w.view.members ∧ w.store.counters.statements < id
  owns : ∀ key transaction id, w.Owns key transaction id →
    w'.Owns key transaction id ∨ w'.conn.writing = true
  gone : ∀ key id, w.view.HasLive key id → w'.view.HasLive key id ∨ registered? w' key = none

variable {w w' w'' : Workspace} {key : StatementKey} {id : Int} {t t' : Statement} {x y : Scope}

theorem Assigning.mono {requested requested' : StatementKey → Prop} (h : Assigning requested w w')
    (hmono : ∀ key, requested key → requested' key) : Assigning requested' w w' :=
  ⟨h.assigns, fun key id hid =>
    (h.lookup key id hid).imp_right (And.imp_left (hmono key)), h.owns,
    h.gone⟩

/-! Asking for statements and adding them -/

/-- Work that registers at most one id anew, for a statement that no live row holds. -/
structure Grants (key : StatementKey) (w w' : Workspace) : Prop where
  numbers : w'.Numbers
  lookup : ∀ k id, registered? w' k = some id → registered? w k = some id ∨
    k = key ∧ k ∉ w.view.members ∧ w.store.counters.statements < id
  owns : ∀ k transaction id, w.Owns k transaction id → w'.Owns k transaction id

namespace Grants

theorem of_extends (h : Extends w w') (hregistered : ∀ k, registered? w' k = registered? w k) :
    Grants key w w' :=
  ⟨h.numbers, fun k _ hid => .inl ((hregistered k).symm.trans hid), h.owns⟩

theorem of_silent (hw : w.Numbers) (h : Silent w w') : Grants key w w' :=
  .of_extends (.of_silent hw h) h.sameRegistry.registered?_eq

theorem of_identified (hw : w.Numbers) (h : Identified w key id w') : Grants key w w' := by
  cases h with
  | shared h => exact .of_extends (.of_shared hw h) (Extends.registered?_shared hw h)
  | stored h hrow hreads => exact .of_silent hw hreads.silent
  | minted h hnew hid =>
      subst hid
      refine ⟨Extends.numbers_minted hw h, fun k id hid => ?_,
        (Extends.registers_minted hw h).owns⟩
      rcases Extends.registered?_minted hw h hid with ⟨rfl, rfl⟩ | hold
      · exact .inr ⟨rfl, hnew, Int.lt_add_one_of_le (le_refl _)⟩
      · exact .inl hold

theorem of_requested (hw : w.Numbers) (h : Requested w w' key id) : Grants key w w' := by
  obtain ⟨w₁, hsilent, hidentified⟩ := h
  have hsame : Grants key w w₁ := .of_silent hw hsilent
  have hgrants : Grants key w₁ w' := .of_identified hsame.numbers hidentified
  refine ⟨hgrants.numbers, fun k id hid => ?_, fun k transaction id howns =>
    hgrants.owns k transaction id (hsame.owns k transaction id howns)⟩
  rcases hgrants.lookup k id hid with hold | hnew
  · exact hsame.lookup k id hold
  · right
    rwa [← Tables.members_congr hsilent.statements, ← hsilent.statementCounter_eq]

theorem sameRegistry (h : Grants key w w') (hworks : Works w' w'') (hsame : SameRegistry w' w'') :
    Grants key w w'' := by
  have hextends := Extends.of_sameRegistry h.numbers hworks hsame
  exact ⟨hextends.numbers,
    fun k id hid => h.lookup k id ((hsame.registered?_eq k).symm.trans hid),
    fun k transaction id howns => hextends.owns k transaction id (h.owns k transaction id howns)⟩

theorem fits (h : Grants key w w') (hworks : Works w w') {t : Tables}
    (ht : w.Fits t) : w'.Fits t :=
  ht.later hworks.statementCounter fun k id hid =>
    (h.lookup k id hid).imp_right fun hnew => hnew.2.2

theorem assigns (h : Grants key w w') (hw : w.Assigns) (hquiet : Quiet w w') : w'.Assigns := by
  refine ⟨h.numbers, ?_, (h.fits hquiet.toWorks hw.view).congr hquiet.statements, ?_⟩
  · rw [hquiet.committed]
    exact h.fits hquiet.toWorks hw.committed
  · intro k id hlive
    rw [hquiet.committed, hquiet.transaction]
    exact (hw.owned k id ((Tables.hasLive_congr hquiet.statements).mp hlive)).imp_right
      (h.owns k _ id)

theorem assigning (h : Grants key w w') (hassigns : w'.Assigns)
    (hlive : ∀ k id, w.view.HasLive k id → w'.view.HasLive k id) : Assigning (· = key) w w' :=
  ⟨hassigns, h.lookup, fun k transaction id howns => .inl (h.owns k transaction id howns),
    fun k id hrow => .inl (hlive k id hrow)⟩

theorem assigning_quiet (h : Grants key w w') (hw : w.Assigns) (hquiet : Quiet w w') :
    Assigning (· = key) w w' :=
  h.assigning (h.assigns hw hquiet) fun _ _ => (Tables.hasLive_congr hquiet.statements).mpr

end Grants

theorem Workspace.Assigns.stored {added : Bool} (hw : w.Assigns) (hknown : w.Knows t.key t.id)
    (hkey : t'.key = t.key) (h : Stored w w' t t' added) (hworks : Works w w')
    (hregistry : SameRegistry w w') : w'.Assigns := by
  have hextends := Extends.of_sameRegistry hw.numbers hworks hregistry
  have hfits : ∀ {tables}, w.Fits tables → w'.Fits tables := fun ht =>
    ht.later hworks.statementCounter fun k _ hid =>
      .inl ((hregistry.registered?_eq k).symm.trans hid)
  have hcommitted : w'.Fits w'.database.committed := by
    rw [hworks.committed]
    exact hfits hw.committed
  have howned : ∀ k id, w.view.HasLive k id →
      w'.database.committed.HasLive k id ∨ w'.Owns k w'.conn.transaction id := by
    intro k id hlive
    rw [hworks.committed, hworks.transaction]
    exact (hw.owned k id hlive).imp_right (hextends.owns k _ id)
  cases h with
  | found hview hrow =>
      refine ⟨hextends.numbers, hcommitted, ?_, ?_⟩
      · rw [hview]
        exact hfits hw.view
      · rw [hview]
        exact howned
  | added hview hnew hfresh hid =>
      have howns := hknown.resolve_right fun hlive => hnew hlive.mem_members
      have hregistered := hw.numbers.registered_of_owns howns
      have hid : t'.id = t.id := by
        refine hid (hw.numbers.bounded _ _ hregistered).1 fun hused => ?_
        exact hnew (hw.view.live _ _ hregistered hused).mem_members
      have hrow : (StatementRow.ofStatement t').key = t.key ∧
          (StatementRow.ofStatement t').id = t.id :=
        ⟨(StatementRow.key_ofStatement t').trans hkey, hid⟩
      have howns' := hextends.owns _ _ _ howns
      refine ⟨hextends.numbers, hcommitted, ?_, fun k id hlive => ?_⟩
      · rw [hview]
        refine (hfits hw.view).withStatement hextends.numbers rfl ?_
        rw [hrow.1, hrow.2]
        exact hextends.numbers.registered_of_owns howns'
      · rw [hview, Tables.hasLive_withStatement rfl, hrow.1, hrow.2] at hlive
        rcases hlive with hold | ⟨rfl, rfl⟩
        · exact howned k id hold
        · right
          rw [hworks.transaction]
          exact howns'

theorem Transaction.Requested.assigning (hw : w.Assigns) (h : Requested w w' key id) :
    Assigning (· = key) w w' :=
  (Grants.of_requested hw.numbers h).assigning_quiet hw h.quiet

theorem Transaction.Requested.known (hw : w.Numbers) (h : Requested w w' key id) :
    w'.Knows key id := by
  obtain ⟨w₁, hsilent, hidentified⟩ := h
  exact (Extends.of_silent hw hsilent).numbers.known hidentified

theorem Transaction.Adds.assigning (hx : x.work.Assigns) (h : Adds x y t) :
    Assigning (· = t.key) x.work y.work := by
  obtain ⟨w, t₁, added, hrequested, hkey, hstored, hworks, hregistry⟩ := h.stored
  have hgrants := Grants.of_requested hx.numbers hrequested
  have hw := hgrants.assigns hx hrequested.quiet
  have hknown := hrequested.known hx.numbers
  rw [hkey]
  refine (hgrants.sameRegistry hworks hregistry).assigning
    (hw.stored hknown hkey hstored hworks hregistry) fun k id hlive => ?_
  exact hstored.hasLive ((Tables.hasLive_congr hrequested.quiet.statements).mpr hlive)

/-! Removing statements -/

/-- Whether work has changed nothing for a statement. -/
structure Untouched (w w' : Workspace) (key : StatementKey) : Prop where
  lookup : registered? w' key = registered? w key
  owns : ∀ transaction id, w.Owns key transaction id → w'.Owns key transaction id
  live : ∀ id, w'.view.HasLive key id ↔ w.view.HasLive key id

/-- Whether a connection that writes has left nothing of a statement. -/
structure Removed (w : Workspace) (key : StatementKey) : Prop where
  lookup : registered? w key = none
  members : key ∉ w.view.members
  writing : w.conn.writing = true

/-- What removals leave: there is nothing left of some statements, and the
others are untouched. -/
structure Removes (w w' : Workspace) : Prop extends Works w w' where
  reliable : w.store.registry.Reliable w.registryFile → w'.store.registry.Reliable w'.registryFile
  ids : w'.view.statements.map StatementRow.id = w.view.statements.map StatementRow.id
  statement : ∀ key, Untouched w w' key ∨ Removed w' key

namespace Removes

instance : IsPreorder Workspace Removes where
  refl w := ⟨refl w, fun h => h, rfl, fun _ => .inl ⟨rfl, fun _ _ h => h, fun _ => Iff.rfl⟩⟩
  trans w w' w'' h h' := by
    refine ⟨IsTrans.trans _ _ _ h.toWorks h'.toWorks, fun hr => h'.reliable (h.reliable hr),
      h'.ids.trans h.ids, fun key => ?_⟩
    rcases h'.statement key with hkept' | hgone'
    · rcases h.statement key with hkept | hgone
      · exact .inl ⟨hkept'.lookup.trans hkept.lookup,
          fun transaction id howns =>
            hkept'.owns transaction id (hkept.owns transaction id howns),
          fun id => (hkept'.live id).trans (hkept.live id)⟩
      · refine .inr ⟨hkept'.lookup.trans hgone.lookup, ?_, h'.toWorks.writing hgone.writing⟩
        rintro ⟨r, hr, hlive, hkey⟩
        exact hgone.members ((hkept'.live r.id).mp ⟨r, hr, hlive, hkey, rfl⟩).mem_members
    · exact .inr hgone'

theorem of_silent (h : Silent w w') : Removes w w' := by
  refine ⟨h.toWorks, ?_, by rw [h.statements],
    fun key => .inl ⟨h.sameRegistry.registered?_eq key, ?_, ?_⟩⟩
  · rw [h.registry, h.registryFile]
    exact fun hr => hr
  · intro transaction id howns
    rwa [Workspace.Owns, h.registry, h.registryFile]
  · exact fun id => Tables.hasLive_congr h.statements

theorem assigning (h : Removes w w') (hw : w.Assigns) : Assigning (fun _ => False) w w' := by
  have hlookup : ∀ key id, registered? w' key = some id → registered? w key = some id ∧
      Untouched w w' key := by
    intro key id hid
    rcases h.statement key with hkept | hgone
    · exact ⟨hkept.lookup.symm.trans hid, hkept⟩
    · cases hgone.lookup.symm.trans hid
  have hlive : ∀ key id, w'.view.HasLive key id → w.view.HasLive key id ∧ Untouched w w' key := by
    intro key id hrow
    rcases h.statement key with hkept | hgone
    · exact ⟨(hkept.live id).mp hrow, hkept⟩
    · exact absurd hrow.mem_members hgone.members
  have hnumbers : w'.Numbers := by
    refine ⟨le_trans hw.numbers.counter h.statementCounter,
      h.reliable hw.numbers.reliable, ?_, ?_⟩
    · intro key id hid
      obtain ⟨hnonneg, hle⟩ := hw.numbers.bounded key id (hlookup key id hid).1
      exact ⟨hnonneg, le_trans hle h.statementCounter⟩
    · exact fun key key' id hid hid' =>
        hw.numbers.injective key key' id (hlookup key id hid).1 (hlookup key' id hid').1
  refine ⟨⟨hnumbers, ?_, ?_, ?_⟩, ?_, ?_, ?_⟩
  · rw [h.committed]
    exact hw.committed.later h.statementCounter fun key id hid => .inl (hlookup key id hid).1
  · constructor
    · rw [h.ids]
      exact fun id hid => le_trans (hw.view.bounded id hid) h.statementCounter
    · intro key id hid hmem
      rw [h.ids] at hmem
      obtain ⟨hold, hkept⟩ := hlookup key id hid
      exact (hkept.live id).mpr (hw.view.live key id hold hmem)
  · intro key id hrow
    obtain ⟨hold, hkept⟩ := hlive key id hrow
    rw [h.committed, h.transaction]
    exact (hw.owned key id hold).imp_right (hkept.owns _ id)
  · exact fun key id hid => .inl (hlookup key id hid).1
  · intro key transaction id howns
    rcases h.statement key with hkept | hgone
    · exact .inl (hkept.owns transaction id howns)
    · exact .inr hgone.writing
  · intro key id hrow
    rcases h.statement key with hkept | hgone
    · exact .inl ((hkept.live id).mpr hrow)
    · exact .inr hgone.lookup

end Removes

theorem Tables.hasLive_withDeleted {tables : Tables} {ids : List Int} :
    (tables.withDeleted ids).HasLive key id ↔ tables.HasLive key id ∧ id ∉ ids := by
  constructor
  · rintro ⟨r, hr, hlive, rfl, rfl⟩
    obtain ⟨hmem, hkept⟩ := live_of_mem_withDeleted hr hlive
    exact ⟨⟨r, hmem, hlive, rfl, rfl⟩, hkept⟩
  · rintro ⟨⟨r, hr, hlive, rfl, rfl⟩, hkept⟩
    exact ⟨r, mem_withDeleted_iff.mpr (.inl ⟨hr, fun hid => absurd hid hkept⟩), hlive, rfl, rfl⟩

/-- Whether the live row of a statement, if it has one, is that with its id. -/
def Tables.Locates (tables : Tables) (t : Statement) : Prop :=
  ∀ key id, tables.HasLive key id → (key = t.key ↔ id = t.id)

theorem Action.removeStatement_removes (hreliable : w.store.registry.Reliable w.registryFile)
    (hid : 0 ≤ t.id) (hrow : w.view.Locates t) {answer : Statement × Bool}
    (h : removeStatement t w = .ok answer w') : Removes w w' := by
  obtain ⟨⟨t₁, removed⟩, w₁, hdelete, h⟩ := bind_eq_ok_iff.mp h
  cases hbegin : beginWrite w with
  | error e w₂ => cases (deleteStatement_error hid hbegin).symm.trans hdelete
  | ok u w₂ =>
      obtain ⟨t₂, removed', heq, -, hkey, -⟩ := deleteStatement_eq hid hbegin
      cases heq.symm.trans hdelete
      cases h
      obtain ⟨hwriting, hview⟩ := beginWrite_eq_ok hbegin
      have hbegun := Removes.of_silent (beginWrite_silent.ok hbegin)
      refine IsTrans.trans _ _ _ hbegun ?_
      have hdeleted := Registry.deleted (hbegun.reliable hreliable) t₁.key
      rw [← hview] at hrow
      have hlive : ∀ {key id}, (w₂.view.withDeleted [t.id]).HasLive key id ↔
          w₂.view.HasLive key id ∧ key ≠ t.key := by
        intro key id
        rw [Tables.hasLive_withDeleted, List.mem_singleton]
        exact and_congr_right fun hold => not_congr (hrow key id hold).symm
      have hworks := (unregister_quiet t₁.key (withRemoved w₂ t.id)).toWorks
      refine ⟨IsTrans.trans _ _ _ (withRemoved_works hwriting t.id) hworks,
        fun _ => hdeleted.reliable, Tables.map_id_withDeleted _ _, fun k => ?_⟩
      by_cases hk : k = t.key
      · refine .inr ⟨(hdeleted.lookup k).trans (if_pos (hkey.trans hk.symm)), ?_, rfl⟩
        rintro ⟨r, hr, hrow', hsame⟩
        exact (hlive.mp ⟨r, hr, hrow', hsame, rfl⟩).2 hk
      · have hne : t₁.key ≠ k := fun hsame => hk (hsame.symm.trans hkey)
        exact .inl ⟨(hdeleted.lookup k).trans (if_neg hne), fun _ _ => hdeleted.owns k _ _ hne,
          fun id => hlive.trans (and_iff_left hk)⟩

section

variable {R : Workspace → Workspace → Prop}

/-- Work that does something in some way and after which no row is live
that has not been before. -/
def Shrinks (R : Workspace → Workspace → Prop) (w w' : Workspace) : Prop :=
  R w w' ∧ ∀ key id, w'.view.HasLive key id → w.view.HasLive key id

theorem Shrinks.of_silent (hsilent : ∀ w w', Silent w w' → R w w') (h : Silent w w') :
    Shrinks R w w' :=
  ⟨hsilent w w' h, fun _ _ => (Tables.hasLive_congr h.statements).mp⟩

theorem Tables.Locates.shrinks (h : w.view.Locates t) (hshrinks : Shrinks R w w') :
    w'.view.Locates t :=
  fun key id hlive => h key id (hshrinks.2 key id hlive)

theorem Transaction.removeOne_shrinks (hsilent : ∀ w w', Silent w w' → R w w')
    (hremove : ∀ w w' t answer, 0 ≤ t.id → w.view.Locates t →
      Action.removeStatement t w = .ok answer w' → R w w')
    (hid : 0 ≤ t.id) (hrow : x.work.view.Locates t) :
    Shrinks R x.work (finalState (removeOne t x)).work := by
  rcases removeOne_cases hid x with
    ⟨t', removed, y, hop, -, -, hview, -, hremoved, -⟩ | ⟨e, y, hop, -, hunder⟩
  · rw [hop]
    refine ⟨hremove _ _ t _ hid hrow hremoved, fun key id hlive => ?_⟩
    rw [finalState_ok, hview] at hlive
    exact (Tables.hasLive_withDeleted.mp hlive).1
  · rw [hop]
    exact .of_silent hsilent hunder.work

variable [IsPreorder Workspace R]

instance : IsPreorder Workspace (Shrinks R) where
  refl w := ⟨refl w, fun _ _ h => h⟩
  trans _ _ _ h h' := ⟨IsTrans.trans _ _ _ h.1 h'.1,
    fun key id hlive => h.2 key id (h'.2 key id hlive)⟩

theorem Transaction.removals_shrink {found : List Statement}
    (hsilent : ∀ w w', Silent w w' → R w w')
    (hremove : ∀ w w' t answer, 0 ≤ t.id → w.view.Locates t →
      Action.removeStatement t w = .ok answer w' → R w w')
    (hfound : ∀ t ∈ found, 0 ≤ t.id ∧ x.work.view.Locates t) :
    Shrinks R x.work (finalState (found.mapM removeOne x)).work := by
  induction found generalizing x with
  | nil => exact refl x.work
  | cons t rest ih =>
      obtain ⟨hid, hrow⟩ := hfound t (by simp)
      have hfirst := removeOne_shrinks hsilent hremove hid hrow
      rw [List.mapM_cons]
      refine finalState_bind (R := Order.Preimage (fun x : Scope => x.work) (Shrinks R)) hfirst
        fun removed y hop => ?_
      rw [hop] at hfirst
      refine finalState_bind (R := Order.Preimage (fun x : Scope => x.work) (Shrinks R)) ?_
        fun removals z _ => refl z.work
      exact ih fun u hu =>
        ⟨(hfound u (by simp [hu])).1, (hfound u (by simp [hu])).2.shrinks hfirst⟩

end

theorem Action.listStatements_locates {subject predicate object context : Option Node}
    {inferred : Bool} {found : List Statement} (hw : w.Good)
    (h : listStatements subject predicate object context inferred w = .ok found w') :
    ∀ t ∈ found, 0 ≤ t.id ∧ w.view.Locates t := by
  obtain ⟨rows, hrows, hmem, -⟩ := listStatements_eq_ok hw.coherent.caches.keyed h
  have hsame : found.map (fun t => (t.key, t.id)) = rows.map fun r => (r.key, r.id) :=
    map_eq_of_forall₂ (hrows.flip.imp fun _ _ h => Prod.ext h.2 h.1)
  intro t ht
  have hlisted : (t.key, t.id) ∈ rows.map fun r => (r.key, r.id) :=
    hsame ▸ List.mem_map_of_mem ht
  obtain ⟨r, hr, heq⟩ := List.mem_map.mp hlisted
  obtain ⟨hkey, hid⟩ := Prod.mk.inj heq
  obtain ⟨hrow, hlive, -⟩ := (hmem r).mp hr
  refine ⟨hid ▸ hw.sound.nonneg r hrow, fun key id hheld => ⟨?_, ?_⟩⟩
  · rintro rfl
    exact hw.sound.hasLive_inj hheld ⟨r, hrow, hlive, hkey, hid⟩
  · rintro rfl
    obtain ⟨r', hr', -, rfl, hid'⟩ := hheld
    rw [hw.sound.row_eq hr' hrow (hid'.trans hid.symm), hkey]

theorem Transaction.remove_rel {R : Workspace → Workspace → Prop} [IsPreorder Workspace R]
    {subject predicate object context : Option Node} (hsilent : ∀ w w', Silent w w' → R w w')
    (hremove : ∀ w w' t answer, 0 ≤ t.id → w.view.Locates t →
      Action.removeStatement t w = .ok answer w' → R w w') (hgood : x.work.Good) :
    R x.work (finalState (remove subject predicate object context x)).work := by
  cases hclosed : x.closed with
  | true =>
      rw [remove, whileOpen_of_closed hclosed]
      exact refl x.work
  | false =>
      rw [remove, whileOpen_of_open hclosed]
      have hreads := Action.listStatements_reads subject predicate object context true
      refine finalState_bind (R := Order.Preimage (fun x : Scope => x.work) R) ?_
        fun found y hwork => ?_
      · exact hsilent _ _ (keeps_work hreads.silent x).work
      · obtain ⟨w, hlist, rfl⟩ := work_eq_ok_iff.mp hwork
        refine finalState_bind (R := Order.Preimage (fun x : Scope => x.work) R) ?_
          fun removals z _ => refl z.work
        refine (removals_shrink hsilent hremove fun t ht => ?_).1
        obtain ⟨hid, hrow⟩ := Action.listStatements_locates hgood hlist t ht
        rw [(hreads.ok hlist).view_eq]
        exact ⟨hid, hrow⟩

theorem Transaction.remove_removes {subject predicate object context : Option Node}
    (hgood : x.work.Good) (hreliable : x.work.store.registry.Reliable x.work.registryFile) :
    Removes x.work (finalState (remove subject predicate object context x)).work := by
  let R := fun w w' : Workspace =>
    w.store.registry.Reliable w.registryFile → Removes w w'
  have hpreorder : IsPreorder Workspace R :=
    { refl := fun w _ => refl w
      trans := fun w w' w'' h h' hr => IsTrans.trans w w' w'' (h hr) (h' ((h hr).reliable hr)) }
  exact remove_rel (R := R) (fun w w' h _ => .of_silent h)
    (fun w w' t answer hid hrow h hr => Action.removeStatement_removes hr hid hrow h)
      hgood hreliable

/-! Calls -/

/-- Whether a statement is asked for or added, or one cannot be asked for or added. -/
def Event.Requests (key : StatementKey) : Event → Prop
  | .call number before after c answer =>
      c.requests = true ∧ ∀ found ∈ (call number before after c answer).statement?,
        found.2.key = key
  | _ => False

instance (key : StatementKey) : DecidablePred (Event.Requests key)
  | .begin | .clearCaches | .evict _ => isFalse fun h => h
  | .call number before after c answer =>
      inferInstanceAs (Decidable (c.requests = true ∧
        ∀ found ∈ (Event.call number before after c answer).statement?, found.2.key = key))

theorem Transaction.Fails.assigning (hx : x.work.Assigns) (h : Fails x y) :
    Assigning (fun _ => True) x.work y.work := by
  rcases h with hunder | ⟨w, key, id, hrequested, hunder⟩
  · exact ((Removes.of_silent hunder.work).assigning hx).mono fun _ _ => trivial
  · obtain ⟨hquiet, hregistry⟩ := hunder.work
    have hgrants := Grants.of_requested hx.numbers hrequested
    have hsame := hgrants.sameRegistry hquiet.toWorks hregistry
    have hall : Quiet x.work y.work := IsTrans.trans _ _ _ hrequested.quiet hquiet
    exact (hsame.assigning_quiet hx hall).mono fun _ _ => trivial

theorem Call.assigning {c : Call} (hends : c.ends = false) (hx : x.work.Assigns)
    (hgood : x.work.Good) (number : Nat) (before after : Tables) :
    Assigning (fun key => (Event.call number before after c (answerOf (c.run x))).Requests key)
      x.work (finalState (c.run x)).work := by
  cases hremoves : c.removes with
  | true =>
      cases c with
      | remove subject predicate object context =>
          exact ((remove_removes hgood hx.numbers.reliable).assigning hx).mono fun _ h => h.elim
      | _ => cases hremoves
  | false =>
      rcases Call.request_cases hends hremoves hgood with
        ⟨hsilent, -⟩ | ⟨hrequests, ⟨t, hdone, hanswer⟩ | ⟨hfails, hanswer⟩⟩
      · exact ((Removes.of_silent hsilent).assigning hx).mono fun _ h => h.elim
      · have hassigning : Assigning (· = t.key) x.work (finalState (c.run x)).work := by
          rcases hdone with hrequested | hadds
          · exact hrequested.assigning hx
          · exact hadds.assigning hx
        refine hassigning.mono fun key hkey => ⟨hrequests, fun found hmem => ?_⟩
        cases (hanswer number before after).symm.trans hmem
        exact hkey.symm
      · refine (hfails.assigning hx).mono fun key _ => ⟨hrequests, fun found hmem => ?_⟩
        cases (hanswer number before after).symm.trans hmem

end QuadStore
