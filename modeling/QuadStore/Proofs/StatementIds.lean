import QuadStore.Proofs.OpenStores
import QuadStore.Proofs.RegistryOwners

namespace QuadStore

open QuadStore.Action (registered? withRegistered Identified Stored SameRegistry)

theorem Action.SameRegistry.registered?_eq {w w' : Workspace} (h : SameRegistry w w')
    (key : StatementKey) : registered? w' key = registered? w key := by
  rw [registered?, h.1, h.2, registered?]

theorem Silent.sameRegistry {w w' : Workspace} (h : Silent w w') : SameRegistry w w' :=
  ⟨h.registry, h.registryFile⟩

/-- Whether a live row holds a statement under an id. -/
def Tables.HasLive (t : Tables) (key : StatementKey) (id : Int) : Prop :=
  ∃ r ∈ t.statements, r.live = true ∧ r.key = key ∧ r.id = id

theorem Tables.HasLive.mem_members {t : Tables} {key : StatementKey} {id : Int}
    (h : t.HasLive key id) : key ∈ t.members := by
  obtain ⟨r, hr, hlive, hkey, -⟩ := h
  exact ⟨r, hr, hlive, hkey⟩

theorem Tables.hasLive_congr {t t' : Tables}
    (h : t'.statements = t.statements) {key : StatementKey}
    {id : Int} : t'.HasLive key id ↔ t.HasLive key id := by
  rw [HasLive, h, HasLive]

theorem Tables.Sound.hasLive_inj {t : Tables} (h : t.Sound) {key : StatementKey} {id id' : Int}
    (hid : t.HasLive key id) (hid' : t.HasLive key id') : id = id' := by
  obtain ⟨r, hr, hlive, hkey, rfl⟩ := hid
  obtain ⟨r', hr', hlive', hkey', rfl⟩ := hid'
  rw [h.liveKeys r hr r' hr' hlive hlive' (hkey.trans hkey'.symm)]

theorem Tables.hasLive_withStatement {t : Tables} {row : StatementRow} (hlive : row.live = true)
    {key : StatementKey} {id : Int} : (t.withStatement row).HasLive key id ↔
      t.HasLive key id ∨ key = row.key ∧ id = row.id := by
  have hrows : ∀ r, r ∈ (t.withStatement row).statements ↔ r ∈ t.statements ∨ r = row := by
    simp [Tables.withStatement]
  constructor
  · rintro ⟨r, hr, hr', rfl, rfl⟩
    rcases (hrows r).mp hr with hr | rfl
    · exact .inl ⟨r, hr, hr', rfl, rfl⟩
    · exact .inr ⟨rfl, rfl⟩
  · rintro (⟨r, hr, hrow⟩ | ⟨rfl, rfl⟩)
    · exact ⟨r, (hrows r).mpr (.inl hr), hrow⟩
    · exact ⟨row, (hrows row).mpr (.inr rfl), hlive, rfl, rfl⟩

open Transaction in
theorem Transaction.Adds.live {x y : Scope} {t : Statement} (h : Adds x y t) :
    y.work.view.HasLive t.key t.id := by
  obtain ⟨w, t₁, added, -, hkey, hstored, -⟩ := h.stored
  cases hstored with
  | found hview hrow =>
      rw [hview, hkey]
      exact hrow
  | added hview hnew hfresh hid =>
      rw [hview]
      exact (Tables.hasLive_withStatement rfl).mpr (.inr ⟨rfl, rfl⟩)

namespace Workspace

/-- Whether an id is registered for a transaction. -/
def Owns (w : Workspace) (key : StatementKey) (transaction id : Int) : Prop :=
  w.store.registry.Owns w.registryFile key transaction id

/-- Whether a connection has registered a statement under an id or sees a live row with it. -/
def Knows (w : Workspace) (key : StatementKey) (id : Int) : Prop :=
  w.Owns key w.conn.transaction id ∨ w.view.HasLive key id

/-- Whether no two statements are registered under one id, and no id that the
counter has not reached. -/
structure Numbers (w : Workspace) : Prop where
  counter : 0 ≤ w.store.counters.statements
  reliable : w.store.registry.Reliable w.registryFile
  bounded : ∀ key id, registered? w key = some id → 0 ≤ id ∧ id ≤ w.store.counters.statements
  injective : ∀ key key' id, registered? w key = some id →
    registered? w key' = some id → key = key'

theorem Numbers.registered_of_owns {w : Workspace} (h : w.Numbers) {key : StatementKey}
    {transaction id : Int} (howns : w.Owns key transaction id) : registered? w key = some id :=
  Registry.lookup?_of_owns h.reliable howns

/-- Whether the rows of some tables are in line with the registry: a registered id is that of the
live row of its statement, if it is the id of a row or if there is such a row. -/
structure Agrees (w : Workspace) (t : Tables) : Prop where
  bounded : ∀ r ∈ t.statements, r.id ≤ w.store.counters.statements
  key : ∀ r ∈ t.statements, ∀ key, registered? w key = some r.id → r.key = key ∧ r.live = true
  id : ∀ key id, t.HasLive key id → ∀ id', registered? w key = some id' → id = id'

theorem Agrees.congr {w : Workspace} {t t' : Tables} (h : w.Agrees t)
    (hsame : t'.statements = t.statements) : w.Agrees t' := by
  refine ⟨?_, ?_, ?_⟩
  · rw [hsame]
    exact h.bounded
  · rw [hsame]
    exact h.key
  · intro key id hlive
    exact h.id key id ((Tables.hasLive_congr hsame).mp hlive)

theorem Agrees.of_statementCounter {w w' : Workspace} {t : Tables} (h : w.Agrees t)
    (hcounter : w.store.counters.statements ≤ w'.store.counters.statements)
    (hregistered : ∀ key, registered? w' key = registered? w key) : w'.Agrees t := by
  refine ⟨fun r hr => le_trans (h.bounded r hr) hcounter, ?_, ?_⟩
  · intro r hr key hid
    rw [hregistered] at hid
    exact h.key r hr key hid
  · intro key id hlive id' hid
    rw [hregistered] at hid
    exact h.id key id hlive id' hid

/-- A live row may be added under the id that its statement is registered by. -/
theorem Agrees.withStatement {w : Workspace} {t : Tables} (h : w.Agrees t) (hw : w.Numbers)
    {row : StatementRow} (hlive : row.live = true) (hid : registered? w row.key = some row.id) :
    w.Agrees (t.withStatement row) := by
  have hrows : ∀ r ∈ (t.withStatement row).statements, r ∈ t.statements ∨ r = row := by
    simp [Tables.withStatement]
  refine ⟨?_, ?_, ?_⟩
  · intro r hr
    rcases hrows r hr with hold | rfl
    · exact h.bounded r hold
    · exact (hw.bounded r.key r.id hid).2
  · intro r hr key hkey
    rcases hrows r hr with hold | rfl
    · exact h.key r hold key hkey
    · exact ⟨hw.injective r.key key r.id hid hkey, hlive⟩
  · intro key id hlive' id' hid'
    rcases (Tables.hasLive_withStatement hlive).mp hlive' with hold | ⟨rfl, rfl⟩
    · exact h.id key id hold id' hid'
    · exact Option.some.inj (hid.symm.trans hid')

/-- Whether statements have one id each. What a connection sees is committed, or is
registered for its transaction. -/
structure Identifies (w : Workspace) : Prop where
  numbers : w.Numbers
  committed : w.Agrees w.database.committed
  view : w.Agrees w.view
  kept : ∀ key id, w.database.committed.HasLive key id → w.view.HasLive key id
  owned : ∀ key id, w.view.HasLive key id →
    w.database.committed.HasLive key id ∨ w.Owns key w.conn.transaction id

/-- The next id of the counter is registered for a statement. -/
def minted (w : Workspace) (key : StatementKey) : Workspace :=
  withRegistered
    { w with store := { w.store with counters := w.store.counters.next .statements } } key
    (w.store.counters.statements + 1)

end Workspace

/-- What is registered stays so, and what may be registered besides is in line with all rows that
are committed or registered. -/
structure Extends (w w' : Workspace) : Prop where
  committed : w'.database.committed = w.database.committed
  numbers : w'.Numbers
  owns : ∀ key transaction id, w.Owns key transaction id → w'.Owns key transaction id
  agrees : ∀ t transaction, w.Agrees t → (∀ key id, t.HasLive key id →
    w.database.committed.HasLive key id ∨ w.Owns key transaction id) → w'.Agrees t

namespace Extends

variable {w w' w'' : Workspace} {key : StatementKey} {id : Int}

theorem trans (h : Extends w w') (h' : Extends w' w'') : Extends w w'' where
  committed := h'.committed.trans h.committed
  numbers := h'.numbers
  owns key transaction id howns := h'.owns key transaction id (h.owns key transaction id howns)
  agrees t transaction ht hknown := by
    apply h'.agrees t transaction (h.agrees t transaction ht hknown)
    intro key id hlive
    rw [h.committed]
    exact (hknown key id hlive).imp_right (h.owns key transaction id)

theorem of_registered (hw : w.Numbers) (hcommitted : w'.database.committed = w.database.committed)
    (hcounter : w.store.counters.statements ≤ w'.store.counters.statements)
    (hreliable : w'.store.registry.Reliable w'.registryFile)
    (hregistered : ∀ key, registered? w' key = registered? w key)
    (howns : ∀ key transaction id, w.Owns key transaction id → w'.Owns key transaction id) :
    Extends w w' := by
  refine ⟨hcommitted, ⟨le_trans hw.counter hcounter, hreliable, ?_, ?_⟩, howns,
    fun t transaction ht _ => ht.of_statementCounter hcounter hregistered⟩
  · intro key id hid
    rw [hregistered] at hid
    obtain ⟨hnonneg, hle⟩ := hw.bounded key id hid
    exact ⟨hnonneg, le_trans hle hcounter⟩
  · intro key key' id hid hid'
    rw [hregistered] at hid hid'
    exact hw.injective key key' id hid hid'

theorem of_sameRegistry (hw : w.Numbers) (hworks : Works w w') (h : SameRegistry w w') :
    Extends w w' := by
  have hregistered := h.registered?_eq
  obtain ⟨hregistry, hfile⟩ := h
  refine of_registered hw hworks.committed hworks.statementCounter ?_ hregistered ?_
  · rw [hregistry, hfile]
    exact hw.reliable
  · intro key transaction id howns
    rw [Workspace.Owns, hregistry, hfile]
    exact howns

theorem of_silent (hw : w.Numbers) (h : Silent w w') : Extends w w' :=
  of_sameRegistry hw h.toWorks h.sameRegistry

theorem registers (hw : w.Numbers) (hid : ∀ id', registered? w key = some id' → id' = id) :
    Registry.Registers w.store.registry w.registryFile key w.conn.transaction id
      (withRegistered w key id).store.registry (withRegistered w key id).registryFile :=
  Registry.registers hw.reliable hid

theorem registered?_shared (hw : w.Numbers) (h : registered? w key = some id) (k : StatementKey) :
    registered? (withRegistered w key id) k = registered? w k := by
  rw [registered?, (registers hw fun id' hid => Option.some.inj (hid.symm.trans h)).lookup k]
  split
  · rename_i hk
    rw [hk, h]
  · rfl

theorem of_shared (hw : w.Numbers) (h : registered? w key = some id) :
    Extends w (withRegistered w key id) := by
  have hregisters := registers hw fun id' hid => Option.some.inj (hid.symm.trans h)
  exact of_registered hw rfl (le_refl _) hregisters.reliable
    (registered?_shared hw h) hregisters.owns

theorem registers_minted (hw : w.Numbers) (h : registered? w key = none) :
    Registry.Registers w.store.registry w.registryFile key w.conn.transaction
      (w.store.counters.statements + 1) (w.minted key).store.registry
      (w.minted key).registryFile := by
  apply Registry.registers hw.reliable
  intro id' hid
  cases h.symm.trans hid

theorem registered?_minted (hw : w.Numbers) (h : registered? w key = none)
    {k : StatementKey} {i : Int} (hi : registered? (w.minted key) k = some i) :
    k = key ∧ i = w.store.counters.statements + 1 ∨ registered? w k = some i := by
  rw [registered?, (registers_minted hw h).lookup k] at hi
  split at hi
  · exact .inl ⟨‹_›, (Option.some.inj hi).symm⟩
  · exact .inr hi

theorem numbers_minted (hw : w.Numbers) (h : registered? w key = none) :
    (w.minted key).Numbers := by
  have hcounter := hw.counter
  refine ⟨?_, (registers_minted hw h).reliable, ?_, ?_⟩
  · show 0 ≤ w.store.counters.statements + 1
    omega
  · intro k i hi
    show 0 ≤ i ∧ i ≤ w.store.counters.statements + 1
    rcases registered?_minted hw h hi with ⟨-, rfl⟩ | hold
    · omega
    · have hbounded := hw.bounded k i hold
      omega
  · intro k k' i hi hi'
    rcases registered?_minted hw h hi with ⟨rfl, rfl⟩ | hold <;>
      rcases registered?_minted hw h hi' with ⟨rfl, hid⟩ | hold'
    · rfl
    · have hbounded := hw.bounded k' _ hold'
      omega
    · have hbounded := hw.bounded k _ hold
      omega
    · exact hw.injective k k' i hold hold'

theorem agrees_minted (hw : w.Numbers) (h : registered? w key = none)
    {t : Tables} (ht : w.Agrees t) (hnew : ∀ i, ¬t.HasLive key i) : (w.minted key).Agrees t := by
  refine ⟨?_, ?_, ?_⟩
  · intro r hr
    show r.id ≤ w.store.counters.statements + 1
    have hbounded := ht.bounded r hr
    omega
  · intro r hr k hi
    rcases registered?_minted hw h hi with ⟨-, hid⟩ | hold
    · have hbounded := ht.bounded r hr
      omega
    · exact ht.key r hr k hold
  · intro k i hlive i' hi'
    rcases registered?_minted hw h hi' with ⟨rfl, -⟩ | hold
    · exact absurd hlive (hnew i)
    · exact ht.id k i hlive i' hold

theorem of_identified (hw : w.Identifies) (h : Identified w key id w') : Extends w w' := by
  cases h with
  | shared h => exact of_shared hw.numbers h
  | stored h hrow hreads => exact of_silent hw.numbers hreads.silent
  | minted h hnew hid =>
      subst hid
      refine ⟨rfl, numbers_minted hw.numbers h, (registers_minted hw.numbers h).owns, ?_⟩
      intro t transaction ht hknown
      refine agrees_minted hw.numbers h ht fun i hlive => ?_
      -- A live row would be seen here or be registered.
      rcases hknown key i hlive with hcommitted | howns
      · exact hnew (hw.kept key i hcommitted).mem_members
      · cases h.symm.trans (hw.numbers.registered_of_owns howns)

end Extends

theorem Workspace.Numbers.known {w w' : Workspace} (hw : w.Numbers)
    {key : StatementKey} {id : Int} (h : Identified w key id w') : w'.Knows key id := by
  cases h with
  | shared h =>
      left
      exact (Extends.registers hw fun id' hid => Option.some.inj (hid.symm.trans h)).owned
  | stored h hrow hreads =>
      right
      rw [hreads.view_eq]
      exact hrow
  | minted h hnew hid =>
      left
      subst hid
      exact (Extends.registers_minted hw h).owned

theorem Action.Stored.hasLive {w w' : Workspace} {t t' : Statement} {added : Bool}
    (h : Stored w w' t t' added) {key : StatementKey} {id : Int} (hlive : w.view.HasLive key id) :
    w'.view.HasLive key id := by
  cases h with
  | found hview hrow => rwa [hview]
  | added hview hnew hfresh hid =>
      rw [hview]
      exact (Tables.hasLive_withStatement rfl).mpr (.inl hlive)

namespace Workspace.Identifies

variable {w w' : Workspace}

theorem quiet (hw : w.Identifies) (hquiet : Quiet w w') (h : Extends w w') : w'.Identifies := by
  have hlive : ∀ {key id}, w'.view.HasLive key id ↔ w.view.HasLive key id :=
    Tables.hasLive_congr hquiet.statements
  refine ⟨h.numbers, ?_, ?_, ?_, ?_⟩
  · rw [h.committed]
    exact h.agrees _ w.conn.transaction hw.committed fun key id hid => .inl hid
  · exact (h.agrees _ w.conn.transaction hw.view hw.owned).congr hquiet.statements
  · intro key id hid
    rw [h.committed] at hid
    exact hlive.mpr (hw.kept key id hid)
  · intro key id hid
    rw [h.committed, hquiet.transaction]
    exact (hw.owned key id (hlive.mp hid)).imp_right (h.owns key _ id)

theorem stored (hw : w.Identifies) (hsound : w.view.Sound) {t t' : Statement} {added : Bool}
    (hknown : w.Knows t.key t.id)
    (hkey : t'.key = t.key) (h : Stored w w' t t' added) (hworks : Works w w')
    (hregistry : SameRegistry w w') :
    w'.Identifies ∧ t'.id = t.id ∧ w'.view.HasLive t.key t.id := by
  have hextends := Extends.of_sameRegistry hw.numbers hworks hregistry
  cases h with
  | found hview hrow =>
      have hid : t'.id = t.id := by
        rcases hknown with howns | hlive
        · exact hw.view.id t.key t'.id hrow t.id (hw.numbers.registered_of_owns howns)
        · exact hsound.hasLive_inj hrow hlive
      refine ⟨?_, hid, ?_⟩
      · exact hw.quiet ⟨hworks, by rw [hview]⟩ hextends
      · rw [hview, ← hid]
        exact hrow
  | added hview hnew hfresh hid =>
      have howns := hknown.resolve_right fun hlive => hnew hlive.mem_members
      have hregistered := hw.numbers.registered_of_owns howns
      obtain ⟨hnonneg, hbounded⟩ := hw.numbers.bounded _ _ hregistered
      have hid : t'.id = t.id := by
        apply hid hnonneg
        intro hused
        obtain ⟨r, hr, hrid⟩ := List.mem_map.mp hused
        obtain ⟨hrkey, hlive⟩ := hw.view.key r hr t.key (by rw [hrid, hregistered])
        exact hnew ⟨r, hr, hlive, hrkey⟩
      have hrow : (StatementRow.ofStatement t').key = t.key ∧
          (StatementRow.ofStatement t').id = t.id :=
        ⟨(StatementRow.key_ofStatement t').trans hkey, hid⟩
      have hlive : ∀ {key id}, w'.view.HasLive key id ↔
          w.view.HasLive key id ∨ key = t.key ∧ id = t.id := by
        intro key id
        rw [hview, Tables.hasLive_withStatement rfl, hrow.1, hrow.2]
      refine ⟨⟨hextends.numbers, ?_, ?_, ?_, ?_⟩, hid, hlive.mpr (.inr ⟨rfl, rfl⟩)⟩
      · rw [hextends.committed]
        exact hextends.agrees _ w.conn.transaction hw.committed fun key id hid => .inl hid
      · rw [hview]
        refine (hextends.agrees _ w.conn.transaction hw.view hw.owned).withStatement
          hextends.numbers rfl ?_
        rw [hrow.1, hrow.2]
        exact hextends.numbers.registered_of_owns (hextends.owns _ _ _ howns)
      · intro key id hcommitted
        rw [hextends.committed] at hcommitted
        exact hlive.mpr (.inl (hw.kept key id hcommitted))
      · intro key id hseen
        rw [hextends.committed, hworks.transaction]
        rcases hlive.mp hseen with hold | ⟨rfl, rfl⟩
        · exact (hw.owned key id hold).imp_right (hextends.owns key _ id)
        · exact .inr (hextends.owns _ _ _ howns)

end Workspace.Identifies
end QuadStore
