import QuadStore.Proofs.RegistryEntries
import QuadStore.Proofs.StatementIdentity
import QuadStore.Proofs.Undoing

namespace QuadStore

open Transaction
open QuadStore.Action (SameRegistry Identified withRegistered)

/-- Work for which a connection registers ids of some statements for its
transaction and drops others. -/
structure UsesRegistry (asked : StatementKey → Prop) (w w' : Workspace) : Prop where
  transaction : w'.conn.transaction = w.conn.transaction
  uses : Registry.Uses asked w.conn.transaction (w.store.registry, w.registryFile)
    (w'.store.registry, w'.registryFile)

/-- The same of all that a transaction changes. -/
abbrev ScopeUses (asked : StatementKey → Prop) : Scope → Scope → Prop :=
  Order.Preimage (fun x : Scope => x.work) (UsesRegistry asked)

section

variable {asked asked' : StatementKey → Prop} {w w' : Workspace}
  {x y : Scope} {key : StatementKey}
  {id : Int}

namespace UsesRegistry

instance : IsPreorder Workspace (UsesRegistry asked) where
  refl _ := ⟨rfl, .refl⟩
  trans _ _ _ h h' := ⟨h'.transaction.trans h.transaction, h.uses.trans (h.transaction ▸ h'.uses)⟩

theorem mono (h : UsesRegistry asked w w') (hmono : ∀ key, asked key → asked' key) :
    UsesRegistry asked' w w' :=
  ⟨h.transaction, h.uses.mono hmono⟩

theorem of_same (htransaction : w'.conn.transaction = w.conn.transaction)
    (h : SameRegistry w w') :
    UsesRegistry asked w w' := by
  refine ⟨htransaction, ?_⟩
  rw [h.1, h.2]
  exact .refl

theorem of_silent (h : Silent w w') : UsesRegistry asked w w' :=
  .of_same h.transaction h.sameRegistry

theorem of_identified (h : Identified w key id w') (hkey : asked key) :
    UsesRegistry asked w w' := by
  cases h with
  | shared h => exact ⟨rfl, .register .refl hkey id⟩
  | stored h hrow hreads => exact .of_silent hreads.silent
  | minted h hnew hid => exact ⟨rfl, .register .refl hkey id⟩

end UsesRegistry

theorem Action.createStatement_uses {subject predicate object : Node} {context : Option Node}
    {t : Statement} (hgood : w.Good)
    (h : createStatement subject predicate object context w = .ok t w') :
    UsesRegistry (· = t.key) w w' := by
  obtain ⟨w₁, hsilent, hidentified, -⟩ := createStatement_eq_ok hgood h
  exact IsTrans.trans _ _ _ (.of_silent hsilent) (UsesRegistry.of_identified hidentified rfl)

theorem Action.removeStatement_uses (t : Statement) :
    Keeps (UsesRegistry asked) (removeStatement t) := by
  have deletes : Keeps (UsesRegistry asked) (deleteStatement t) := by
    intro w
    refine .of_same (deleteStatement_works t w).transaction ?_
    by_cases hid : 0 ≤ t.id
    · cases hbegin : beginWrite w with
      | error e w₁ =>
          rw [deleteStatement_error hid hbegin]
          exact (beginWrite_silent.error hbegin).sameRegistry
      | ok u w₁ =>
          obtain ⟨t', removed, heq, -⟩ := deleteStatement_eq hid hbegin
          rw [heq]
          exact (beginWrite_silent.ok hbegin).sameRegistry
    · unfold deleteStatement
      rw [if_pos (by omega)]
      exact ⟨rfl, rfl⟩
  have unregisters : ∀ key, Keeps (UsesRegistry asked) (unregister key) :=
    fun key w => ⟨rfl, .delete .refl key⟩
  exact deletes.bind fun _ => (unregisters _).bind fun _ => .pure _

theorem keeps_scopeUses {α : Type} {a : Action α} (h : Keeps (UsesRegistry asked) a) :
    Keeps (ScopeUses asked) (work a) :=
  (keeps_work h).mono fun _ _ hunder => hunder.work

theorem Transaction.store_uses (t : Statement) : Keeps (ScopeUses asked) (store t) := by
  refine Keeps.bind (keeps_scopeUses fun w => ?_) fun ⟨t, added⟩ => ?_
  · exact .of_same (Action.storeStatement_works t w).transaction
      (Action.storeStatement_sameRegistry t w)
  · cases added <;> exact fun x => refl x.work

theorem Transaction.remove_uses (subject predicate object context : Option Node) :
    Keeps (ScopeUses asked) (remove subject predicate object context) := by
  refine keeps_whileOpen (Keeps.bind (keeps_scopeUses fun w => ?_) fun found => ?_)
  · exact .of_silent ((Action.listStatements_reads _ _ _ _ _).silent w)
  · refine (Keeps.mapM fun t _ => ?_).bind fun removals => .pure _
    refine (keeps_scopeUses (Action.removeStatement_uses t)).bind fun ⟨t, removed⟩ => ?_
    cases removed <;> exact fun x => refl x.work

namespace Call

/-- How a call makes the statement that it asks for or adds. -/
def making? : Call → Option (Operation Statement)
  | .statement s p o g | .add s p o g => some (work (Action.createStatement s p o g))
  | .addInferred s p o g => some do
      let g ←
        match g with
        | some c => pure c
        | none => work do Action.createUri (← get).store.config.inferredContext
      work (Action.createStatement s p o (some g))
  | _ => none

/-- Whether a call asks for the statement of a key or adds it, be it in vain in the end. -/
def Makes (c : Call) (x : Scope) (key : StatementKey) : Prop :=
  x.closed = false ∧ ∃ making t y, c.making? = some making ∧ making x = .ok t y ∧ t.key = key

theorem addMade_uses (s p o : Node) (g : Option Node) (mark : Statement → Statement)
    (hgood : x.work.Good) :
    ScopeUses (fun key => ∃ t y, work (Action.createStatement s p o g) x = .ok t y ∧
      t.key = key) x (finalState (addMade s p o g mark x)) := by
  unfold addMade
  cases hcreate : Action.createStatement s p o g x.work with
  | error e w =>
      rw [bind_of_error (work_of_error hcreate)]
      exact .of_silent (Action.createStatement_failing _ _ _ _ _ _ _ hcreate)
  | ok t w =>
      rw [bind_of_ok (work_of_ok hcreate)]
      have hmade : UsesRegistry
          (fun key => ∃ t y, work (Action.createStatement s p o g) x = .ok t y ∧
            t.key = key) x.work w :=
        (Action.createStatement_uses hgood hcreate).mono fun key hkey =>
          ⟨t, _, work_of_ok hcreate, hkey.symm⟩
      exact IsTrans.trans x.work w _ hmade (store_uses (mark t) { x with work := w })

theorem uses {c : Call} (hends : c.ends = false) (hgood : x.work.Good) :
    ScopeUses (c.Makes x) x (finalState (c.run x)) := by
  cases hclosed : x.closed with
  | true =>
      rw [c.run_of_closed hclosed]
      exact refl x.work
  | false =>
      cases hchanges : c.changesStatements with
      | false => exact .of_silent (Call.silent hends hchanges x).work
      | true =>
          cases c with
          | statement s p o g =>
              have hrun : (Call.statement s p o g).run x =
                  work (Action.createStatement s p o g) x :=
                whileOpen_of_open hclosed
              rw [hrun]
              cases hcreate : Action.createStatement s p o g x.work with
              | error e w =>
                  rw [work_of_error hcreate]
                  exact .of_silent (Action.createStatement_failing _ _ _ _ _ _ _ hcreate)
              | ok t w =>
                  rw [work_of_ok hcreate]
                  refine (Action.createStatement_uses hgood hcreate).mono ?_
                  rintro _ rfl
                  exact ⟨hclosed, _, t, _, rfl, work_of_ok hcreate, rfl⟩
          | add s p o g =>
              rw [run, Transaction.add, whileOpen_of_open hclosed]
              refine (addMade_uses s p o g (fun t => t) hgood).mono ?_
              rintro key ⟨t, y, hmade, hkey⟩
              exact ⟨hclosed, _, t, y, rfl, hmade, hkey⟩
          | addInferred s p o g =>
              show ScopeUses _ x (finalState (Transaction.addInferred s p o g x))
              rcases addInferred_cases hclosed with
                ⟨e, w, -, hfails, hadd⟩ | ⟨c, w, hcontext, hadd⟩
              · rw [hadd]
                exact .of_silent ((keeps_inferredContext Action.createUri_silent).error hfails)
              · rw [hadd]
                refine IsTrans.trans x.work w _ (.of_silent hcontext.silent) ?_
                refine (addMade_uses (x := { x with work := w }) s p o (some c)
                  (fun t => { t with inferred := true }) (hcontext.silent.good hgood)).mono ?_
                rintro key ⟨t, y, hmade, hkey⟩
                refine ⟨hclosed, _, t, y, rfl, ?_, hkey⟩
                cases hcontext with
                | given => exact hmade
                | made hcreate => exact (bind_of_ok (work_of_ok hcreate)).trans hmade
          | remove s p o g => exact remove_uses s p o g x
          | _ => cases hchanges

end Call

end

namespace OpenStore

variable {s₀ s s' : OpenStore} {log : List Event} {e : Event} {i : Nat} {x y : Scope}
  {key : StatementKey} {owner : Int}

/-- Whether in a run from one state to another a transaction has asked for a
statement or added it. -/
def Made (s₀ : OpenStore) (log : List Event) (s : OpenStore) (i : Nat)
    (key : StatementKey) : Prop :=
  ∃ log₁ s₁ x c log₂, s₀.Run log₁ s₁ ∧ s₁.scope? i = some x ∧ c.Makes x key ∧
    (s₁.after i c).Run log₂ s ∧ log = log₁ ++ s₁.noted i c ++ log₂

theorem Made.snoc (h : Made s₀ log s i key) (hstep : s.Step e s') :
    Made s₀ (log ++ [e]) s' i key := by
  obtain ⟨log₁, s₁, x, c, log₂, hbefore, hx, hmakes, hafter, rfl⟩ := h
  exact ⟨log₁, s₁, x, c, log₂ ++ [e], hbefore, hx, hmakes, .snoc hafter hstep, by simp⟩

theorem Made.of_makes {c : Call} (hrun : s₀.Run log s) (hx : s.scope? i = some x)
    (hmakes : c.Makes x key) :
    Made s₀ (log ++ [.call i x.work.view (finalState (c.run x)).work.view c (answerOf (c.run x))])
      (s.put i (finalState (c.run x))) i key := by
  refine ⟨log, s, x, c, [], hrun, hx, hmakes, ?_, ?_⟩
  · rw [after_of_some hx]
    exact .nil
  · rw [noted, hx, List.append_nil]

/-- Whether a transaction, which has the given id, has asked for a statement or added it. Unless
lists of keys have been lost it is open. -/
def Claims (s₀ : OpenStore) (log : List Event) (s : OpenStore)
    (key : StatementKey) (owner : Int) :
    Prop :=
  ∃ i x, s.scope? i = some x ∧ (Event.KeepsKeys log → x.closed = false) ∧
    x.work.conn.transaction = owner ∧ Made s₀ log s i key

theorem Claims.put (h : Claims s₀ log s key owner) (hx : s.scope? i = some x)
    (hstep : s.Step e (s.put i y)) (hclosed : y.closed = x.closed)
    (htransaction : y.work.conn.transaction = x.work.conn.transaction) :
    Claims s₀ (log ++ [e]) (s.put i y) key owner := by
  obtain ⟨j, z, hz, hopen, rfl, hmade⟩ := h
  by_cases hji : j = i
  · subst hji
    obtain rfl := Option.some.inj (hx.symm.trans hz)
    exact ⟨j, y, scope?_put_self hx,
      fun hkeys => hclosed.trans (hopen (Event.keepsKeys_snoc_iff.mp hkeys).1), htransaction,
      hmade.snoc hstep⟩
  · exact ⟨j, _, scope?_put_other hz hji,
      fun hkeys => hopen (Event.keepsKeys_snoc_iff.mp hkeys).1, rfl,
      hmade.snoc hstep⟩

theorem Claims.put_ended (h : Claims s₀ log s key owner) (hx : s.scope? i = some x)
    (hstep : s.Step e (s.put i y)) (hne : owner ≠ x.work.conn.transaction) :
    Claims s₀ (log ++ [e]) (s.put i y) key owner := by
  obtain ⟨j, z, hz, hopen, rfl, hmade⟩ := h
  have hji : j ≠ i := by
    rintro rfl
    exact hne (congrArg (fun x : Scope => x.work.conn.transaction)
      (Option.some.inj (hz.symm.trans hx)))
  exact ⟨j, _, scope?_put_other hz hji, fun hkeys => hopen (Event.keepsKeys_snoc_iff.mp hkeys).1,
    rfl, hmade.snoc hstep⟩

theorem Claims.put_lost (h : Claims s₀ log s key owner) (hx : s.scope? i = some x)
    (hstep : s.Step e (s.put i y))
    (htransaction : y.work.conn.transaction = x.work.conn.transaction)
    (hlost : ¬Event.KeepsKeys log) : Claims s₀ (log ++ [e]) (s.put i y) key owner := by
  obtain ⟨j, z, hz, -, rfl, hmade⟩ := h
  by_cases hji : j = i
  · subst hji
    obtain rfl := Option.some.inj (hx.symm.trans hz)
    exact ⟨j, y, scope?_put_self hx,
      fun hkeys => absurd (Event.keepsKeys_snoc_iff.mp hkeys).1 hlost, htransaction,
      hmade.snoc hstep⟩
  · exact ⟨j, _, scope?_put_other hz hji,
      fun hkeys => absurd (Event.keepsKeys_snoc_iff.mp hkeys).1 hlost, rfl,
      hmade.snoc hstep⟩

theorem Claims.of_shared (h : Claims s₀ log s key owner) (hstep : s.Step e s')
    (hscopes : ∀ i x, s.scope? i = some x → s'.scope? i = some (x.within s'.shared)) :
    Claims s₀ (log ++ [e]) s' key owner := by
  obtain ⟨j, z, hz, hopen, rfl, hmade⟩ := h
  exact ⟨j, _, hscopes j z hz, fun hkeys => hopen (Event.keepsKeys_snoc_iff.mp hkeys).1,
    rfl, hmade.snoc hstep⟩

/-- Whether all that the registry of a store keeps belongs to transactions that have asked for the
statements or added them, and are open unless lists of keys have been lost. -/
def RegistryKept (s₀ : OpenStore) (log : List Event) (s : OpenStore) : Prop :=
  s.store.registry.KeptFor (Claims s₀ log s) s.registryFile

theorem RegistryKept.of_scope? (h : RegistryKept s₀ log s) (hx : s.scope? i = some x) :
    x.work.store.registry.KeptFor (Claims s₀ log s) x.work.registryFile := by
  rw [work_of_scope? hx]
  exact h

theorem RegistryKept.put {c : Call} (h : RegistryKept s₀ log s) (hrun : s₀.Run log s)
    (hx : s.scope? i = some x) (hadvances : Advances x (finalState (c.run x)))
    (huses : ScopeUses (c.Makes x) x (finalState (c.run x))) :
    RegistryKept s₀
      (log ++ [.call i x.work.view (finalState (c.run x)).work.view c (answerOf (c.run x))])
      (s.put i (finalState (c.run x))) := by
  have hclaims := (h.of_scope? hx).mono fun key owner hclaims =>
    Claims.put hclaims hx (.call c hx) hadvances.closed hadvances.works.transaction
  refine hclaims.uses huses.uses fun key hmakes => ?_
  exact ⟨i, _, scope?_put_self hx, fun _ => hadvances.closed.trans hmakes.1,
    hadvances.works.transaction, .of_makes hrun hx hmakes⟩

theorem RegistryKept.put_ended (h : RegistryKept s₀ log s)
    (hindexed : Event.KeepsKeys log → s.store.registry.Indexed)
    (hx : s.scope? i = some x) (hended : Ended x y) (hstep : s.Step e (s.put i y)) :
    RegistryKept s₀ (log ++ [e]) (s.put i y) := by
  rw [← store_of_scope? hx] at hindexed
  by_cases hkeys : Event.KeepsKeys log
  · have hreleased := (h.of_scope? hx).release (hindexed hkeys) x.work.conn.transaction
    rw [← hended.registry] at hreleased
    exact hreleased.mono fun key owner hclaims => hclaims.1.put_ended hx hstep hclaims.2
  · have heased := (h.of_scope? hx).eased x.work.conn.transaction
    rw [← hended.registry] at heased
    exact heased.mono fun key owner hclaims => hclaims.put_lost hx hstep hended.transaction hkeys

theorem RegistryKept.loses {store : Store} (h : RegistryKept s₀ log s)
    (hstep : s.Step e (s.withStore store)) (hloses : s.store.Loses store) :
    RegistryKept s₀ (log ++ [e]) (s.withStore store) := by
  have hclaims : ∀ key owner, Claims s₀ log s key owner →
      Claims s₀ (log ++ [e]) (s.withStore store) key owner := fun key owner hclaims =>
    hclaims.of_shared hstep fun i x hx => scope?_withStore_of_some hx _
  obtain ⟨hcaches, hregistry⟩ := hloses
  exact (Registry.KeptFor.of_loses h hregistry).mono hclaims

theorem RegistryKept.step (h : RegistryKept s₀ log s) (hrun : s₀.Run log s) (hgood : s.Good)
    (hindexed : Event.KeepsKeys log → s.store.registry.Indexed)
    (hstep : s.Step e s') : RegistryKept s₀ (log ++ [e]) s' := by
  cases hstep with
  | begin =>
      exact h.mono fun key owner hclaims =>
        hclaims.of_shared .begin fun _ _ => scope?_begin_of_some
  | clearCaches => exact h.loses .clearCaches (.clearCaches _)
  | evict hevicts => exact h.loses (.evict hevicts) hevicts.loses
  | @call i x c hx =>
      rcases c.run_cases x with
        ⟨hadvances, hends | hsame⟩ | ⟨refusal, y, rfl, hop, -, hcommitted⟩ | ⟨-, -, habandoned⟩
      · exact h.put hrun hx hadvances (Call.uses hends (hgood.scopes i x hx).work)
      · exact h.put hrun hx hadvances (hsame.symm ▸ refl x.work)
      · have hy : finalState ((Call.commit refusal).run x) = y := by
          rw [Call.run, hop]
          rfl
        exact h.put_ended hindexed hx (hy ▸ hcommitted.toEnded) (.call _ hx)
      · exact h.put_ended hindexed hx habandoned.toEnded (.call c hx)

theorem Run.registryKept (hgood : s₀.Good) (hindexed : s₀.store.registry.Indexed)
    (hkept : RegistryKept s₀ [] s₀) (h : s₀.Run log s) : RegistryKept s₀ log s := by
  induction h with
  | nil => exact hkept
  | snoc hrun hstep ih =>
      exact ih.step hrun (hgood.run hrun)
        (fun hkeys => hrun.registry Registry.stable_indexed hkeys hindexed) hstep

theorem closed_of_transactions (h : ∀ t ∈ s.transactions, t.closed = true) :
    ∀ i x, s.scope? i = some x → x.closed = true := by
  intro i x hx
  obtain ⟨t, ht, rfl⟩ := Option.map_eq_some_iff.mp hx
  exact h t (List.mem_of_getElem? ht)

/-- Every entry of the registry belongs to a transaction, and to none twice, and the transactions
that it belongs to have asked for its statement or added it. Unless lists of keys have been lost
they are open, so nothing is left in the registry when all transactions have ended, whether they
were committed, refused, rolled back or dropped. -/
theorem registry_kept_for_open {config : Config} {tables : Tables} (htables : tables.Sound)
    {labelStart : String} (h : (opened config tables [] labelStart).Run log s) :
    (∀ key entry, s.store.registry.HasEntry s.registryFile key entry →
      entry.owners ≠ [] ∧ entry.owners.Nodup ∧
        ∀ owner ∈ entry.owners, ∃ i x, s.scope? i = some x ∧
          (Event.KeepsKeys log → x.closed = false) ∧
          x.work.conn.transaction = owner ∧
          Made (opened config tables [] labelStart) log s i key) ∧
      (Event.KeepsKeys log → (∀ i x, s.scope? i = some x → x.closed = true) →
        s.store.registry.IsEmpty s.registryFile) := by
  have hkept := Run.registryKept (good_opened config htables [] labelStart)
    (Registry.indexed_make config) (.make config) h
  refine ⟨fun key entry hentry => hkept.held.owners hentry, fun hkeys hclosed => hkept.isEmpty ?_⟩
  rintro key owner ⟨i, x, hx, hopen, -⟩
  cases (hopen hkeys).symm.trans (hclosed i x hx)

/-- Two transactions ask for one statement. Its entry belongs to both, then, when the first one
has committed, to the second one, and is gone when that one has been dropped. -/
theorem registry_kept_for_open_shared :
    let a : Node := ⟨1, .uri "urn:a"⟩
    let k : StatementKey := ⟨1, 1, 1, 1⟩
    let s₀ := opened {} {} [] "w"
    let s₁ := s₀.begin.begin.after 0 (.statement a a a (some a))
      |>.after 1 (.statement a a a (some a))
    let s₂ := s₁.after 0 (.commit none)
    let s₃ := s₂.after 1 .drop
    s₁.store.registry.HasEntry s₁.registryFile k ⟨1, [1, 2]⟩ ∧
      s₂.store.registry.HasEntry s₂.registryFile k ⟨1, [2]⟩ ∧
      (∃ log i x, s₂.scope? i = some x ∧ x.closed = false ∧ x.work.conn.transaction = 2 ∧
        Made s₀ log s₂ i k) ∧
      s₃.store.registry.IsEmpty s₃.registryFile := by
  intro a k s₀ s₁ s₂ s₃
  have hrun := Run.nil (s := s₀) |>.snoc .begin |>.snoc .begin
    |>.call 0 (.statement a a a (some a))
    |>.call 1 (.statement a a a (some a)) |>.call 0 (.commit none)
  have hboth : s₁.store.registry.HasEntry s₁.registryFile k ⟨1, [1, 2]⟩ := by decide +kernel
  have hsecond : s₂.store.registry.HasEntry s₂.registryFile k ⟨1, [2]⟩ := by decide +kernel
  obtain ⟨hentries, -⟩ := registry_kept_for_open Tables.sound_empty hrun
  obtain ⟨i, x, hx, hopen, hclaims⟩ := (hentries k _ hsecond).2.2 2 (by simp)
  have hclosed : ∀ t ∈ s₃.transactions, t.closed = true := by decide +kernel
  obtain ⟨-, hempty⟩ := registry_kept_for_open Tables.sound_empty (hrun.call 1 .drop)
  exact ⟨hboth, hsecond, ⟨_, i, x, hx, hopen (by decide +kernel), hclaims⟩,
    hempty (by decide +kernel) (closed_of_transactions hclosed)⟩

/-- Two transactions ask for one statement, and the keys of the first one are lost since
there is no room for both lists. When both have been rolled back the entry of the statement
still belongs to the first. -/
theorem entry_left_by_lost_keys :
    crowdedConfig.validate = .ok () ∧
      ∃ log s, (opened crowdedConfig {} [] "w").Run log s ∧
        (∀ i x, s.scope? i = some x → x.closed = true) ∧
        s.store.registry.HasEntry s.registryFile ⟨1, 1, 1, 1⟩ ⟨1, [2]⟩ := by
  let a : Node := ⟨1, .uri "urn:a"⟩
  have hrun := Run.nil (s := opened crowdedConfig {} [] "w") |>.snoc .begin
    |>.call 0 (.uri "urn:a") |>.call 0 (.commit none) |>.snoc .begin |>.snoc .begin
    |>.call 1 (.statement a a a (some a)) |>.call 2 (.statement a a a (some a))
  -- The list of one transaction fills the cache, so that of the other one may go.
  have hlost := hrun.snoc (.evict_registered (· == 2) rfl (by decide +kernel))
  refine ⟨rfl, _, _, hlost.call 1 .rollback |>.call 2 .rollback, closed_of_transactions ?_, ?_⟩
  · decide +kernel
  · decide +kernel

end OpenStore
end QuadStore
