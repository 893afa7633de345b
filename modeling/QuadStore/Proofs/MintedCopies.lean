import QuadStore.Proofs.Reopenings
import QuadStore.Proofs.StatementIdentity
import QuadStore.Proofs.StatementMarks

namespace QuadStore

open Transaction

/-- Whether a statement satisfies a condition if it is marked as new. -/
def Statement.IfNew (Q : Statement → Prop) (t : Statement) : Prop :=
  t.isNew = true → Q t

/-- None is marked as new that is read from a row. -/
instance (Q Q' : Statement → Prop) :
    Marking (fun _ => True) (Statement.IfNew Q) (Statement.IfNew Q') where
  read _ ht := by simp [Statement.IfNew, ht.known]
  delete _ := trivial

/-- Whether copies that are marked as new satisfy one condition where they are cached, and another
one where they await publication. -/
def Workspace.NewCopies (w : Workspace) (Q Q' : Statement → Prop) : Prop :=
  w.Marked (fun _ => True) (Statement.IfNew Q) (Statement.IfNew Q')

/-- Whether what is asked of these copies goes on to hold. -/
abbrev KeepsNew (Q Q' : Statement → Prop) : Workspace → Workspace → Prop :=
  KeepsMarks (fun _ => True) (Statement.IfNew Q) (Statement.IfNew Q')

theorem Workspace.NewCopies.imp {w : Workspace}
    {Q Q' R R' : Statement → Prop} (h : w.NewCopies Q Q')
    (hQ : ∀ t, Q t → R t) (hQ' : ∀ t, Q' t → R' t) : w.NewCopies R R' :=
  ⟨h.committed, h.rows, h.cached.imp (fun _ hn => hn) fun t ht hnew => hQ t (ht hnew),
    fun t ht hnew => hQ' t (h.fresh t ht hnew)⟩

/-- Whether an id was taken from the sequence of statements. -/
structure TakesId (w w' : Workspace) (id : Int) : Prop where
  next : id = w.store.counters.statements + 1
  counter : w'.store.counters.statements = id

/-- Where a statement has its id from that was asked for, and how it is marked then: the id
was registered, or is that of a live row, a copy of which may have been marked before, or was
taken from the sequence. -/
inductive Origin (Q : Statement → Prop) (w w' : Workspace) (t : Statement) : Prop
  | registered (hid : Action.registered? w t.key = some t.id)
      (hcounter : w'.store.counters.statements = w.store.counters.statements)
      (hmark : t.isNew = false)
  | stored (hlive : w.view.HasLive t.key t.id)
      (hcounter : w'.store.counters.statements = w.store.counters.statements) (hmark : t.IfNew Q)
  | minted (hunknown : Action.registered? w t.key = none) (hnew : t.key ∉ w.view.members)
      (htakes : TakesId w w' t.id) (hmark : t.isNew = true)

section

variable {Q Q' : Statement → Prop} {w w₁ w' : Workspace} {t t' : Statement}

theorem Origin.of_silent (hsilent : Silent w w₁) (h : Origin Q w₁ w' t) : Origin Q w w' t := by
  have hregistered := hsilent.sameRegistry.registered?_eq t.key
  have hcounter₁ := hsilent.statementCounter_eq
  cases h with
  | registered hid hcounter hmark =>
      exact .registered (hregistered ▸ hid) (hcounter.trans hcounter₁) hmark
  | stored hlive hcounter hmark =>
      exact .stored ((Tables.hasLive_congr hsilent.statements).mp hlive)
        (hcounter.trans hcounter₁) hmark
  | minted hunknown hnew htakes hmark =>
      refine .minted (hregistered ▸ hunknown) ?_ ⟨hcounter₁ ▸ htakes.next, htakes.counter⟩ hmark
      rwa [← Tables.members_congr hsilent.statements]

theorem Origin.isNew_iff (h : Origin Q w w' t) (hold : ¬Q t) :
    t.isNew = true ↔ TakesId w w' t.id := by
  have not_taken : w'.store.counters.statements = w.store.counters.statements →
      ¬TakesId w w' t.id := by
    rintro hcounter ⟨hnext, htaken⟩
    omega
  cases h with
  | registered hid hcounter hmark => exact iff_of_false (by simp [hmark]) (not_taken hcounter)
  | stored hlive hcounter hmark =>
      exact iff_of_false (fun hnew => hold (hmark hnew)) (not_taken hcounter)
  | minted hunknown hnew htakes hmark => exact iff_of_true hmark htakes

theorem Action.identifyShared_origin (hgood : w.Good) (hcopies : w.NewCopies Q Q')
    (hmade : t.isNew = false) (h : identifyShared t w = .ok t' w') : Origin Q w w' t' := by
  rcases identifyShared_cases h with
    ⟨id, hregistered, rfl, rfl⟩ |
      ⟨hunknown, ⟨id, stored, hlive, hload, rfl⟩ | ⟨hlive, id, hid, rfl, rfl⟩⟩
  · exact .registered hregistered rfl hmade
  · have hkey := (identifyShared_eq_ok hgood h).1
    obtain ⟨r, hr, hrlive, hrkey, hid⟩ := liveStatementId_eq_some hlive rfl
    obtain ⟨found, rfl, rfl⟩ := id_of_loadStatement hgood.coherent.caches.keyed ⟨r, hr, hid⟩ hload
    refine .stored ⟨r, hr, hrlive, hrkey.trans hkey.symm, hid⟩ ?_ ?_
    · exact ((loadStatement_reads _).ok hload).silent.statementCounter_eq
    · exact loadStatement_marks hcopies hload found rfl
  · exact .minted hunknown (liveStatementId_eq_none hlive) ⟨hid, hid.symm⟩ rfl

/-- What is done before a statement is identified: nodes are stored. -/
structure Prepares (Q Q' : Statement → Prop) (w w' : Workspace) : Prop where
  silent : Silent w w'
  copies : KeepsNew Q Q' w w'

instance : IsPreorder Workspace (Prepares Q Q') where
  refl w := ⟨refl w, refl w⟩
  trans _ _ _ h h' := ⟨IsTrans.trans _ _ _ h.silent h'.silent,
    IsTrans.trans _ _ _ h.copies h'.copies⟩

theorem Action.createStatement_origin {subject predicate object : Node} {context : Option Node}
    (hgood : w.Good) (hcopies : w.NewCopies Q Q')
    (h : createStatement subject predicate object context w = .ok t w') : Origin Q w w' t := by
  obtain ⟨_, _, _, _, made, w₁, hprepares, hmade, hidentify⟩ :=
    createStatement_identifies (R := Prepares Q Q')
      (fun n w => ⟨convert_silent n w, convert_keeps n w⟩)
      (fun uri w => ⟨createUri_silent uri w, createUri_keeps uri w⟩) h
  refine .of_silent hprepares.silent (identifyShared_origin (hprepares.silent.good hgood)
    (hprepares.copies hcopies) ?_ hidentify)
  rw [make_eq_ok hmade]

end

theorem Call.adds_keepsNew {Q Q' : Statement → Prop} {c : Call}
    (hadds : c.adds = true) (x : Scope) :
    (∃ t, (t.IfNew Q' → KeepsNew Q Q' x.work (finalState (c.run x)).work) ∧ ∀ number before after,
        (Event.call number before after c (answerOf (c.run x))).added? = some (number, t)) ∨
      KeepsNew Q Q' x.work (finalState (c.run x)).work := by
  cases c with
  | add s p o context =>
      have hkeeps : KeepsIf (Statement.IfNew Q') (WorkChanges (KeepsNew Q Q')) _ :=
        KeepsMarks.add (fun _ => trivial) s p o context
      rw [Call.run]
      cases hop : Transaction.add s p o context x with
      | ok t y => exact .inl ⟨t, (hkeeps x).1 t y hop, fun _ _ _ => rfl⟩
      | error e y => exact .inr ((hkeeps x).2 e y hop)
  | addInferred s p o context =>
      have hkeeps : KeepsIf (Statement.IfNew Q') (WorkChanges (KeepsNew Q Q')) _ :=
        KeepsMarks.addInferred (fun _ => trivial) s p o context
      rw [Call.run]
      cases hop : Transaction.addInferred s p o context x with
      | ok t y => exact .inl ⟨t, (hkeeps x).1 t y hop, fun _ _ _ => rfl⟩
      | error e y => exact .inr ((hkeeps x).2 e y hop)
  | _ => cases hadds

namespace Event

/-- Whether a statement has been added by a transaction that has committed. -/
def Kept (log : List Event) (t : Statement) : Prop :=
  ∃ i, Added log i t ∧ HasCommitted log i

variable {log : List Event} {t : Statement}

theorem Added.snoc {i : Nat} (h : Added log i t) (e : Event) : Added (log ++ [e]) i t :=
  added_snoc.mpr (.inl h)

theorem Kept.snoc (h : Kept log t) (e : Event) : Kept (log ++ [e]) t := by
  obtain ⟨i, hadded, hcommitted⟩ := h
  exact ⟨i, hadded.snoc e, hasCommitted_snoc.mpr (.inl hcommitted)⟩

end Event

namespace OpenStore

variable {s s' : OpenStore} {i : Nat} {x y : Scope} {log : List Event} {e : Event}

/-- Whether copies that are marked as new were added: by a transaction that has committed where
they are cached, and by the very transaction with which they await publication. -/
structure MarksAdded (s : OpenStore) (log : List Event) : Prop where
  cached : s.store.caches.Marked (Statement.IfNew (Event.Kept log))
  fresh : ∀ i x, s.scope? i = some x → ∀ t ∈ x.work.conn.freshStatements,
    t.IfNew (Event.Added log i)

namespace MarksAdded

theorem work (h : s.MarksAdded log) (hx : s.scope? i = some x) :
    x.work.NewCopies (Event.Kept log) (Event.Added log i) :=
  ⟨fun _ _ => trivial, fun _ _ => trivial, store_of_scope? hx ▸ h.cached, h.fresh i x hx⟩

theorem put (h : s.MarksAdded log) (hx : s.scope? i = some x)
    (hy : y.work.NewCopies (Event.Kept (log ++ [e])) (Event.Added (log ++ [e]) i)) :
    (s.put i y).MarksAdded (log ++ [e]) := by
  refine ⟨hy.cached, fun j z hz t ht hnew => ?_⟩
  rcases scope?_put_eq_some hx hz with ⟨rfl, rfl⟩ | ⟨-, z', hz', rfl⟩
  · exact hy.fresh t ht hnew
  · exact (h.fresh j z' hz' t ht hnew).snoc e

theorem call (h : s.MarksAdded log) (hx : s.scope? i = some x) (c : Call)
    (he : e = .call i x.work.view (finalState (c.run x)).work.view c (answerOf (c.run x))) :
    (finalState (c.run x)).work.NewCopies (Event.Kept (log ++ [e]))
    (Event.Added (log ++ [e]) i) := by
  have hbefore := h.work hx
  have hlater := hbefore.imp (fun _ hkept => hkept.snoc e) fun _ hadded => hadded.snoc e
  cases hends : c.ends with
  | false =>
      cases hadds : c.adds with
      | false =>
          have hkeeps : WorkChanges
              (KeepsNew (Event.Kept (log ++ [e])) (Event.Added (log ++ [e]) i)) x _ :=
            Call.keeps_steps hends hadds x
          exact hkeeps hlater
      | true =>
          rcases Call.adds_keepsNew hadds x with ⟨t, hkeeps, hanswer⟩ | hkeeps
          · exact hkeeps (fun _ => Event.added_snoc.mpr (.inr (he ▸ hanswer i _ _))) hlater
          · exact hkeeps hlater
  | true =>
      cases hclosed : x.closed with
      | true =>
          rw [Call.run_of_closed c hclosed]
          exact hlater
      | false =>
          rcases Call.commits_or_abandons hends hclosed with ⟨refusal, rfl, hfinish⟩ | habandoned
          · rw [Call.run, hfinish] at he ⊢
            have hcommitted : Event.HasCommitted (log ++ [e]) i :=
              Event.hasCommitted_snoc.mpr (.inr (he ▸ rfl))
            exact hlater.finished fun t hadded hnew => ⟨i, hadded hnew, hcommitted⟩
          · rw [habandoned]
            exact hlater.abandoned

theorem loses {store : Store} (h : s.MarksAdded log) (hloses : s.store.Loses store) (e : Event) :
    (s.withStore store).MarksAdded (log ++ [e]) := by
  obtain ⟨hcaches, hregistry⟩ := hloses
  refine ⟨(h.cached.of_partOf hcaches).imp (fun _ hn => hn) fun t ht hnew => (ht hnew).snoc _,
    fun i x hx t ht hnew => ?_⟩
  obtain ⟨x', hx', rfl⟩ := of_scope?_withStore hx
  exact (h.fresh i x' hx' t ht hnew).snoc _

theorem step (h : s.MarksAdded log) (hstep : s.Step e s') : s'.MarksAdded (log ++ [e]) := by
  cases hstep with
  | begin =>
      refine ⟨h.cached.imp (fun _ hn => hn) fun t ht hnew => (ht hnew).snoc _,
        fun i x hx t ht hnew => ?_⟩
      rcases scope?_begin hx with ⟨x', hx', rfl⟩ | ⟨-, rfl⟩
      · exact (h.fresh i x' hx' t ht hnew).snoc _
      · cases ht
  | clearCaches => exact h.loses (.clearCaches _) _
  | evict hevicts => exact h.loses hevicts.loses _
  | call c hx => exact h.put hx (h.call hx c rfl)

end MarksAdded

theorem marksAdded_opened (config : Config) (tables : Tables) (registryFile : RegistryFile)
    (labelStart : String) : (opened config tables registryFile labelStart).MarksAdded [] :=
  ⟨.make _, by rintro i x ⟨⟩⟩

theorem Run.marksAdded (hs : s.MarksAdded []) (h : s.Run log s') : s'.MarksAdded log := by
  induction h with
  | nil => exact hs
  | snoc _ hstep ih => exact ih.step hstep

/-- After every run, who asks a transaction for a statement gets a copy that is marked as new
if its id was taken from the sequence just then. If its id was registered, the copy is not
marked; if it is that of a live row, the copy may only be marked if it is one that a
transaction has added and committed. -/
theorem new_iff_minted {config : Config} {tables : Tables} {registryFile : RegistryFile}
    {labelStart : String} (hsound : tables.Sound)
    (h : (opened config tables registryFile labelStart).Run log s) (hx : s.scope? i = some x)
    {subject predicate object : Node} {context : Option Node} {t : Statement}
    (hanswer : (Call.statement subject predicate object context).run x = .ok t y) :
    Origin (Event.Kept log) x.work y.work t ∧
      ((∀ j, Event.Added log j t → ¬Event.HasCommitted log j) →
        (t.isNew = true ↔ TakesId x.work y.work t.id)) := by
  have hgood := ((good_opened config hsound registryFile labelStart).run h).scopes i x hx
  have hcopies := (h.marksAdded (marksAdded_opened config tables registryFile labelStart)).work hx
  obtain ⟨-, hanswer⟩ := whileOpen_eq_ok_iff.mp hanswer
  obtain ⟨w, hcreate, rfl⟩ := work_eq_ok_iff.mp hanswer
  have horigin := Action.createStatement_origin hgood.work hcopies hcreate
  refine ⟨horigin, fun hnone => horigin.isNew_iff ?_⟩
  rintro ⟨j, hadded, hcommitted⟩
  exact hnone j hadded hcommitted

/-- In a store without statements the first one that is asked for gets a new copy. -/
theorem first_copy_is_new :
    let a : Node := .uri "urn:a"
    ∃ x t y, (opened {} {} [] "w").begin.scope? 0 = some x ∧
      (Call.statement a a a none).run x = .ok t y ∧ t.isNew = true ∧
        TakesId x.work y.work t.id := by
  intro a
  have hrun := Run.nil (s := opened {} {} [] "w") |>.snoc .begin
  let x := ((opened {} {} [] "w").begin.scope? 0).get (by decide +kernel)
  have hx : (opened {} {} [] "w").begin.scope? 0 = some x := (Option.some_get _).symm
  have hnew : (answerOf ((Call.statement a a a none).run x)).toOption.map
      Statement.isNew = some true := by
    decide +kernel
  cases hanswer : (Call.statement a a a none).run x with
  | error e y =>
      rw [hanswer] at hnew
      cases hnew
  | ok t y =>
      rw [hanswer] at hnew
      have hmark : t.isNew = true := Option.some.inj hnew
      have hiff := (new_iff_minted Tables.sound_empty hrun hx hanswer).2
        (by simp [Event.Added, Event.added?])
      exact ⟨x, t, y, hx, hanswer, hmark, hiff.mp hmark⟩

/-- A transaction adds a statement and commits. Who then asks for that statement gets a copy that
is marked as new, though its id is that of the committed row. -/
theorem known_statement_is_new :
    let a : Node := .uri "urn:a"
    let s := (opened {} {} [] "w").begin |>.after 0 (.add a a a none)
      |>.after 0 (.commit none) |>.begin
    ∃ log x t y, (opened {} {} [] "w").Run log s ∧ s.scope? 1 = some x ∧
      (Call.statement a a a none).run x = .ok t y ∧ t.isNew = true ∧ ¬TakesId x.work y.work t.id ∧
        s.database.committed.statementById? t.id = some (.ofStatement t) := by
  intro a s
  have hrun := Run.nil (s := opened {} {} [] "w") |>.snoc .begin |>.call 0 (.add a a a none)
    |>.call 0 (.commit none) |>.snoc .begin
  let x := (s.scope? 1).get (by decide +kernel)
  have hanswers : (answerOf ((Call.statement a a a none).run x)).toOption.map (fun t =>
      (t.isNew, decide (s.database.committed.statementById? t.id = some (.ofStatement t)))) =
        some (true, true) := by decide +kernel
  have hcounter : (finalState
      ((Call.statement a a a none).run x)).work.store.counters.statements =
      x.work.store.counters.statements := by decide +kernel
  cases hop : (Call.statement a a a none).run x with
  | error e y =>
      rw [hop] at hanswers
      cases hanswers
  | ok t y =>
      rw [hop] at hanswers hcounter
      obtain ⟨hnew, hrow⟩ := Prod.mk.inj (Option.some.inj hanswers)
      refine ⟨_, x, t, y, hrun, (Option.some_get _).symm, hop, hnew, ?_, of_decide_eq_true hrow⟩
      rintro ⟨hnext, htaken⟩
      rw [finalState_ok] at hcounter
      omega

end OpenStore
end QuadStore
