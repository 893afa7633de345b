import QuadStore.Proofs.SharedIds

/-!
The identity of statements over whole runs. What was answered to a transaction is
remembered as long as the transaction is open, and for good once the transaction has stored
the statement and committed.
-/

namespace QuadStore

open Transaction

/-- Whether a call removes statements. -/
def Call.removes : Call → Bool
  | .remove _ _ _ _ => true
  | _ => false

/-- Whether a call asks for a statement or adds one. -/
def Call.requests : Call → Bool
  | .statement _ _ _ _ | .add _ _ _ _ | .addInferred _ _ _ _ => true
  | _ => false

namespace Event

/-- Whether what happens keeps statements and what is registered. -/
def keeps : Event → Bool
  | .begin => true
  | .clearCaches => false
  | .evict group => group == .rows
  | .call _ _ _ c _ => !c.removes

/-- The transaction that was answered with a statement that it had asked for or added. -/
def statement? : Event → Option (Nat × Statement)
  | .call number _ _ (.statement _ _ _ _) (.ok t) => some (number, t)
  | .call number _ _ (.add _ _ _ _) (.ok t) => some (number, t)
  | .call number _ _ (.addInferred _ _ _ _) (.ok t) => some (number, t)
  | _ => none

/-- The transaction that has added a statement. -/
def added? : Event → Option (Nat × Statement)
  | .call number _ _ (.add _ _ _ _) (.ok t) => some (number, t)
  | .call number _ _ (.addInferred _ _ _ _) (.ok t) => some (number, t)
  | _ => none

theorem statement?_of_added? {e : Event} {answer : Nat × Statement} (h : e.added? = some answer) :
    e.statement? = some answer := by
  unfold added? at h
  split at h
  · exact h
  · exact h
  · cases h

theorem added?_of_committed? {e : Event} {i : Nat} (h : e.committed? = some i) :
    e.added? = none := by
  unfold committed? at h
  split at h
  · rfl
  · cases h

/-- Whether a transaction has been answered with a statement that it had asked for or added. -/
def Asked (log : List Event) (i : Nat) (t : Statement) : Prop :=
  ∃ e ∈ log, e.statement? = some (i, t)

/-- Whether a transaction has added a statement. -/
def Added (log : List Event) (i : Nat) (t : Statement) : Prop :=
  ∃ e ∈ log, e.added? = some (i, t)

/-- Whether a transaction has committed. -/
def HasCommitted (log : List Event) (i : Nat) : Prop :=
  ∃ e ∈ log, e.committed? = some i

variable {log : List Event} {e : Event} {i : Nat} {t : Statement}

theorem asked_snoc : Asked (log ++ [e]) i t ↔ Asked log i t ∨ e.statement? = some (i, t) := by
  simp [Asked, or_and_right, exists_or]

theorem added_snoc : Added (log ++ [e]) i t ↔ Added log i t ∨ e.added? = some (i, t) := by
  simp [Added, or_and_right, exists_or]

theorem hasCommitted_snoc :
    HasCommitted (log ++ [e]) i ↔ HasCommitted log i ∨ e.committed? = some i := by
  simp [HasCommitted, or_and_right, exists_or]

end Event

/-! What a call does to the ids -/

section

variable {x y : Scope} {t : Statement}

theorem statement_eq_ok {subject predicate object : Node} {context : Option Node}
    (hgood : x.work.Good)
    (h : perform (Action.createStatement subject predicate object context) x = .ok t y) :
    x.closed = false ∧ Requested x.work y.work t.key t.id ∧ y.closed = x.closed := by
  obtain ⟨hopen, h⟩ := whileOpen_eq_ok_iff.mp h
  obtain ⟨w, hcreate, rfl⟩ := work_eq_ok_iff.mp h
  obtain ⟨w₁, hsilent, hidentified, -⟩ := Action.createStatement_eq_ok hgood hcreate
  exact ⟨hopen, ⟨w₁, hsilent, hidentified⟩, rfl⟩

theorem statement_error {subject predicate object : Node} {context : Option Node} {e : StoreError}
    (h : perform (Action.createStatement subject predicate object context) x = .error e y) :
    Under Silent x y := by
  cases hclosed : x.closed with
  | true =>
      rw [perform, whileOpen_of_closed hclosed] at h
      cases h
      exact refl x
  | false =>
      rw [perform, whileOpen_of_open hclosed] at h
      cases hcreate : Action.createStatement subject predicate object context x.work with
      | ok t w =>
          rw [work_of_ok hcreate] at h
          cases h
      | error e' w =>
          rw [work_of_error hcreate] at h
          cases h
          exact ⟨Action.createStatement_failing _ _ _ _ _ _ _ hcreate, rfl, rfl⟩

theorem Call.request_cases {c : Call} (hends : c.ends = false) (hremoves : c.removes = false)
    (hgood : x.work.Good) :
    Silent x.work (finalState (c.run x)).work ∧ c.requests = false ∨
      c.requests = true ∧
        ((∃ t, (Requested x.work (finalState (c.run x)).work t.key t.id ∨
              Adds x (finalState (c.run x)) t) ∧
            ∀ number before after,
              (Event.call number before after c (answerOf (c.run x))).statement? =
              some (number, t)) ∨
          Fails x (finalState (c.run x)) ∧
            ∀ number before after,
              (Event.call number before after c (answerOf (c.run x))).statement? = none) := by
  cases hchanges : c.changesStatements with
  | false =>
      refine .inl ⟨(Call.silent hends hchanges x).work, ?_⟩
      cases c with
      | statement | add | addInferred => cases hchanges
      | _ => rfl
  | true =>
      right
      cases c with
      | statement subject predicate object context =>
          have hrun : (Call.statement subject predicate object context).run x =
            perform (Action.createStatement subject predicate object context) x := rfl
          rw [hrun]
          cases hop : perform (Action.createStatement subject predicate object context) x with
          | ok t y =>
              exact ⟨rfl, .inl ⟨t, .inl (statement_eq_ok hgood hop).2.1, fun _ _ _ => rfl⟩⟩
          | error e y => exact ⟨rfl, .inr ⟨.inl (statement_error hop), fun _ _ _ => rfl⟩⟩
      | add subject predicate object context =>
          rw [Call.run]
          cases hop : Transaction.add subject predicate object context x with
          | ok t y => exact ⟨rfl, .inl ⟨t, .inr (add_eq_ok hgood hop).1, fun _ _ _ => rfl⟩⟩
          | error e y => exact ⟨rfl, .inr ⟨add_error hgood hop, fun _ _ _ => rfl⟩⟩
      | addInferred subject predicate object context =>
          rw [Call.run]
          cases hop : Transaction.addInferred subject predicate object context x with
          | ok t y =>
              exact ⟨rfl, .inl ⟨t, .inr (addInferred_eq_ok hgood hop).1, fun _ _ _ => rfl⟩⟩
          | error e y => exact ⟨rfl, .inr ⟨addInferred_error hgood hop, fun _ _ _ => rfl⟩⟩
      | remove subject predicate object context => cases hremoves
      | _ => cases hchanges

theorem Call.proceeds {c : Call} (hends : c.ends = false) (hremoves : c.removes = false)
    (hx : x.work.Identifies) (hgood : x.work.Good) :
    Proceeds x.work (finalState (c.run x)).work := by
  rcases Call.request_cases hends hremoves hgood with
    ⟨hsilent, -⟩ | ⟨-, ⟨t, hrequested | hadds, -⟩ | ⟨hfails, -⟩⟩
  · exact .of_silent hx hsilent
  · exact (hrequested.proceeds hx).1
  · exact (hadds.proceeds hx hgood).1
  · exact hfails.proceeds hx

end

/-! What is still known after a step -/

namespace OpenStore

variable {s s' : OpenStore} {i : Nat} {x y : Scope} {t : Statement} {e : Event}

/-- What is still known when nothing has been removed: what is committed, and what a transaction
knows and sees as long as it is open. -/
structure Retains (s s' : OpenStore) : Prop where
  identifies : s'.Identifies
  committed : ∀ key id, s.database.committed.HasLive key id → s'.database.committed.HasLive key id
  scopes : ∀ i x, s.scope? i = some x → ∃ x', s'.scope? i = some x' ∧
    (x'.closed = false → x.closed = false ∧ ∀ key id,
      (x.work.Knows key id → x'.work.Knows key id) ∧
        (x.work.view.HasLive key id → x'.work.view.HasLive key id))

theorem owns_of_scope? (hx : s.scope? i = some x) {key : StatementKey} {transaction id : Int} :
    x.work.Owns key transaction id ↔ s.shared.Owns key transaction id := by
  rw [work_of_scope? hx]
  rfl

theorem Retains.put (hs : s.Identifies) (hx : s.scope? i = some x) (h : Proceeds x.work y.work)
    (hadvances : Advances x y) : s.Retains (s.put i y) := by
  have hworks := hadvances.works
  have hcommitted : ∀ {j z}, s.scope? j = some z →
      y.work.database.committed = z.work.database.committed := fun hz =>
    committed_of_scope? hx hz h.committed
  refine ⟨hs.put hx h.toExtends h.identifies hworks.transaction hworks.transactionCounter, ?_, ?_⟩
  · intro key id hlive
    show y.work.database.committed.HasLive key id
    rwa [hcommitted hx, database_of_scope? hx]
  · intro j z hz
    by_cases hji : j = i
    · subst hji
      obtain rfl := Option.some.inj (hx.symm.trans hz)
      refine ⟨y, scope?_put_self hx, fun hopen => ⟨hadvances.closed.symm.trans hopen,
        fun key id => ⟨fun hknown => ?_, h.live key id⟩⟩⟩
      rw [Workspace.Knows, hworks.transaction]
      exact hknown.imp (h.owns key _ id) (h.live key id)
    · refine ⟨z.within y.work, by rw [scope?_put_of_ne y hji, hz]; rfl, fun hopen => ⟨hopen,
        fun key id => ?_⟩⟩
      have hlive : z.work.view.HasLive key id → (z.within y.work).work.view.HasLive key id := by
        rw [Scope.view_within_of_eq (hcommitted hz)]
        exact fun hlive => hlive
      refine ⟨fun hknown => hknown.imp (fun howns => ?_) hlive, hlive⟩
      exact h.owns key _ id ((owns_of_scope? hx).mpr ((owns_of_scope? hz).mp howns))

theorem Retains.put_ended (hs : s.Identifies) (hids : (s.put i y).Identifies)
    (hx : s.scope? i = some x) (h : Ended x y) (hcommitted : ∀ key id,
      x.work.database.committed.HasLive key id → y.work.database.committed.HasLive key id) :
    s.Retains (s.put i y) := by
  rw [database_of_scope? hx] at hcommitted
  refine ⟨hids, hcommitted, ?_⟩
  intro j z hz
  by_cases hji : j = i
  · subst hji
    refine ⟨y, scope?_put_self hx, fun hopen => ?_⟩
    cases hopen.symm.trans h.closed
  · refine ⟨z.within y.work, by rw [scope?_put_of_ne y hji, hz]; rfl, fun hopen => ⟨hopen,
      fun key id => ?_⟩⟩
    have hlive : z.work.view.HasLive key id → (z.within y.work).work.view.HasLive key id := by
      cases hwriting : z.work.conn.writing with
      | true =>
          rw [Scope.view_within_of_writing hwriting]
          exact fun hlive => hlive
      | false =>
          rw [Scope.view_within_of_idle hwriting, Workspace.view_eq_committed hwriting,
            database_of_scope? hz]
          exact hcommitted key id
    refine ⟨fun hknown => hknown.imp (fun howns => ?_) hlive, hlive⟩
    refine h.owns (hs.scopes i x hx).numbers (fun hsame => ?_)
      ((owns_of_scope? hx).mpr ((owns_of_scope? hz).mp howns))
    exact hji (hs.distinct j z i x hz hx hsame)

theorem Committed.live (hx : x.work.Identifies) (h : Committed x y)
    (key : StatementKey) (id : Int)
    (hlive : x.work.database.committed.HasLive key id) :
    y.work.database.committed.HasLive key id :=
  (Tables.hasLive_congr h.statements).mpr (hx.kept key id hlive)

theorem Retains.begin (hs : s.Identifies) : s.Retains s.begin := by
  refine ⟨hs.begin, fun _ _ hlive => hlive, fun i x hx => ?_⟩
  refine ⟨_, scope?_begin_of_some hx, fun hopen => ⟨hopen, fun key id => ?_⟩⟩
  have hlive : x.work.view.HasLive key id →
      (x.within s.begin.shared).work.view.HasLive key id := by
    rw [Scope.view_within_of_eq (congrArg Database.committed (database_of_scope? hx).symm)]
    exact fun hlive => hlive
  exact ⟨fun hknown => hknown.imp (owns_of_scope? hx).mp hlive, hlive⟩

theorem Retains.withCaches (hs : s.Identifies) (caches : Caches) :
    s.Retains (s.withStore { s.store with caches }) := by
  refine ⟨hs.withCaches caches, fun _ _ hlive => hlive, fun i x hx => ?_⟩
  refine ⟨_, scope?_withStore_of_some hx _, fun hopen => ⟨hopen, fun key id => ?_⟩⟩
  have hview := Scope.view_within_of_eq (w := (s.withStore { s.store with caches }).shared)
    (congrArg Database.committed (database_of_scope? hx).symm)
  have hlive : x.work.view.HasLive key id →
      (x.within (s.withStore { s.store with caches }).shared).work.view.HasLive key id := by
    rw [hview]
    exact fun hlive => hlive
  exact ⟨fun hknown => hknown.imp (owns_of_scope? hx).mp hlive, hlive⟩

theorem Identifies.retains (hs : s.Identifies) (hgood : s.Good) (h : s.Step e s')
    (hkeeps : e.keeps = true) : s.Retains s' := by
  cases h with
  | begin => exact .begin hs
  | clearCaches => cases hkeeps
  | evict hevicts =>
      cases hevicts with
      | rows => exact .withCaches hs _
      | _ => cases hkeeps
  | call c hx =>
      rename_i i x
      have hids := hs.scopes i x hx
      rcases c.run_cases x with
        ⟨hadvances, hcase⟩ | ⟨refusal, y, rfl, hop, -, hcommitted⟩ | ⟨-, -, habandoned⟩
      · refine .put hs hx ?_ hadvances
        rcases hcase with hends | hsame
        · exact Call.proceeds hends (by simpa [Event.keeps] using hkeeps)
            hids (hgood.scopes i x hx).work
        · rw [hsame]
          exact .of_silent hids (refl _)
      · rw [Call.run, hop]
        exact .put_ended hs (hs.put_committed hgood hx hcommitted) hx hcommitted.toEnded
          (Committed.live hids hcommitted)
      · refine .put_ended hs (hs.put_abandoned hgood hx habandoned) hx habandoned.toEnded ?_
        rw [habandoned.committed]
        exact fun _ _ hlive => hlive

/-! What a step adds to it -/

theorem Step.requested (hs : s.Identifies) (hgood : s.Good) (h : s.Step e s')
    (hanswer : e.statement? = some (i, t)) :
    ∃ x y, s.scope? i = some x ∧ s'.scope? i = some y ∧ x.closed = false ∧
      (∃ w, Requested x.work w t.key t.id) ∧ y.work.Knows t.key t.id ∧
        (e.added? = some (i, t) → y.work.view.HasLive t.key t.id) := by
  cases h with
  | begin | clearCaches | evict => cases hanswer
  | call c hx =>
      rename_i j x
      have hids := hs.scopes j x hx
      have hwork := (hgood.scopes j x hx).work
      cases c with
      | statement subject predicate object context =>
          have hrun : (Call.statement subject predicate object context).run x =
            perform (Action.createStatement subject predicate object context) x := rfl
          rw [hrun] at hanswer ⊢
          cases hop : perform (Action.createStatement subject predicate object context) x with
          | ok t' y =>
              rw [hop] at hanswer
              cases hanswer
              obtain ⟨hopen, hrequested, -⟩ := statement_eq_ok hwork hop
              exact ⟨x, y, hx, scope?_put_self hx, hopen, ⟨_, hrequested⟩,
                (hrequested.proceeds hids).2, fun hadded => nomatch hadded⟩
          | error e y =>
              rw [hop] at hanswer
              cases hanswer
      | add subject predicate object context =>
          cases hop : Transaction.add subject predicate object context x with
          | ok t' y =>
              rw [Call.run, hop] at hanswer ⊢
              cases hanswer
              obtain ⟨-, hlive, hrequested⟩ := (add_eq_ok hwork hop).1.proceeds hids hwork
              exact ⟨x, y, hx, scope?_put_self hx, (whileOpen_eq_ok_iff.mp hop).1, hrequested,
                .inr hlive, fun _ => hlive⟩
          | error e y =>
              rw [Call.run, hop] at hanswer
              cases hanswer
      | addInferred subject predicate object context =>
          cases hop : Transaction.addInferred subject predicate object context x with
          | ok t' y =>
              rw [Call.run, hop] at hanswer ⊢
              cases hanswer
              obtain ⟨-, hlive, hrequested⟩ := (addInferred_eq_ok hwork hop).1.proceeds hids hwork
              exact ⟨x, y, hx, scope?_put_self hx, (whileOpen_eq_ok_iff.mp hop).1, hrequested,
                .inr hlive, fun _ => hlive⟩
          | error e y =>
              rw [Call.run, hop] at hanswer
              cases hanswer
      | _ => cases hanswer

theorem Step.committed (h : s.Step e s') (hcommitted : e.committed? = some i) :
    ∃ x y, s.scope? i = some x ∧ s'.scope? i = some y ∧ x.closed = false ∧ y.closed = true ∧
      ∀ key id, x.work.view.HasLive key id → s'.database.committed.HasLive key id := by
  obtain ⟨x, y, hx, rfl, hopen, hended⟩ := h.commits hcommitted
  exact ⟨x, y, hx, scope?_put_self hx, hopen, hended.closed,
    fun key id => (Tables.hasLive_congr hended.statements).mpr⟩

/-! What is remembered of a run -/

/-- Whether some transaction has registered a statement under an id or it is committed with it. -/
def Held (s : OpenStore) (key : StatementKey) (id : Int) : Prop :=
  (∃ transaction, s.shared.Owns key transaction id) ∨ s.database.committed.HasLive key id

theorem Identifies.held (hs : s.Identifies) (hx : s.scope? i = some x)
    {key : StatementKey} {id : Int} (h : x.work.Knows key id) : s.Held key id := by
  rcases h with howns | hlive
  · exact .inl ⟨_, (owns_of_scope? hx).mp howns⟩
  · rcases (hs.scopes i x hx).owned key id hlive with hcommitted | howns
    · rw [database_of_scope? hx] at hcommitted
      exact .inr hcommitted
    · exact .inl ⟨_, (owns_of_scope? hx).mp howns⟩

theorem Step.id_eq (hs : s.Identifies) (hgood : s.Good) (h : s.Step e s')
    (hanswer : e.statement? = some (i, t)) {id : Int} (hheld : s.Held t.key id) : t.id = id := by
  obtain ⟨x, y, hx, -, -, ⟨w, hrequested⟩, -⟩ := h.requested hs hgood hanswer
  refine hrequested.id_eq (hs.scopes i x hx) (hgood.scopes i x hx).work ?_
  rw [database_of_scope? hx]
  refine hheld.imp_left ?_
  rintro ⟨transaction, howns⟩
  exact ⟨transaction, (owns_of_scope? hx).mpr howns⟩

/-- What is remembered of a run in which nothing was removed: open transactions know what
they have been answered, what was added and committed is there, and each transaction has
always got the same answer. -/
structure Remembers (s : OpenStore) (log : List Event) : Prop where
  asked : ∀ i t, Event.Asked log i t →
    ∃ x, s.scope? i = some x ∧ (x.closed = false → x.work.Knows t.key t.id)
  added : ∀ i t, Event.Added log i t →
    ∃ x, s.scope? i = some x ∧ (x.closed = false → x.work.view.HasLive t.key t.id)
  ended : ∀ i, Event.HasCommitted log i → ∃ x, s.scope? i = some x ∧ x.closed = true
  committed : ∀ i t, Event.Added log i t → Event.HasCommitted log i →
    s.database.committed.HasLive t.key t.id
  same : ∀ i t t', Event.Asked log i t → Event.Asked log i t' → t'.key = t.key → t'.id = t.id

theorem remembers_nil (s : OpenStore) : s.Remembers [] := by
  constructor <;> simp [Event.Asked, Event.Added, Event.HasCommitted]

section

variable {log : List Event} (hr : s.Remembers log) (hs : s.Identifies) (hgood : s.Good)
variable (h : s.Step e s')

include hr hs hgood h

theorem Remembers.asked_again {t' : Statement} (hasked : Event.Asked log i t)
    (hanswer : e.statement? = some (i, t')) (hkey : t'.key = t.key) : t'.id = t.id := by
  obtain ⟨x, -, hx, -, hopen, -⟩ := h.requested hs hgood hanswer
  obtain ⟨x', hx', hknows⟩ := hr.asked i t hasked
  obtain rfl := Option.some.inj (hx.symm.trans hx')
  refine h.id_eq hs hgood hanswer ?_
  rw [hkey]
  exact hs.held hx (hknows hopen)

theorem Remembers.asked_step (hretains : s.Retains s') (hasked : Event.Asked (log ++ [e]) i t) :
    ∃ x, s'.scope? i = some x ∧ (x.closed = false → x.work.Knows t.key t.id) := by
  rcases Event.asked_snoc.mp hasked with hold | hnew
  · obtain ⟨x, hx, hknows⟩ := hr.asked i t hold
    obtain ⟨x', hx', hkept⟩ := hretains.scopes i x hx
    refine ⟨x', hx', fun hopen => ?_⟩
    obtain ⟨hopen, hkept⟩ := hkept hopen
    exact (hkept t.key t.id).1 (hknows hopen)
  · obtain ⟨-, y, -, hy, -, -, hknows, -⟩ := h.requested hs hgood hnew
    exact ⟨y, hy, fun _ => hknows⟩

theorem Remembers.added_step (hretains : s.Retains s') (hadded : Event.Added (log ++ [e]) i t) :
    ∃ x, s'.scope? i = some x ∧ (x.closed = false → x.work.view.HasLive t.key t.id) := by
  rcases Event.added_snoc.mp hadded with hold | hnew
  · obtain ⟨x, hx, hlive⟩ := hr.added i t hold
    obtain ⟨x', hx', hkept⟩ := hretains.scopes i x hx
    refine ⟨x', hx', fun hopen => ?_⟩
    obtain ⟨hopen, hkept⟩ := hkept hopen
    exact (hkept t.key t.id).2 (hlive hopen)
  · obtain ⟨-, y, -, hy, -, -, -, hlive⟩ := h.requested hs hgood (Event.statement?_of_added? hnew)
    exact ⟨y, hy, fun _ => hlive hnew⟩

omit hs hgood in
theorem Remembers.ended_step (hretains : s.Retains s')
    (hcommitted : Event.HasCommitted (log ++ [e]) i) :
    ∃ x, s'.scope? i = some x ∧ x.closed = true := by
  rcases Event.hasCommitted_snoc.mp hcommitted with hold | hnew
  · obtain ⟨x, hx, hclosed⟩ := hr.ended i hold
    obtain ⟨x', hx', hkept⟩ := hretains.scopes i x hx
    refine ⟨x', hx', ?_⟩
    by_contra hopen
    cases hclosed.symm.trans (hkept (by simpa using hopen)).1
  · obtain ⟨-, y, -, hy, -, hclosed, -⟩ := h.committed hnew
    exact ⟨y, hy, hclosed⟩

theorem Remembers.committed_step (hretains : s.Retains s') (hadded : Event.Added (log ++ [e]) i t)
    (hcommitted : Event.HasCommitted (log ++ [e]) i) :
    s'.database.committed.HasLive t.key t.id := by
  rcases Event.hasCommitted_snoc.mp hcommitted with hold | hnew
  · rcases Event.added_snoc.mp hadded with hadded | hadded
    · exact hretains.committed t.key t.id (hr.committed i t hadded hold)
    · -- Nothing is added once a transaction has committed.
      obtain ⟨x, -, hx, -, hopen, -⟩ := h.requested hs hgood (Event.statement?_of_added? hadded)
      obtain ⟨x', hx', hclosed⟩ := hr.ended i hold
      obtain rfl := Option.some.inj (hx.symm.trans hx')
      cases hopen.symm.trans hclosed
  · obtain ⟨x, -, hx, -, hopen, -, hlive⟩ := h.committed hnew
    rcases Event.added_snoc.mp hadded with hadded | hadded
    · obtain ⟨x', hx', hlive'⟩ := hr.added i t hadded
      obtain rfl := Option.some.inj (hx.symm.trans hx')
      exact hlive t.key t.id (hlive' hopen)
    · cases hadded.symm.trans (Event.added?_of_committed? hnew)

theorem Remembers.step (hkeeps : e.keeps = true) : s'.Remembers (log ++ [e]) := by
  have hretains := hs.retains hgood h hkeeps
  constructor
  · exact fun i t => hr.asked_step hs hgood h hretains
  · exact fun i t => hr.added_step hs hgood h hretains
  · exact fun i => hr.ended_step h hretains
  · exact fun i t => hr.committed_step hs hgood h hretains
  · intro i t t' hasked hasked' hkey
    rcases Event.asked_snoc.mp hasked with hold | hnew <;>
      rcases Event.asked_snoc.mp hasked' with hold' | hnew'
    · exact hr.same i t t' hold hold' hkey
    · exact hr.asked_again hs hgood h hold hnew' hkey
    · exact (hr.asked_again hs hgood h hold' hnew hkey.symm).symm
    · cases hnew.symm.trans hnew'
      rfl

end

theorem Run.remembers {log : List Event} (hs : s.Identifies) (hgood : s.Good) (h : s.Run log s')
    (hkeeps : ∀ e ∈ log, e.keeps = true) : s'.Identifies ∧ s'.Remembers log := by
  induction h with
  | nil => exact ⟨hs, remembers_nil s⟩
  | snoc hrun hstep ih =>
      rename_i log e s₁ s₂
      obtain ⟨hs₁, hr⟩ := ih fun a ha => hkeeps a (List.mem_append_left _ ha)
      have hgood₁ := hgood.run hrun
      have hkeep := hkeeps e (by simp)
      exact ⟨(hs₁.retains hgood₁ hstep hkeep).identifies, hr.step hs₁ hgood₁ hstep hkeep⟩

variable {config : Config} {tables : Tables} {labelStart : String} {log : List Event}

/-- Whoever asks for or adds a statement that a transaction has asked for or added before gets the
same id, as long as that transaction is open and after it has added the statement and committed.
Nothing has been removed, no cache has been cleared, and a registry in caches has room. -/
theorem statement_id_eq (htables : tables.Sound) (hvalid : config.validate = .ok ())
    (hroom : config.registry = .cache → config.cache.registry.maxEntries ≠ 0)
    (h : (opened config tables [] labelStart).Run log s) (hstep : s.Step e s')
    (hkeeps : ∀ a ∈ log, a.keeps = true) {i j : Nat} {t t' : Statement}
    (hasked : Event.Asked log i t) (hheld : (∃ x, s.scope? i = some x ∧ x.closed = false) ∨
      (∃ t₁, Event.Added log i t₁ ∧ t₁.key = t.key) ∧ Event.HasCommitted log i)
    (hanswer : e.statement? = some (j, t')) (hkey : t'.key = t.key) : t'.id = t.id := by
  have hopened := good_opened config htables [] labelStart
  obtain ⟨hs, hr⟩ := h.remembers
    (identifies_opened hvalid hroom htables labelStart) hopened hkeeps
  refine hstep.id_eq hs (hopened.run h) hanswer ?_
  rw [hkey]
  rcases hheld with ⟨x, hx, hopen⟩ | ⟨⟨t₁, hadded, hkey₁⟩, hcommitted⟩
  · obtain ⟨x', hx', hknows⟩ := hr.asked i t hasked
    obtain rfl := Option.some.inj (hx.symm.trans hx')
    exact hs.held hx (hknows hopen)
  · have hasked₁ : Event.Asked log i t₁ := by
      obtain ⟨a, ha, hanswer₁⟩ := hadded
      exact ⟨a, ha, Event.statement?_of_added? hanswer₁⟩
    rw [← hkey₁, ← hr.same i t t₁ hasked hasked₁ hkey₁]
    exact .inr (hr.committed i t₁ hadded hcommitted)

/-- Two open transactions get the same id for a statement that no row holds. -/
theorem statement_id_eq_two_transactions :
    let a : Node := .uri "urn:a"
    let s := (opened {} { nodes := [.ofNode 1 a] } [] "w").begin.begin.after
      0 (.statement a a a a)
    ∃ x t, s.scope? 1 = some x ∧
      answerOf ((Call.statement a a a a).run x) = .ok t ∧ t.id = 1 := by
  intro a s
  have hsound : Tables.Sound { nodes := [.ofNode 1 a] } :=
    ⟨by simp, by simp, .nil, by simp, by simp⟩
  have hrun := Run.nil (s := opened {} { nodes := [.ofNode 1 a] } [] "w") |>.snoc .begin
    |>.snoc .begin |>.call 0 (.statement a a a a)
  have hstep : s.Step _ (s.after 1 (.statement a a a a)) := .call (.statement a a a a) rfl
  refine ⟨_, _, rfl, rfl, ?_⟩
  exact statement_id_eq hsound rfl (by rintro ⟨⟩) hrun hstep (List.all_eq_true.mp rfl)
    ⟨_, List.mem_append_right _ (.head _), rfl⟩ (.inl ⟨_, rfl, rfl⟩) rfl rfl

end OpenStore
end QuadStore
