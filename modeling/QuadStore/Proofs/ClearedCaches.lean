import QuadStore.Proofs.AlikeStores
import QuadStore.Proofs.StatementIdentity

/-!
Runs in which caches are cleared. Main statement: wherever the caches are cleared in a run,
everything that its transactions ask for is answered as before, as long as they use nodes that are
new or that their own transaction or a committed one has been answered with.
-/

namespace QuadStore

open Transaction

/-- Something that a store is asked to do. -/
inductive Demand
  | begin
  | call (number : Nat) (c : Call)

namespace Event

/-- What is asked for, unless caches are cleared or lose entries. -/
def demand? : Event → Option Demand
  | .begin => some .begin
  | .clearCaches | .evict _ => none
  | .call number _ _ c _ => some (.call number c)

/-- What happens, without the marks of new ids, unless caches are cleared or lose entries. -/
def plain? : Event → Option Event
  | .begin => some .begin
  | .clearCaches | .evict _ => none
  | .call number before after c answer => some (.call number before after c (answer.map c.plain))

/-- The nodes that the transaction with the given number is answered with. -/
def answered (number : Nat) : Event → List Node
  | .call n _ _ c (.ok v) => if n = number then c.answered v else []
  | _ => []

/-- What the transaction with the given number is left to fetch, if it is asked for something. -/
def left? (number : Nat) : Event → Option (Option QueryResults)
  | .call n _ _ c answer => if n = number then some (answer.toOption.bind c.results?) else none
  | _ => none

/-- Whether a transaction has been answered with a node. -/
def Answered (log : List Event) (number : Nat) (n : Node) : Prop :=
  ∃ e ∈ log, n ∈ e.answered number

/-- What the last call of a transaction has left to be fetched. -/
def left (log : List Event) (number : Nat) : Option QueryResults :=
  (log.filterMap (left? number)).getLast?.join

/-- Whether a transaction has a node to use: a plain one that is new, or one that it or a
committed transaction has been answered with. -/
def Usable (log : List Event) (number : Nat) (n : Node) : Prop :=
  n.isPersisted = false ∧ n.term.Plain ∨
    ∃ i, Answered log i n ∧ (i = number ∨ HasCommitted log i)

/-- Whether what happens is covered and uses no other nodes than those that are there to be used,
and rows are only fetched from the results that the call before has left. -/
def Fits (log : List Event) : Event → Prop
  | .call number _ _ c _ => c.Covered ∧ (∀ n ∈ c.nodes, Usable log number n) ∧
      ∀ count r, c = .fetch count r → left log number = some r
  | _ => True

/-- Whether everything that happens in a run fits what has happened before. -/
def Fitting (log : List Event) : Prop :=
  ∀ before e after, log = before ++ e :: after → e.Fits before

variable {log : List Event} {e e' : Event} {i : Nat} {n : Node} {r : QueryResults}

theorem answered_snoc : Answered (log ++ [e]) i n ↔ Answered log i n ∨ n ∈ e.answered i := by
  simp [Answered, or_and_right, exists_or]

theorem left_snoc (log : List Event) (e : Event) (i : Nat) :
    left (log ++ [e]) i = (e.left? i).elim (left log i) id := by
  unfold left
  rw [List.filterMap_append]
  cases he : e.left? i with
  | none => simp [he]
  | some r => simp [he]

theorem fitting_nil : Fitting [] := by
  rintro before e after h
  cases before <;> cases h

theorem fitting_snoc_iff : Fitting (log ++ [e]) ↔ Fitting log ∧ e.Fits log := by
  constructor
  · refine fun h => ⟨fun before e' after heq => h before e' (after ++ [e]) ?_, h log e [] rfl⟩
    rw [heq, List.append_assoc, List.cons_append]
  · rintro ⟨hlog, hfits⟩ before e' after heq
    rcases List.eq_nil_or_concat' after with rfl | ⟨after', a, rfl⟩
    · obtain ⟨rfl, hlast⟩ := List.append_inj' heq rfl
      obtain rfl := (List.cons.inj hlast).1
      exact hfits
    · refine hlog before e' after' ?_
      rw [← List.cons_append, ← List.append_assoc] at heq
      exact (List.append_inj' heq rfl).1

theorem Fitting.call (h : Fitting log) {s : OpenStore} (i : Nat) (c : Call) (hcovered : c.Covered)
    (hnodes : ∀ n ∈ c.nodes, Usable log i n)
    (hfetch : ∀ count r, c = .fetch count r → left log i = some r) :
    Fitting (log ++ s.noted i c) := by
  unfold OpenStore.noted
  cases s.scope? i with
  | some x => exact fitting_snoc_iff.mpr ⟨h, hcovered, hnodes, hfetch⟩
  | none => rwa [List.append_nil]

end Event

namespace OpenStore

variable {s s' t t' : OpenStore} {log log' : List Event} {e e' : Event} {i : Nat} {x y : Scope}
variable {n : Node} {r : QueryResults}

/-! What stays for others -/

theorem Step.other (h : s.Step e t) (hother : e.left? i = none) (hx : s.scope? i = some x) :
    t.scope? i = some (x.within t.shared) := by
  cases h with
  | begin => exact scope?_begin_of_some hx
  | clearCaches | evict => exact scope?_withStore_of_some hx _
  | call c hz =>
      rename_i j z
      refine scope?_put_other hx ?_
      rintro rfl
      simp [Event.left?] at hother

theorem Good.nodes_step (hs : s.Good) (h : s.Step e t) :
    ∀ r ∈ s.database.committed.nodes, r ∈ t.database.committed.nodes := by
  cases h with
  | begin | clearCaches | evict => exact fun r hr => hr
  | call c hx =>
      rename_i j x
      rw [← database_of_scope? hx]
      show ∀ r ∈ x.work.database.committed.nodes,
        r ∈ (finalState (c.run x)).work.database.committed.nodes
      rcases c.run_cases x with
        ⟨hadvances, -⟩ | ⟨refusal, y, rfl, hop, -, hcommitted⟩ | ⟨-, -, habandoned⟩
      · rw [hadvances.works.committed]
        exact fun r hr => hr
      · rw [Call.run, hop]
        intro r hr
        show r ∈ y.work.database.committed.nodes
        rw [hcommitted.nodes]
        exact (hs.scopes j x hx).work.nodes r hr
      · rw [habandoned.committed]
        exact fun r hr => hr

theorem nodes_within {w : Workspace} (h : ∀ r ∈ x.work.database.committed.nodes,
    r ∈ w.database.committed.nodes) :
    ∀ r ∈ x.work.view.nodes, r ∈ (x.within w).work.view.nodes := by
  cases hwriting : x.work.conn.writing with
  | true =>
      rw [Scope.view_within_of_writing hwriting]
      exact fun r hr => hr
  | false =>
      rw [Scope.view_within_of_idle hwriting, Workspace.view_eq_committed hwriting]
      exact h

theorem sees_put_advances {j : Nat} {z z' : Scope} (hz : s.scope? j = some z) (h : Advances z z')
    (hx : s.scope? i = some x) :
    ∃ y, (s.put j z').scope? i = some y ∧ (y.closed = false → x.closed = false ∧
      ∀ r ∈ x.work.view.nodes, r ∈ y.work.view.nodes) := by
  by_cases hij : i = j
  · subst hij
    obtain rfl := Option.some.inj (hx.symm.trans hz)
    exact ⟨z', scope?_put_self hx, fun hopen => ⟨h.closed ▸ hopen, h.works.nodes⟩⟩
  · refine ⟨_, scope?_put_other hx hij, fun hopen => ⟨hopen, nodes_within fun r hr => ?_⟩⟩
    rwa [committed_of_scope? hz hx h.works.committed]

theorem Good.sees_step (hs : s.Good) (h : s.Step e t) (hx : s.scope? i = some x) :
    ∃ y, t.scope? i = some y ∧ (y.closed = false → x.closed = false ∧
      ∀ r ∈ x.work.view.nodes, r ∈ y.work.view.nodes) := by
  cases hother : e.left? i with
  | none =>
      refine ⟨_, h.other hother hx, fun hopen => ⟨hopen, nodes_within ?_⟩⟩
      rw [database_of_scope? hx]
      exact hs.nodes_step h
  | some left =>
      cases h with
      | begin | clearCaches | evict => cases hother
      | call c hz =>
          rename_i j z
          obtain rfl : j = i := by
            by_contra hne
            simp [Event.left?, hne] at hother
          obtain rfl := Option.some.inj (hx.symm.trans hz)
          refine ⟨_, scope?_put_self hx, fun hopen => ?_⟩
          rcases c.run_cases x with
            ⟨hadvances, -⟩ | ⟨refusal, y, rfl, hop, -, hcommitted⟩ | ⟨-, -, habandoned⟩
          · exact ⟨hadvances.closed ▸ hopen, hadvances.works.nodes⟩
          · rw [Call.run, hop] at hopen
            cases hopen.symm.trans hcommitted.closed
          · cases hopen.symm.trans habandoned.closed

theorem usable_within {w : Workspace} (h : r.Usable x.work)
    (hsound : (x.within w).work.view.Sound)
    (hnodes : ∀ r ∈ x.work.database.committed.nodes, r ∈ w.database.committed.nodes) :
    r.Usable (x.within w).work := by
  refine ⟨fun row hrow id hid hwriting => ?_,
    fun e he => (h.extra e he).mono (nodes_within hnodes) hsound⟩
  have hview : (x.within w).work.view = x.work.view := Scope.view_within_of_writing hwriting
  rw [hview]
  exact h.current row hrow id hid hwriting

/-! What is remembered of a run -/

/-- What is remembered of a run: open transactions see the nodes that they have been answered
with, which are committed when a transaction has committed, and rows can be fetched from what
is left to be fetched. -/
structure Recalls (s : OpenStore) (log : List Event) : Prop where
  answered : ∀ i n, Event.Answered log i n →
    ∃ x, s.scope? i = some x ∧ (x.closed = false → x.work.view.Accepts n)
  ended : ∀ i, Event.HasCommitted log i → ∃ x, s.scope? i = some x ∧ x.closed = true
  committed : ∀ i n, Event.Answered log i n → Event.HasCommitted log i →
    s.database.committed.Accepts n
  left : ∀ i r, Event.left log i = some r →
    ∃ x, s.scope? i = some x ∧ (x.closed = false → r.Usable x.work)

theorem recalls_nil (s : OpenStore) : s.Recalls [] := by
  constructor <;> simp [Event.Answered, Event.HasCommitted, Event.left]

/-- Whether after a step a transaction sees the nodes that it has been answered with, and can
fetch from what is left to be fetched. -/
structure Answers (e : Event) (t : OpenStore) : Prop where
  nodes : ∀ i, ∀ n ∈ e.answered i, ∃ y, t.scope? i = some y ∧ y.work.view.Accepts n
  results : ∀ i r, e.left? i = some (some r) → ∃ y, t.scope? i = some y ∧ r.Usable y.work

section

variable (hr : s.Recalls log) (hs : s.Good) (h : s.Step e t)

include hr hs h

theorem Recalls.answered_step (hanswers : Answers e t)
    (hanswered : Event.Answered (log ++ [e]) i n) :
    ∃ y, t.scope? i = some y ∧ (y.closed = false → y.work.view.Accepts n) := by
  rcases Event.answered_snoc.mp hanswered with hold | hnew
  · obtain ⟨x, hx, haccepts⟩ := hr.answered i n hold
    obtain ⟨y, hy, hsees⟩ := hs.sees_step h hx
    refine ⟨y, hy, fun hopen => ?_⟩
    obtain ⟨hopen', hnodes⟩ := hsees hopen
    exact (haccepts hopen').mono hnodes ((hs.step h).scopes i y hy).work.sound
  · obtain ⟨y, hy, haccepts⟩ := hanswers.nodes i n hnew
    exact ⟨y, hy, fun _ => haccepts⟩

omit hs in
theorem Recalls.ended_step (hcommitted : Event.HasCommitted (log ++ [e]) i) :
    ∃ y, t.scope? i = some y ∧ y.closed = true := by
  rcases Event.hasCommitted_snoc.mp hcommitted with hold | hnew
  · obtain ⟨x, hx, hclosed⟩ := hr.ended i hold
    exact h.closed hx hclosed
  · obtain ⟨x, y, hx, rfl, -, hended⟩ := h.commits hnew
    exact ⟨y, scope?_put_self hx, hended.closed⟩

theorem Recalls.committed_step (hanswers : Answers e t)
    (hanswered : Event.Answered (log ++ [e]) i n)
    (hcommitted : Event.HasCommitted (log ++ [e]) i) : t.database.committed.Accepts n := by
  have hgood := hs.step h
  rcases Event.answered_snoc.mp hanswered with hold | hnew
  · rcases Event.hasCommitted_snoc.mp hcommitted with hbefore | hnow
    · exact (hr.committed i n hold hbefore).mono (hs.nodes_step h) hgood.sound
    · obtain ⟨x, y, hx, rfl, hopen, hended⟩ := h.commits hnow
      obtain ⟨x', hx', haccepts⟩ := hr.answered i n hold
      obtain rfl := Option.some.inj (hx.symm.trans hx')
      exact (haccepts hopen).mono (fun r hr => hended.nodes ▸ hr) hgood.sound
  · -- A transaction that has ended sees what is committed.
    obtain ⟨y, hy, haccepts⟩ := hanswers.nodes i n hnew
    obtain ⟨y', hy', hclosed⟩ := hr.ended_step h hcommitted
    obtain rfl := Option.some.inj (hy.symm.trans hy')
    rwa [Workspace.view_eq_committed (hgood.closed i y hy hclosed),
      database_of_scope? hy] at haccepts

theorem Recalls.left_step (hanswers : Answers e t) (hleft : Event.left (log ++ [e]) i = some r) :
    ∃ y, t.scope? i = some y ∧ (y.closed = false → r.Usable y.work) := by
  rw [Event.left_snoc] at hleft
  cases hother : e.left? i with
  | none =>
      rw [hother] at hleft
      obtain ⟨x, hx, husable⟩ := hr.left i r hleft
      have hy := h.other hother hx
      refine ⟨_, hy, fun hopen =>
        usable_within (husable hopen) ((hs.step h).scopes i _ hy).work.sound ?_⟩
      rw [database_of_scope? hx]
      exact hs.nodes_step h
  | some left =>
      rw [hother] at hleft
      obtain rfl : left = some r := hleft
      obtain ⟨y, hy, husable⟩ := hanswers.results i r hother
      exact ⟨y, hy, fun _ => husable⟩

theorem Recalls.step (hanswers : Answers e t) : t.Recalls (log ++ [e]) :=
  ⟨fun _ _ => hr.answered_step hs h hanswers, fun _ => hr.ended_step h,
    fun _ _ => hr.committed_step hs h hanswers, fun _ _ => hr.left_step hs h hanswers⟩

end

theorem Recalls.accepts (hr : s.Recalls log) (hs : s.Good) (hx : s.scope? i = some x)
    (hopen : x.closed = false) (h : Event.Usable log i n) : x.work.view.Accepts n := by
  rcases h with hnew | ⟨j, hanswered, rfl | hcommitted⟩
  · exact .inr hnew
  · obtain ⟨x', hx', haccepts⟩ := hr.answered j n hanswered
    obtain rfl := Option.some.inj (hx.symm.trans hx')
    exact haccepts hopen
  · have hgood := (hs.scopes i x hx).work
    refine (hr.committed j n hanswered hcommitted).mono ?_ hgood.sound
    rw [← database_of_scope? hx]
    exact hgood.nodes

/-! Two runs -/

/-- Whether two runs have led to stores that are alike, and everything was answered alike. -/
structure AlikeRuns (log : List Event) (s : OpenStore) (log' : List Event)
    (s' : OpenStore) : Prop where
  stores : LikeStore s s'
  recalls : s.Recalls log
  plain : log'.filterMap Event.plain? = log.filterMap Event.plain?

theorem answer_eq_of_alike {c : Call} {result result' : EStateM.Result StoreError Scope c.Answer}
    (h : Alike LikeScope c.AnsweredAlike result result') :
    (answerOf result').map c.plain = (answerOf result).map c.plain := by
  cases h with
  | ok hanswers _ => exact congrArg Except.ok hanswers.plain
  | error _ => rfl

theorem answers_of_alike (hx : s.scope? i = some x) {c : Call}
    {result result' : EStateM.Result StoreError Scope c.Answer}
    (h : Alike LikeScope c.AnsweredAlike result result') (before after : Tables) :
    Answers (.call i before after c (answerOf result)) (s.put i (finalState result)) := by
  have hput := scope?_put_self (y := finalState result) hx
  cases h with
  | ok hanswers _ =>
      refine ⟨fun j n hn => ?_, fun j r hr => ?_⟩
      · by_cases hij : i = j
        · subst hij
          exact ⟨_, hput, hanswers.nodes n (by simpa [Event.answered, answerOf] using hn)⟩
        · simp [Event.answered, answerOf, hij] at hn
      · by_cases hij : i = j
        · subst hij
          refine ⟨_, hput, hanswers.results r ?_⟩
          simpa [Event.left?, answerOf, Except.toOption] using hr
        · simp [Event.left?, hij] at hr
  | error _ =>
      refine ⟨fun j n hn => (List.not_mem_nil hn).elim, fun j r hr => ?_⟩
      by_cases hij : i = j <;> simp [Event.left?, answerOf, Except.toOption, hij] at hr

namespace AlikeRuns

variable (h : AlikeRuns log s log' s')

include h

theorem loses_right {store : Store} (hloses : s'.store.Loses store) (hplain : e'.plain? = none) :
    AlikeRuns log s (log' ++ [e']) (s'.withStore store) := by
  refine ⟨h.stores.loses hloses, h.recalls, ?_⟩
  simpa [List.filterMap_append, List.filterMap_cons, hplain] using h.plain

theorem clear_right (hstep : s'.Step e' t') (hclear : e'.demand? = none) :
    AlikeRuns log s (log' ++ [e']) t' := by
  cases hstep with
  | clearCaches => exact h.loses_right (.clearCaches _) rfl
  | evict hevicts => exact h.loses_right hevicts.loses rfl
  | _ => cases hclear

theorem clear_left (hstep : s.Step e t) (hclear : e.demand? = none) :
    AlikeRuns (log ++ [e]) t log' s' := by
  have hsilent : e.plain? = none ∧ Answers e t := by
    cases hstep with
    | clearCaches | evict => exact ⟨rfl, by rintro i n ⟨⟩, by rintro i r ⟨⟩⟩
    | _ => cases hclear
  obtain ⟨hplain, hanswers⟩ := hsilent
  refine ⟨?_, h.recalls.step h.stores.left hstep hanswers, ?_⟩
  · cases hstep with
    | clearCaches => exact (h.stores.symm.loses (.clearCaches _)).symm
    | evict hevicts => exact (h.stores.symm.loses hevicts.loses).symm
    | _ => cases hclear
  · simpa [List.filterMap_append, List.filterMap_cons, hplain] using h.plain

theorem step (hstep : s.Step e t) (hstep' : s'.Step e' t') (hfits : e.Fits log)
    (hasked : e.demand? ≠ none) (hsame : e'.demand? = e.demand?) :
    AlikeRuns (log ++ [e]) t (log' ++ [e']) t' := by
  cases hstep with
  | clearCaches | evict => cases hasked rfl
  | begin =>
      cases hstep' with
      | begin =>
          refine ⟨h.stores.begin, h.recalls.step h.stores.left .begin ?_, ?_⟩
          · exact ⟨by rintro i n ⟨⟩, by rintro i r ⟨⟩⟩
          · simp [List.filterMap_append, h.plain]
      | _ => cases hsame
  | call c hx =>
      cases hstep' with
      | call c' hx' =>
          rename_i i x _ x'
          cases hsame
          obtain ⟨hcovered, hnodes, hfetch⟩ := hfits
          have hgood := h.stores.left
          have hlike := h.stores.scopes i x x' hx hx'
          have halike : Alike LikeScope c.AnsweredAlike (c.run x) (c.run x') := by
            refine Call.run_alike hlike ?_ hcovered
              (fun hopen n hn => ?_) fun hopen count r hc => ?_
            · rw [database_of_scope? hx]
              exact hgood.sound
            · exact h.recalls.accepts hgood hx hopen (hnodes n hn)
            · obtain ⟨y, hy, husable⟩ := h.recalls.left i r (hfetch count r hc)
              obtain rfl := Option.some.inj (hx.symm.trans hy)
              exact husable hopen
          refine ⟨h.stores.call hx hx' halike.states, ?_, ?_⟩
          · exact h.recalls.step hgood (.call c hx) (answers_of_alike hx halike _ _)
          · simp [List.filterMap_append, h.plain, Event.plain?,
              hlike.work.view, halike.states.work.view,
              answer_eq_of_alike halike]
      | _ => cases hsame

end AlikeRuns

theorem Run.alike (hstart : LikeStore s s) (hrun : s.Run log t) (hrun' : s.Run log' t')
    (hfitting : Event.Fitting log)
    (hasked : log'.filterMap Event.demand? = log.filterMap Event.demand?) :
    AlikeRuns log t log' t' := by
  induction hrun generalizing log' t' with
  | nil =>
      induction hrun' with
      | nil => exact ⟨hstart, recalls_nil s, rfl⟩
      | snoc _ hstep' ih' =>
          simp only [List.filterMap_append, List.filterMap_nil, List.append_eq_nil_iff] at hasked
          exact (ih' hasked.1).clear_right hstep' (by simpa using hasked.2)
  | snoc hrun hstep ih =>
      rename_i log e s₁ s₂
      obtain ⟨hbefore, hfits⟩ := Event.fitting_snoc_iff.mp hfitting
      cases hclear : e.demand? with
      | none =>
          refine (ih hrun' hbefore ?_).clear_left hstep hclear
          simpa [List.filterMap_append, hclear] using hasked
      | some q =>
          -- The second run has asked for the same unless it has cleared the caches last.
          induction hrun' with
          | nil => simp [List.filterMap_append, hclear] at hasked
          | snoc hrun' hstep' ih' =>
              rename_i log' e' s₁' s₂'
              cases hclear' : e'.demand? with
              | none =>
                  refine (ih' ?_).clear_right hstep' hclear'
                  simpa [List.filterMap_append, hclear'] using hasked
              | some q' =>
                  simp only [List.filterMap_append, List.filterMap_cons,
                    List.filterMap_nil, hclear, hclear'] at hasked
                  obtain ⟨hasked, hsame⟩ := List.append_inj' hasked rfl
                  refine (ih hrun' hbefore hasked).step hstep hstep' hfits (by simp [hclear]) ?_
                  rw [hclear, hclear', (List.cons.inj hsame).1]

theorem AlikeRuns.exists_step (h : AlikeRuns log s log' s') (hstep : s.Step e t)
    (hasked : e.demand? ≠ none) : ∃ e' t', s'.Step e' t' ∧ e'.demand? = e.demand? := by
  cases hstep with
  | begin => exact ⟨_, _, .begin, rfl⟩
  | clearCaches | evict => cases hasked rfl
  | call c hx =>
      obtain ⟨x', hx', -⟩ := h.stores.exists_scope hx
      exact ⟨_, _, .call c hx', rfl⟩

theorem Run.exists_cleared (hstart : LikeStore s s) (hrun : s.Run log t)
    (hfitting : Event.Fitting log)
    (demands : List (Option Demand))
    (hdemands : demands.reduceOption = log.filterMap Event.demand?) :
    ∃ log' t', s.Run log' t' ∧ log'.map Event.demand? = demands := by
  induction demands using List.reverseRecOn generalizing log t with
  | nil => exact ⟨[], s, .nil, rfl⟩
  | append_singleton demands d ih =>
      rw [List.reduceOption_append, List.reduceOption_singleton] at hdemands
      cases d with
      | none =>
          obtain ⟨log', t', hrun', hasked⟩ := ih hrun hfitting (by simpa using hdemands)
          exact ⟨_, _, hrun'.snoc .clearCaches, by simp [hasked, Event.demand?]⟩
      | some q =>
          induction hrun with
          | nil => simp at hdemands
          | snoc hrun hstep ih' =>
              rename_i log e s₁ s₂
              obtain ⟨hbefore, -⟩ := Event.fitting_snoc_iff.mp hfitting
              cases hclear : e.demand? with
              | none =>
                  exact ih' hbefore (by simpa [List.filterMap_append, hclear] using hdemands)
              | some q' =>
                  simp only [List.filterMap_append, List.filterMap_cons, List.filterMap_nil,
                    hclear] at hdemands
                  obtain ⟨hbegun, hsame⟩ := List.append_inj' hdemands rfl
                  obtain ⟨log', s₁', hrun', hasked⟩ := ih hrun hbefore hbegun
                  have halike := hrun.alike hstart hrun' hbefore (by
                    rw [← hbegun, ← hasked, List.reduceOption, List.filterMap_map]
                    rfl)
                  obtain ⟨e', s₂', hstep', hdemand⟩ := halike.exists_step hstep (by simp [hclear])
                  refine ⟨_, _, hrun'.snoc hstep', ?_⟩
                  rw [List.map_append, hasked, List.map_singleton, hdemand, hclear,
                    (List.cons.inj hsame).1]

variable {config : Config} {tables : Tables} {registryFile : RegistryFile} {labelStart : String}

/-- The caches of a store whose registry is not kept in them can be cleared, or lose entries, at
any points of a run, where each transaction uses nodes that are new or that it or a committed one
has been answered with: everything else is answered as before, up to the marks of new ids, and
the tables and the reports stay the same. -/
theorem cleared_alike (hregistry : config.registry ≠ .cache) (hsound : tables.Sound)
    (hwritten : tables.Written) (hrun : (opened config tables registryFile labelStart).Run log s)
    (hfitting : Event.Fitting log) (demands : List (Option Demand))
    (hdemands : demands.reduceOption = log.filterMap Event.demand?) :
    (∃ log' s', (opened config tables registryFile labelStart).Run log' s' ∧
        log'.map Event.demand? = demands) ∧
      ∀ log' s', (opened config tables registryFile labelStart).Run log' s' →
        log'.map Event.demand? = demands →
          log'.filterMap Event.plain? = log.filterMap Event.plain? ∧ s'.database = s.database ∧
            s'.store.events.map ChangeEvent.plain = s.store.events.map ChangeEvent.plain := by
  have hstart := like_opened hregistry hsound hwritten registryFile labelStart
  refine ⟨hrun.exists_cleared hstart hfitting demands hdemands, fun log' s' hrun' hasked => ?_⟩
  obtain ⟨hstores, -, hplain⟩ := hrun.alike hstart hrun' hfitting (by
    rw [← hdemands, ← hasked, List.reduceOption, List.filterMap_map]
    rfl)
  refine ⟨hplain, hstores.shared.committed, ?_⟩
  exact (congrArg (fun w : Workspace => w.store.events) hstores.shared.bare :)

theorem written_run (hregistry : config.registry ≠ .cache) (hsound : tables.Sound)
    (hwritten : tables.Written) (hrun : (opened config tables registryFile labelStart).Run log s)
    (hfitting : Event.Fitting log) : s.database.committed.Sound ∧
    s.database.committed.Written := by
  have hstart := like_opened hregistry hsound hwritten registryFile labelStart
  have hstores := (hrun.alike hstart hrun hfitting rfl).stores
  exact ⟨hstores.left.sound, hstores.shared.left.committed⟩

/-- A URI is made and used in a statement that is committed, with the caches cleared
in between. -/
theorem cleared_alike_in_between :
    let a : Node := ⟨1, .uri "urn:a"⟩
    let s := (opened {} {} [] "w").begin.after 0 (.uri "urn:a")
    let t := s |>.after 0 (.add a a a none) |>.after 0 (.commit none)
    let t' := s.clearCaches |>.after 0 (.add a a a none) |>.clearCaches |>.after 0 (.commit none)
    t'.database = t.database ∧
      t'.store.events.map ChangeEvent.plain = t.store.events.map ChangeEvent.plain := by
  intro a s t t'
  have hmade := Run.nil (s := opened {} {} [] "w") |>.snoc .begin |>.call 0 (.uri "urn:a")
  have hrun := hmade |>.call 0 (.add a a a none) |>.call 0 (.commit none)
  have hrun' := hmade |>.snoc .clearCaches |>.call 0 (.add a a a none) |>.snoc .clearCaches
    |>.call 0 (.commit none)
  have hbegun : Event.Fitting ([] ++ [.begin]) :=
    Event.fitting_snoc_iff.mpr ⟨Event.fitting_nil, trivial⟩
  have hadded : ∀ n ∈ (Call.add a a a none).nodes, n = a := by simp [Call.nodes]
  obtain ⟨-, h⟩ := cleared_alike (by rintro ⟨⟩) Tables.sound_empty Tables.written_empty hrun
    (hbegun.call 0 (.uri "urn:a") trivial (by rintro n ⟨⟩) (by rintro _ _ ⟨⟩)
      |>.call 0 (.add a a a none) trivial (fun n hn =>
        .inr ⟨0, ⟨_, .tail _ (.head _), hadded n hn ▸ .head _⟩, .inl rfl⟩) (by rintro _ _ ⟨⟩)
      |>.call 0 (.commit none) trivial (by rintro n ⟨⟩) (by rintro _ _ ⟨⟩))
    [some .begin, some (.call 0 (.uri "urn:a")), none, some (.call 0 (.add a a a none)), none,
      some (.call 0 (.commit none))] rfl
  exact (h _ _ hrun' rfl).2

end OpenStore
end QuadStore
