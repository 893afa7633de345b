import QuadStore.Proofs.ClearedCaches

namespace QuadStore

open Transaction

/-- Something that happens when transactions may be interrupted: a step of the store, or the
second part of creating a node, which stores it after it was not found. -/
inductive Turn
  | step (e : Event)
  | store (number : Nat) (n : Node) (answer : Except StoreError Node)

/-- The transaction that has committed. -/
def Turn.committed? : Turn → Option Nat
  | .step e => e.committed?
  | .store _ _ _ => none

namespace OpenStore

/-- How the store changes in a turn. A node that was not found may be stored at any time after
that, whatever has happened meanwhile. -/
inductive Moves (s : OpenStore) : Turn → OpenStore → Prop
  | step {e : Event} {s' : OpenStore} (h : s.Step e s') : Moves s (.step e) s'
  | store {i : Nat} {x : Scope} {n : Node} (hx : s.scope? i = some x)
      (hnew : n.isPersisted = false) :
      Moves s (.store i n (answerOf (perform (Action.storeNode n) x)))
        (s.put i (finalState (perform (Action.storeNode n) x)))

/-- One turn after another. -/
inductive Moved (s : OpenStore) : List Turn → OpenStore → Prop
  | nil : Moved s [] s
  | snoc {log : List Turn} {m : Turn} {s₁ s₂ : OpenStore} (h : Moved s log s₁)
      (hmoves : Moves s₁ m s₂) : Moved s (log ++ [m]) s₂

variable {s s' : OpenStore} {m : Turn} {log : List Turn} {i : Nat} {x : Scope}

theorem Moved.of_run {events : List Event} (h : s.Run events s') :
    s.Moved (events.map Turn.step) s' := by
  induction h with
  | nil => exact .nil
  | snoc _ hstep ih =>
      rw [List.map_append]
      exact ih.snoc (.step hstep)

theorem storeNode_advances (n : Node) (x : Scope) :
    Advances x (finalState (perform (Action.storeNode n) x)) :=
  Keeps.advances (keeps_perform (Action.storeNode_silent n)) x

theorem storeNode_of_closed (n : Node) (h : x.closed = true) :
    finalState (perform (Action.storeNode n) x) = x :=
  congrArg finalState (whileOpen_of_closed h)

theorem Good.moves (hs : s.Good) (h : s.Moves m s') : s'.Good := by
  cases h with
  | step hstep => exact hs.step hstep
  | store hx hnew => exact hs.put_advances hx (storeNode_advances _ _) (storeNode_of_closed _)

theorem Good.moved (hs : s.Good) (h : s.Moved log s') : s'.Good := by
  induction h with
  | nil => exact hs
  | snoc _ hmoves ih => exact ih.moves hmoves

theorem Good.nodes_moves (hs : s.Good) (h : s.Moves m s') :
    ∀ r ∈ s.database.committed.nodes, r ∈ s'.database.committed.nodes := by
  cases h with
  | step hstep => exact hs.nodes_step hstep
  | store hx hnew =>
      rename_i j x n
      intro r hr
      show r ∈ (finalState (perform (Action.storeNode n) x)).work.database.committed.nodes
      rwa [(storeNode_advances n x).works.committed, database_of_scope? hx]

theorem Good.nodes_moved (hs : s.Good) (h : s.Moved log s') :
    ∀ r ∈ s.database.committed.nodes, r ∈ s'.database.committed.nodes := by
  induction h with
  | nil => exact fun r hr => hr
  | snoc hmoved hmoves ih => exact fun r hr => (hs.moved hmoved).nodes_moves hmoves r (ih r hr)

theorem Good.sees_moves (hs : s.Good) (h : s.Moves m s') (hx : s.scope? i = some x) :
    ∃ y, s'.scope? i = some y ∧ (y.closed = false → x.closed = false ∧
      ∀ r ∈ x.work.view.nodes, r ∈ y.work.view.nodes) := by
  cases h with
  | step hstep => exact hs.sees_step hstep hx
  | store hz hnew => exact sees_put_advances hz (storeNode_advances _ _) hx

theorem Moves.closed (h : s.Moves m s') (hx : s.scope? i = some x) (hclosed : x.closed = true) :
    ∃ y, s'.scope? i = some y ∧ y.closed = true := by
  cases h with
  | step hstep => exact hstep.closed hx hclosed
  | store hz hnew =>
      rename_i j z n
      by_cases hij : i = j
      · subst hij
        obtain rfl := Option.some.inj (hx.symm.trans hz)
        exact ⟨_, scope?_put_self hx, by rwa [storeNode_of_closed n hclosed]⟩
      · exact ⟨_, scope?_put_other hx hij, hclosed⟩

/-- Whoever commits was open and has left its tables. -/
theorem Moves.commits (h : s.Moves m s') (hcommitted : m.committed? = some i) :
    ∃ x y, s.scope? i = some x ∧ s' = s.put i y ∧ x.closed = false ∧ Committed x y := by
  cases h with
  | step hstep => exact hstep.commits hcommitted
  | store hx hnew => cases hcommitted

end OpenStore
end QuadStore
