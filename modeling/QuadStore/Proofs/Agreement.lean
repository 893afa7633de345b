import QuadStore.Proofs.Outcome

namespace QuadStore

variable {ε σ α β : Type} {R : σ → σ → Prop}

/-- Whether two results are alike. How far answers agree may depend on the state that
comes with the first one. -/
inductive Alike (R : σ → σ → Prop) (Q : α → α → σ → Prop) :
    EStateM.Result ε σ α → EStateM.Result ε σ α → Prop
  | ok {v v' : α} {s s' : σ} (hanswers : Q v v' s) (hstates : R s s') :
      Alike R Q (.ok v s) (.ok v' s')
  | error {e : ε} {s s' : σ} (hstates : R s s') : Alike R Q (.error e s) (.error e s')

/-- Whether two answers are the same. -/
def Same (v v' : α) (_ : σ) : Prop :=
  v' = v

/-- Whether an operation ends alike from all states that are alike. -/
def Agrees (R : σ → σ → Prop) (Q : α → α → σ → Prop) (a : EStateM ε σ α) : Prop :=
  ∀ s s', R s s' → Alike R Q (a s) (a s')

namespace Alike

variable {Q Q' : α → α → σ → Prop} {x x' : EStateM.Result ε σ α} {s s' : σ}

theorem states (h : Alike R Q x x') : R (finalState x) (finalState x') := by
  cases h with
  | ok _ hstates | error hstates => exact hstates

theorem imp (h : Alike R Q x x') (hQ : ∀ v v' s s', x = .ok v s → R s s' → Q v v' s → Q' v v' s) :
    Alike R Q' x x' := by
  cases h with
  | ok hanswers hstates => exact .ok (hQ _ _ _ _ rfl hstates hanswers) hstates
  | error hstates => exact .error hstates

/-- States that are alike may be known to satisfy more. -/
theorem strengthen {R' : σ → σ → Prop} (h : Alike R Q x x')
    (hR : R (finalState x) (finalState x') → R' (finalState x) (finalState x')) :
    Alike R' Q x x' := by
  cases h with
  | ok hanswers hstates => exact .ok hanswers (hR hstates)
  | error hstates => exact .error (hR hstates)

theorem bind {a a' : EStateM ε σ α} {f f' : α → EStateM ε σ β} {P : β → β → σ → Prop}
    (h : Alike R Q (a s) (a' s'))
    (hf : ∀ v v' s₁ s₁', a s = .ok v s₁ → a' s' = .ok v' s₁' → Q v v' s₁ → R s₁ s₁' →
      Alike R P (f v s₁) (f' v' s₁')) : Alike R P ((a >>= f) s) ((a' >>= f') s') := by
  cases ha : a s with
  | ok v s₁ =>
      cases ha' : a' s' with
      | ok v' s₁' =>
          rw [bind_of_ok ha, bind_of_ok ha']
          rw [ha, ha'] at h
          cases h with
          | ok hanswers hstates => exact hf v v' s₁ s₁' ha ha' hanswers hstates
      | error e s₁' =>
          rw [ha, ha'] at h
          cases h
  | error e s₁ =>
      cases ha' : a' s' with
      | ok v' s₁' =>
          rw [ha, ha'] at h
          cases h
      | error e' s₁' =>
          rw [bind_of_error ha, bind_of_error ha']
          rw [ha, ha'] at h
          cases h with
          | error hstates => exact .error hstates

end Alike

namespace Agrees

variable {Q : α → α → σ → Prop} {P : β → β → σ → Prop}

theorem pure (x : α) : Agrees R Same (Pure.pure x : EStateM ε σ α) :=
  fun _ _ h => .ok rfl h

theorem throw (e : ε) : Agrees R Q (MonadExcept.throw e : EStateM ε σ α) :=
  fun _ _ h => .error h

theorem bind {a : EStateM ε σ α} {f : α → EStateM ε σ β} (ha : Agrees R Same a)
    (hf : ∀ v, Agrees R P (f v)) : Agrees R P (a >>= f) := by
  intro s s' h
  refine (ha s s' h).bind fun v v' s₁ s₁' _ _ hsame h₁ => ?_
  obtain rfl : v' = v := hsame
  exact hf v' s₁ s₁' h₁

theorem get_bind {f : σ → EStateM ε σ β} (hf : ∀ s s', R s s' → Alike R P (f s s) (f s' s')) :
    Agrees R P (get >>= f) := by
  intro s s' h
  rw [bind_of_ok (a := (get : EStateM ε σ σ)) (s := s) rfl,
    bind_of_ok (a := (get : EStateM ε σ σ)) (s := s') rfl]
  exact hf s s' h

theorem mapM {Q : β → β → Prop} {f : α → EStateM ε σ β} {xs : List α}
    (hf : ∀ x ∈ xs, Agrees R (fun v v' _ => Q v v') (f x)) :
    Agrees R (fun vs vs' _ => List.Forall₂ Q vs vs') (xs.mapM f) := by
  induction xs with
  | nil => exact fun s s' h => .ok .nil h
  | cons x rest ih =>
      intro s s' h
      rw [List.mapM_cons]
      refine (hf x (by simp) s s' h).bind fun v v' s₁ s₁' _ _ hv h₁ => ?_
      refine (ih (fun y hy => hf y (by simp [hy])) s₁ s₁' h₁).bind ?_
      exact fun vs vs' s₂ s₂' _ _ hvs h₂ => .ok (.cons hv hvs) h₂

theorem mapM_same {f : α → EStateM ε σ β} {xs : List α} (hf : ∀ x ∈ xs, Agrees R Same (f x)) :
    Agrees R Same (xs.mapM f) := by
  intro s s' h
  refine (mapM (Q := fun v v' => v' = v) hf s s' h).imp fun vs vs' _ _ _ _ hvs => ?_
  exact (List.forall₂_eq_eq_eq ▸ hvs.flip : vs' = vs)

end Agrees
end QuadStore
