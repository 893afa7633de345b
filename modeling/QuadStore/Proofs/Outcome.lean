import Mathlib.Data.List.Forall2
import Mathlib.Order.Defs.Unbundled
import QuadStore.Connection

namespace QuadStore

variable {ε σ α β : Type}

/-- The state in which an operation ends, whether it fails or not. -/
def finalState : EStateM.Result ε σ α → σ
  | .ok _ s => s
  | .error _ s => s

@[simp] theorem finalState_ok (v : α) (s : σ) :
    finalState (.ok v s : EStateM.Result ε σ α) = s := rfl

@[simp] theorem finalState_error (e : ε) (s : σ) :
    finalState (.error e s : EStateM.Result ε σ α) = s := rfl

theorem bind_of_ok {a : EStateM ε σ α} {f : α → EStateM ε σ β} {s s' : σ} {x : α}
    (h : a s = .ok x s') : (a >>= f) s = f x s' := by
  change EStateM.bind a f s = _
  simp only [EStateM.bind, h]

theorem bind_of_error {a : EStateM ε σ α} {f : α → EStateM ε σ β} {s s' : σ} {e : ε}
    (h : a s = .error e s') : (a >>= f) s = .error e s' := by
  change EStateM.bind a f s = _
  simp only [EStateM.bind, h]

theorem bind_eq_ok_iff {a : EStateM ε σ α} {f : α → EStateM ε σ β} {s s' : σ} {y : β} :
    (a >>= f) s = .ok y s' ↔ ∃ x s₁, a s = .ok x s₁ ∧ f x s₁ = .ok y s' := by
  cases h : a s with
  | ok x s₁ =>
      rw [bind_of_ok h]
      constructor
      · intro hf
        exact ⟨x, s₁, rfl, hf⟩
      · rintro ⟨_, _, ⟨rfl, rfl⟩, hf⟩
        exact hf
  | error e s₁ => simp [bind_of_error h]

@[simp] theorem pure_eq_ok_iff {x y : α} {s s' : σ} :
    (pure x : EStateM ε σ α) s = .ok y s' ↔ x = y ∧ s = s' := by
  change EStateM.Result.ok x s = .ok y s' ↔ _
  simp

@[simp] theorem throw_ne_ok {e : ε} {y : α} {s s' : σ} :
    (throw e : EStateM ε σ α) s ≠ .ok y s' := by
  intro h
  cases h

/-- Two operations after one another relate the states as each of them does. -/
theorem finalState_bind {R : σ → σ → Prop} [IsPreorder σ R] {a : EStateM ε σ α}
    {f : α → EStateM ε σ β} {s : σ} (ha : R s (finalState (a s)))
    (hf : ∀ x s₁, a s = .ok x s₁ → R s₁ (finalState (f x s₁))) :
    R s (finalState ((a >>= f) s)) := by
  cases h : a s with
  | ok x s₁ =>
      rw [bind_of_ok h]
      rw [h] at ha
      exact IsTrans.trans _ _ _ ha (hf x s₁ h)
  | error e s₁ =>
      rw [bind_of_error h]
      rwa [h] at ha

/-- However an operation ends, it relates the state before it to the one after it. -/
def Keeps (R : σ → σ → Prop) (a : EStateM ε σ α) : Prop :=
  ∀ s, R s (finalState (a s))

namespace Keeps

variable {R : σ → σ → Prop}

theorem ok {a : EStateM ε σ α} (h : Keeps R a) {s s' : σ} {x : α} (ha : a s = .ok x s') :
    R s s' := by
  simpa [ha] using h s

theorem error {a : EStateM ε σ α} (h : Keeps R a) {s s' : σ} {e : ε}
    (ha : a s = .error e s') : R s s' := by
  simpa [ha] using h s

theorem mono {S : σ → σ → Prop} {a : EStateM ε σ α} (h : Keeps R a)
    (hRS : ∀ s s', R s s' → S s s') : Keeps S a :=
  fun s => hRS _ _ (h s)

theorem ite {c : Prop} [Decidable c] {a b : EStateM ε σ α} (ha : Keeps R a) (hb : Keeps R b) :
    Keeps R (if c then a else b) := by
  split
  · exact ha
  · exact hb

section

variable [IsPreorder σ R]

theorem pure (x : α) : Keeps R (Pure.pure x : EStateM ε σ α) :=
  fun s => refl s

theorem throw (e : ε) : Keeps R (MonadExcept.throw e : EStateM ε σ α) :=
  fun s => refl s

theorem bind_of {a : EStateM ε σ α} {f : α → EStateM ε σ β} (ha : Keeps R a)
    (hf : ∀ s x s₁, a s = .ok x s₁ → R s₁ (finalState (f x s₁))) : Keeps R (a >>= f) :=
  fun s => finalState_bind (ha s) (hf s)

theorem bind {a : EStateM ε σ α} {f : α → EStateM ε σ β} (ha : Keeps R a)
    (hf : ∀ x, Keeps R (f x)) : Keeps R (a >>= f) :=
  ha.bind_of fun _ x s₁ _ => hf x s₁

theorem mapM {f : α → EStateM ε σ β} {xs : List α} (hf : ∀ x ∈ xs, Keeps R (f x)) :
    Keeps R (xs.mapM f) := by
  induction xs with
  | nil =>
      rw [List.mapM_nil]
      exact .pure _
  | cons x rest ih =>
      rw [List.mapM_cons]
      refine (hf x (by simp)).bind fun y => ?_
      refine (ih fun z hz => hf z (by simp [hz])).bind fun ys => ?_
      exact .pure _

theorem mapM_eq_ok {f : α → EStateM ε σ β} (hf : ∀ x, Keeps R (f x)) {xs : List α} {ys : List β}
    {s s' : σ} (h : xs.mapM f s = .ok ys s') :
    List.Forall₂ (fun x y => ∃ s₁ s₂, R s s₁ ∧ f x s₁ = .ok y s₂) xs ys := by
  induction xs generalizing s s' ys with
  | nil =>
      rw [List.mapM_nil] at h
      obtain ⟨rfl, -⟩ := pure_eq_ok_iff.mp h
      exact .nil
  | cons x rest ih =>
      rw [List.mapM_cons] at h
      obtain ⟨y, s₁, hy, h⟩ := bind_eq_ok_iff.mp h
      obtain ⟨ys', s₂, hys, h⟩ := bind_eq_ok_iff.mp h
      obtain ⟨rfl, -⟩ := pure_eq_ok_iff.mp h
      refine .cons ⟨s, s₁, refl s, hy⟩ ((ih hys).imp ?_)
      rintro z z' ⟨t, t', hR, hz⟩
      exact ⟨t, t', IsTrans.trans _ _ _ ((hf x).ok hy) hR, hz⟩

end
end Keeps

theorem map_eq_of_forall₂ {γ : Type} {f : α → γ} {g : β → γ} {xs : List α} {ys : List β}
    (h : List.Forall₂ (fun x y => f x = g y) xs ys) : xs.map f = ys.map g := by
  rwa [← List.forall₂_eq_eq_eq, List.forall₂_map_left_iff, List.forall₂_map_right_iff]

/-- When an operation fails, it relates the state before it to the one after it. -/
def KeepsFailing (R : σ → σ → Prop) (a : EStateM ε σ α) : Prop :=
  ∀ s e s', a s = .error e s' → R s s'

theorem Keeps.failing {R : σ → σ → Prop} {a : EStateM ε σ α} (h : Keeps R a) : KeepsFailing R a :=
  fun _ _ _ => h.error

namespace KeepsFailing

variable {R : σ → σ → Prop}

theorem mono {S : σ → σ → Prop} {a : EStateM ε σ α} (h : KeepsFailing R a)
    (hRS : ∀ s s', R s s' → S s s') : KeepsFailing S a :=
  fun s e s' ha => hRS _ _ (h s e s' ha)

variable [IsPreorder σ R]

theorem bind_of {a : EStateM ε σ α} {f : α → EStateM ε σ β} (ha : Keeps R a)
    (hf : ∀ s x s₁ e s', a s = .ok x s₁ → f x s₁ = .error e s' → R s₁ s') :
    KeepsFailing R (a >>= f) := by
  intro s e s' h
  cases hs : a s with
  | ok x s₁ =>
      rw [bind_of_ok hs] at h
      exact IsTrans.trans _ _ _ (ha.ok hs) (hf s x s₁ e s' hs h)
  | error e' s₁ =>
      rw [bind_of_error hs] at h
      cases h
      exact ha.error hs

theorem bind {a : EStateM ε σ α} {f : α → EStateM ε σ β} (ha : Keeps R a)
    (hf : ∀ x, KeepsFailing R (f x)) : KeepsFailing R (a >>= f) :=
  bind_of ha fun _ x s₁ e s' _ => hf x s₁ e s'

end KeepsFailing

namespace Action

variable {R : Workspace → Workspace → Prop} [IsPreorder Workspace R]

theorem keeps_get : Keeps R (get : Action Workspace) :=
  fun w => refl w

theorem keeps_view (f : Tables → α) : Keeps R (view f) :=
  fun w => refl w

theorem keeps_ofData (x : Except DataFault α) : Keeps R (ofData x) := by
  cases x with
  | ok v => exact .pure v
  | error fault => exact .throw _

theorem keeps_ofStatement (x : Except StatementFault α) : Keeps R (ofStatement x) := by
  cases x with
  | ok v => exact .pure v
  | error fault => exact .throw _

theorem keeps_ofExcept (x : Except StoreError α) : Keeps R (ofExcept x) := by
  cases x with
  | ok v => exact .pure v
  | error e => exact .throw e

theorem view_eq_ok_iff {f : Tables → α} {v : α} {w w' : Workspace} :
    view f w = .ok v w' ↔ f w.view = v ∧ w = w' := by
  change EStateM.Result.ok (f w.view) w = .ok v w' ↔ _
  simp

theorem get_eq_ok_iff {v w w' : Workspace} :
    (get : Action Workspace) w = .ok v w' ↔ w = v ∧ w = w' := by
  change EStateM.Result.ok w w = .ok v w' ↔ _
  simp

theorem ofData_eq_ok_iff {x : Except DataFault α} {v : α} {w w' : Workspace} :
    ofData x w = .ok v w' ↔ x = .ok v ∧ w = w' := by
  cases x with
  | ok u =>
      simp only [ofData, pure_eq_ok_iff, Except.ok.injEq]
  | error fault => simp [ofData]

theorem ofStatement_eq_ok_iff {x : Except StatementFault α} {v : α} {w w' : Workspace} :
    ofStatement x w = .ok v w' ↔ x = .ok v ∧ w = w' := by
  cases x with
  | ok u => simp only [ofStatement, pure_eq_ok_iff, Except.ok.injEq]
  | error fault => simp [ofStatement]

theorem ofExcept_eq_ok_iff {x : Except StoreError α} {v : α} {w w' : Workspace} :
    ofExcept x w = .ok v w' ↔ x = .ok v ∧ w = w' := by
  cases x with
  | ok u => simp only [ofExcept, pure_eq_ok_iff, Except.ok.injEq]
  | error e => simp [ofExcept]

end Action
end QuadStore
