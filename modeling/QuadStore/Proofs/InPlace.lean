import QuadStore.Proofs.StatementWork

namespace QuadStore

/-- An operation of a connection on a value. A failing operation keeps what it has changed
before, in the value too. -/
abbrev InPlace (ν : Type) := EStateM StoreError (Workspace × ν)

namespace InPlace

variable {ν α β : Type}

def lift (a : Action α) : InPlace ν α := fun s =>
  match a s.1 with
  | .ok x w => .ok x (w, s.2)
  | .error e w => .error e (w, s.2)

def value : InPlace ν ν := do
  pure (← get).2

def assign (f : ν → ν) : InPlace ν Unit :=
  modify fun s => (s.1, f s.2)

/-- Assigns what an operation gives back, if it succeeds. -/
def settle (a : Action (ν × α)) : InPlace ν α := fun s =>
  match a s.1 with
  | .ok (v, x) w => .ok x (w, v)
  | .error e w => .error e (w, s.2)

def storeNode : InPlace Node Unit := do
  if (← value).isPersisted then pure ()
  else
    lift (Action.checkDatatype (← value))
    lift Action.beginWrite
    let id ← lift (Action.nextId .nodes)
    let row := NodeRow.ofNode id (← value)
    match ← lift (Action.view (·.insertNode? row)) with
    | some tables => do
        lift (Action.setTables tables)
        assign (·.withId id)
    | none =>
        match ← lift (Action.loadNode (← value)) with
        | some existing => assign (·.withId existing.id)
        | none => throw (.data (.unreadableConflict (← value)))
    let stored ← value
    lift (Action.modifyConn fun c => { c with freshNodes := c.freshNodes ++ [stored] })

/-- Gives a statement an id that has none, if it can be stored. -/
def identify : InPlace Statement Unit := do
  lift (Action.checkStorable (← value))
  if (← value).id < 0 then
    let id ← lift (Action.nextId .statements)
    assign fun t => { t with id }

def storeIdentified : InPlace Statement Bool := do
  lift Action.beginWrite
  match ← lift (Action.liveStatementId (← value).key) with
  | some existing => do
      match ← lift (Action.loadStatement existing) with
      | some stored => assign fun t => { t with inferred := stored.inferred }
      | none => pure ()
      assign fun t => { t with id := existing, deleted := false }
      pure false
  | none => do
      let inserted ← lift (Action.insertRow (← value))
      assign fun _ => { inserted with deleted := false, deletionTimed := false }
      let t ← value
      lift (Action.modifyConn fun c =>
        { c with touched := c.touched ++ [t.id], freshStatements := c.freshStatements ++ [t] })
      pure true

def storeStatement : InPlace Statement Bool := do
  identify
  storeIdentified

def deleteStatement : InPlace Statement Bool := do
  if (← value).id < 0 then pure false
  else
    lift Action.beginWrite
    let id := (← value).id
    let changed ← lift (Action.view (·.deleteStatement? id))
    match changed with
    | some tables => lift (Action.setTables tables)
    | none => pure ()
    lift (Action.modifyConn fun c =>
      { c with
        touched := c.touched ++ [id]
        freshStatements := c.freshStatements.filter fun u => u.id ≠ id })
    if changed.isSome then
      assign fun t => { t with deleted := true, deletionTimed := true }
      pure true
    else pure false

def removeStatement : InPlace Statement Bool := do
  let isRemoved ← deleteStatement
  lift (Action.unregister (← value).key)
  pure isRemoved

def storeNamespace : InPlace Namespace Unit := do
  lift Action.beginWrite
  let id ← lift (Action.nextId .namespaces)
  let ns ← value
  let view := (← lift (get : Action Workspace)).view
  lift (Action.setTables
    (← lift (Action.ofData (view.insertNamespace ⟨id, ns.label, ns.uri, .clock⟩))))
  assign fun ns => { ns with id }
  let stored ← value
  lift (Action.modifyConn fun c => { c with freshNamespaces := c.freshNamespaces ++ [stored] })

variable {w : Workspace} {v : ν}

theorem value_bind (f : ν → InPlace ν α) : (value >>= f) (w, v) = f v (w, v) := rfl

/-- A step that assigns nothing comes before what is settled after it. -/
theorem lift_bind_eq {a : Action β} {f : β → InPlace ν α} {g : β → Action (ν × α)}
    (h : ∀ x w', a w = .ok x w' → f x (w', v) = settle (g x) (w', v)) :
    (lift a >>= f) (w, v) = settle (a >>= g) (w, v) := by
  cases ha : a w with
  | ok x w' =>
      have hlift : (lift a : InPlace ν β) (w, v) = .ok x (w', v) := by rw [lift, ha]
      rw [bind_of_ok hlift, h x w' ha, settle, settle, bind_of_ok ha]
  | error e w' =>
      have hlift : (lift a : InPlace ν β) (w, v) = .error e (w', v) := by rw [lift, ha]
      rw [bind_of_error hlift, settle, bind_of_error ha]

theorem storeNode_eq (n : Node) (w : Workspace) :
    storeNode (w, n) = settle ((·, ()) <$> Action.storeNode n) (w, n) := by
  unfold storeNode Action.storeNode
  rw [value_bind]
  by_cases hpersisted : n.isPersisted = true
  · rw [if_pos hpersisted, if_pos hpersisted]
    rfl
  rw [if_neg hpersisted, if_neg hpersisted, value_bind]
  simp only [map_bind]
  refine lift_bind_eq fun _ w₁ _ => lift_bind_eq fun _ w₂ _ => lift_bind_eq fun id w₃ _ => ?_
  rw [value_bind]
  refine lift_bind_eq fun tables w₄ _ => ?_
  cases tables with
  | some tables => rfl
  | none =>
      dsimp only
      rw [value_bind, map_bind]
      refine lift_bind_eq fun existing w₅ _ => ?_
      cases existing <;> rfl

theorem identify_eq (t : Statement) (w : Workspace) :
    identify (w, t) = settle ((·, ()) <$> Action.identify t) (w, t) := by
  unfold identify Action.identify
  rw [value_bind, map_bind]
  refine lift_bind_eq fun _ w₁ _ => ?_
  rw [value_bind]
  split
  · rw [map_bind]
    exact lift_bind_eq fun id w₂ _ => rfl
  · rfl

theorem identify_of_ok {t t' : Statement} {w' : Workspace} (h : Action.identify t w = .ok t' w') :
    identify (w, t) = .ok () (w', t') := by
  rw [identify_eq, settle, map_eq_pure_bind, bind_of_ok h]
  rfl

theorem identify_of_error {t : Statement} {e : StoreError} {w' : Workspace}
    (h : Action.identify t w = .error e w') : identify (w, t) = .error e (w', t) := by
  rw [identify_eq, settle, map_eq_pure_bind, bind_of_error h]

theorem storeIdentified_eq (t : Statement) (w : Workspace) :
    storeIdentified (w, t) = settle (Action.storeIdentified t) (w, t) := by
  unfold storeIdentified Action.storeIdentified
  refine lift_bind_eq fun _ w₁ _ => ?_
  rw [value_bind]
  refine lift_bind_eq fun live w₂ _ => ?_
  cases live with
  | some existing =>
      dsimp only
      refine lift_bind_eq fun stored w₃ _ => ?_
      cases stored <;> rfl
  | none =>
      dsimp only
      rw [value_bind]
      exact lift_bind_eq fun inserted w₃ _ => rfl

theorem deleteStatement_eq (t : Statement) (w : Workspace) :
    deleteStatement (w, t) = settle (Action.deleteStatement t) (w, t) := by
  unfold deleteStatement Action.deleteStatement
  rw [value_bind]
  by_cases hid : t.id < 0
  · rw [if_pos hid, if_pos hid]
    rfl
  rw [if_neg hid, if_neg hid]
  refine lift_bind_eq fun _ w₁ _ => ?_
  rw [value_bind]
  refine lift_bind_eq fun changed w₂ _ => ?_
  cases changed <;> rfl

theorem storeNamespace_eq (ns : Namespace) (w : Workspace) :
    storeNamespace (w, ns) = settle ((·, ()) <$> Action.storeNamespace ns) (w, ns) := by
  unfold storeNamespace Action.storeNamespace
  simp only [map_bind]
  refine lift_bind_eq fun _ w₁ _ => lift_bind_eq fun id w₂ _ => ?_
  rw [value_bind]
  refine lift_bind_eq fun w₃ w₄ _ => lift_bind_eq fun tables w₅ _ => ?_
  rfl

theorem removeStatement_eq (t : Statement) (w : Workspace) :
    removeStatement (w, t) = settle (Action.removeStatement t) (w, t) := by
  unfold removeStatement Action.removeStatement
  cases hdelete : Action.deleteStatement t w with
  | ok removed w₁ =>
      have hdeleted : deleteStatement (w, t) = .ok removed.2 (w₁, removed.1) := by
        rw [deleteStatement_eq, settle, hdelete]
      rw [bind_of_ok hdeleted, settle, bind_of_ok hdelete]
      rfl
  | error e w₁ =>
      have hdeleted : deleteStatement (w, t) = .error e (w₁, t) := by
        rw [deleteStatement_eq, settle, hdelete]
      rw [bind_of_error hdeleted, settle, bind_of_error hdelete]

end InPlace
end QuadStore
