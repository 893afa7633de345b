import QuadStore.Proofs.InterruptedRuns

/-!
The identity of resources. Main statement: every URI and every blank node has at most one
committed row, which stays as it is, and transactions that are open or have committed were
answered with the same id exactly when they had asked for the same resource, however they
have interrupted one another.
-/

namespace QuadStore

open Transaction

namespace Tables

variable {t : Tables} {term term' : Term} {id id' : Int}

/-- Whether every URI and every blank node has at most one row. -/
def NamedOnce (t : Tables) : Prop :=
  ∀ kind : NodeKind, kind.isLiteral = false → ∀ name : String,
    t.nodes.countP (fun r => r.kind == kind.name && r.lexical == name) ≤ 1

theorem Sound.namedOnce (h : t.Sound) : t.NamedOnce := by
  intro kind hkind name
  refine countP_le_one (List.Nodup.of_map _ h.nodeIds) fun r hr r' hr' hname hname' => ?_
  simp only [Bool.and_eq_true, beq_iff_eq] at hname hname'
  have hresource : r.isResource = true := by
    cases kind <;> simp [NodeRow.isResource, NodeKind.name, hname.1,
      NodeKind.isLiteral] at hkind ⊢
  exact h.resources r hr r' hr' hresource (hname.1.trans hname'.1.symm)
    (hname.2.trans hname'.2.symm)

theorem Sound.id_eq_iff (h : t.Sound) (hterm : term.isResource = true)
    (hterm' : term'.isResource = true) (hholds : t.HoldsNode ⟨id, term⟩)
    (hholds' : t.HoldsNode ⟨id', term'⟩) : id = id' ↔ term = term' := by
  obtain ⟨r, hr, hrow⟩ := hholds
  obtain ⟨r', hr', hrow'⟩ := hholds'
  have hname := hrow.term_eq_iff hrow' hterm hterm'
  constructor
  · intro hid
    obtain rfl : r = r' := List.inj_on_of_nodup_map h.nodeIds hr hr'
      (hrow.1.trans (hid.trans hrow'.1.symm))
    exact hname.mpr ⟨rfl, rfl⟩
  · intro hsame
    obtain ⟨hkind, hlexical⟩ := hname.mp hsame
    obtain rfl := h.resources r hr r' hr' (hrow.isResource.trans hterm) hkind hlexical
    exact hrow.1.symm.trans hrow'.1

end Tables

namespace Turn

/-- The transaction that has created a resource, and the id that it was answered with. -/
def created? : Turn → Option (Nat × Term × Int)
  | .step (.call number _ _ (.uri uri) (.ok n)) => some (number, .uri uri, n.id)
  | .step (.call number _ _ (.blank (some label)) (.ok n)) => some (number, .blank label, n.id)
  | .store number n (.ok m) => some (number, n.term, m.id)
  | _ => none

/-- Whether a transaction was answered with an id for a term that it had created. -/
def Created (log : List Turn) (number : Nat) (term : Term) (id : Int) : Prop :=
  ∃ m ∈ log, m.created? = some (number, term, id)

/-- Whether a transaction has committed. -/
def HasCommitted (log : List Turn) (number : Nat) : Prop :=
  ∃ m ∈ log, m.committed? = some number

variable {log : List Turn} {m : Turn} {i : Nat} {term : Term} {id : Int}

theorem created_snoc :
    Created (log ++ [m]) i term id ↔ Created log i term id ∨ m.created? = some (i, term, id) := by
  simp [Created, or_and_right, exists_or]

theorem hasCommitted_snoc :
    HasCommitted (log ++ [m]) i ↔ HasCommitted log i ∨ m.committed? = some i := by
  simp [HasCommitted, or_and_right, exists_or]

end Turn

namespace OpenStore

variable {s s' : OpenStore} {m : Turn} {log : List Turn} {i j : Nat} {x y : Scope}
variable {term term' : Term} {id id' : Int}

theorem created_of_perform {a : Action Node} (hx : s.scope? i = some x)
    (ha : ∀ {n w}, a x.work = .ok n w → w.view.HoldsNode ⟨n.id, term⟩) {n : Node}
    (hanswer : answerOf (perform a x) = .ok n) :
    ∃ y, (s.put i (finalState (perform a x))).scope? i = some y ∧
      y.work.view.HoldsNode ⟨n.id, term⟩ := by
  cases hop : perform a x with
  | error e y =>
      rw [hop] at hanswer
      cases hanswer
  | ok m y =>
      rw [hop] at hanswer
      cases hanswer
      obtain ⟨-, hop⟩ := whileOpen_eq_ok_iff.mp hop
      obtain ⟨w, hcreate, rfl⟩ := work_eq_ok_iff.mp hop
      exact ⟨_, scope?_put_self hx, ha hcreate⟩

theorem Moves.created (hs : s.Good) (h : s.Moves m s')
    (hanswer : m.created? = some (i, term, id)) :
    ∃ y, s'.scope? i = some y ∧ y.work.view.HoldsNode ⟨id, term⟩ := by
  cases h with
  | store hx hnew =>
      rename_i j x n
      cases hresult : answerOf (perform (Action.storeNode n) x) with
      | error e =>
          rw [hresult] at hanswer
          cases hanswer
      | ok v =>
          rw [hresult] at hanswer
          cases hanswer
          exact created_of_perform hx (fun h => (Action.storeNode_eq_ok hnew h).2) hresult
  | step hstep =>
      cases hstep with
      | begin | clearCaches | evict => cases hanswer
      | call c hx =>
          rename_i j x
          have hwork := (hs.scopes j x hx).work
          cases c with
          | uri uri =>
              cases hresult : answerOf ((Call.uri uri).run x) with
              | error e =>
                  rw [hresult] at hanswer
                  cases hanswer
              | ok n =>
                  rw [hresult] at hanswer
                  cases hanswer
                  exact created_of_perform hx
                    (fun h => (Action.createUri_eq_ok hwork h).2) hresult
          | blank label =>
              cases hresult : answerOf ((Call.blank label).run x) with
              | error e =>
                  rw [hresult] at hanswer
                  cases label <;> cases hanswer
              | ok n =>
                  rw [hresult] at hanswer
                  cases label with
                  | none => cases hanswer
                  | some label =>
                      cases hanswer
                      exact created_of_perform hx
                        (fun h => (Action.createBlank_eq_ok hwork h).2) hresult
          | _ => cases hanswer

/-- What is remembered of a run: open transactions see the rows of the resources that they have
created, which are committed when a transaction has committed. -/
structure Names (s : OpenStore) (log : List Turn) : Prop where
  created : ∀ i term id, Turn.Created log i term id →
    ∃ x, s.scope? i = some x ∧ (x.closed = false → x.work.view.HoldsNode ⟨id, term⟩)
  ended : ∀ i, Turn.HasCommitted log i → ∃ x, s.scope? i = some x ∧ x.closed = true
  committed : ∀ i term id, Turn.Created log i term id → Turn.HasCommitted log i →
    s.database.committed.HoldsNode ⟨id, term⟩

theorem names_nil (s : OpenStore) : s.Names [] := by
  constructor <;> simp [Turn.Created, Turn.HasCommitted]

section

variable (hn : s.Names log) (hs : s.Good) (h : s.Moves m s')

include hn hs h

theorem Names.created_moves (hcreated : Turn.Created (log ++ [m]) i term id) :
    ∃ y, s'.scope? i = some y ∧ (y.closed = false → y.work.view.HoldsNode ⟨id, term⟩) := by
  rcases Turn.created_snoc.mp hcreated with hold | hnew
  · obtain ⟨x, hx, hholds⟩ := hn.created i term id hold
    obtain ⟨y, hy, hsees⟩ := hs.sees_moves h hx
    refine ⟨y, hy, fun hopen => ?_⟩
    obtain ⟨hopen', hnodes⟩ := hsees hopen
    exact (hholds hopen').mono hnodes
  · obtain ⟨y, hy, hholds⟩ := h.created hs hnew
    exact ⟨y, hy, fun _ => hholds⟩

omit hs in
theorem Names.ended_moves (hcommitted : Turn.HasCommitted (log ++ [m]) i) :
    ∃ y, s'.scope? i = some y ∧ y.closed = true := by
  rcases Turn.hasCommitted_snoc.mp hcommitted with hold | hnew
  · obtain ⟨x, hx, hclosed⟩ := hn.ended i hold
    exact h.closed hx hclosed
  · obtain ⟨x, y, hx, rfl, -, hended⟩ := h.commits hnew
    exact ⟨y, scope?_put_self hx, hended.closed⟩

theorem Names.committed_moves (hcreated : Turn.Created (log ++ [m]) i term id)
    (hcommitted : Turn.HasCommitted (log ++ [m]) i) :
    s'.database.committed.HoldsNode ⟨id, term⟩ := by
  rcases Turn.created_snoc.mp hcreated with hold | hnew
  · rcases Turn.hasCommitted_snoc.mp hcommitted with hbefore | hnow
    · exact (hn.committed i term id hold hbefore).mono (hs.nodes_moves h)
    · obtain ⟨x, y, hx, rfl, hopen, hended⟩ := h.commits hnow
      obtain ⟨x', hx', hholds⟩ := hn.created i term id hold
      obtain rfl := Option.some.inj (hx.symm.trans hx')
      exact (hholds hopen).mono fun r hr => hended.nodes ▸ hr
  · -- A transaction that has ended sees what is committed.
    obtain ⟨y, hy, hholds⟩ := h.created hs hnew
    obtain ⟨y', hy', hclosed⟩ := hn.ended_moves h hcommitted
    obtain rfl := Option.some.inj (hy.symm.trans hy')
    rwa [Workspace.view_eq_committed ((hs.moves h).closed i y hy hclosed), database_of_scope? hy]
      at hholds

theorem Names.moves : s'.Names (log ++ [m]) :=
  ⟨fun _ _ _ => hn.created_moves hs h, fun _ => hn.ended_moves h,
    fun _ _ _ => hn.committed_moves hs h⟩

end

theorem Good.names (hs : s.Good) (h : s.Moved log s') : s'.Names log := by
  induction h with
  | nil => exact names_nil s
  | snoc hmoved hmoves ih => exact ih.moves (hs.moved hmoved) hmoves

/-- Whether a transaction is still open or has committed. -/
def Stands (s : OpenStore) (log : List Turn) (i : Nat) : Prop :=
  (∃ x, s.scope? i = some x ∧ x.closed = false) ∨ Turn.HasCommitted log i

theorem Names.sees (hn : s.Names log) (hs : s.Good) (hcreated : Turn.Created log i term id)
    (hstands : s.Stands log i) :
    ∃ x, s.scope? i = some x ∧ x.work.view.HoldsNode ⟨id, term⟩ := by
  obtain ⟨x, hx, hholds⟩ := hn.created i term id hcreated
  refine ⟨x, hx, ?_⟩
  rcases hstands with ⟨x', hx', hopen⟩ | hcommitted
  · obtain rfl := Option.some.inj (hx.symm.trans hx')
    exact hholds hopen
  · obtain ⟨x', hx', hclosed⟩ := hn.ended i hcommitted
    obtain rfl := Option.some.inj (hx.symm.trans hx')
    rw [Workspace.view_eq_committed (hs.closed i x hx hclosed), database_of_scope? hx]
    exact hn.committed i term id hcreated hcommitted

theorem Good.common_view (hs : s.Good) (hx : s.scope? i = some x) (hy : s.scope? j = some y) :
    ∃ t : Tables, t.Sound ∧ (∀ r ∈ x.work.view.nodes, r ∈ t.nodes) ∧
      ∀ r ∈ y.work.view.nodes, r ∈ t.nodes := by
  have hgood := (hs.scopes i x hx).work
  have hgood' := (hs.scopes j y hy).work
  -- One of two transactions at most writes; the other one sees what is
  -- committed, as the first does.
  by_cases hij : i = j
  · subst hij
    obtain rfl := Option.some.inj (hx.symm.trans hy)
    exact ⟨_, hgood.sound, fun r hr => hr, fun r hr => hr⟩
  · cases hwriting : x.work.conn.writing with
    | false =>
        refine ⟨_, hgood'.sound, ?_, fun r hr => hr⟩
        rw [Workspace.view_eq_committed hwriting, database_of_scope? hx, ← database_of_scope? hy]
        exact hgood'.nodes
    | true =>
        have hidle := hs.others_idle hx hwriting hy (Ne.symm hij)
        refine ⟨_, hgood.sound, fun r hr => hr, ?_⟩
        rw [Workspace.view_eq_committed hidle, database_of_scope? hy, ← database_of_scope? hx]
        exact hgood.nodes

variable {config : Config} {tables : Tables} {registryFile : RegistryFile} {labelStart : String}

/-- Resources have one identity. Every URI and every blank node has at most one committed row;
committed rows of nodes stay as they are; and transactions that are open or have committed were
answered with the same id exactly when they had created the same resource. -/
theorem resources_identified (hsound : tables.Sound)
    (h : (opened config tables registryFile labelStart).Moved log s) :
    s.database.committed.NamedOnce ∧
      (∀ log' s', s.Moved log' s' →
        ∀ r ∈ s.database.committed.nodes, r ∈ s'.database.committed.nodes) ∧
      ∀ i j term term' id id', term.isResource = true → term'.isResource = true →
        Turn.Created log i term id → Turn.Created log j term' id' →
        s.Stands log i → s.Stands log j →
          (id = id' ↔ term = term') := by
  have hopened := good_opened config hsound registryFile labelStart
  have hs := hopened.moved h
  have hn := hopened.names h
  refine ⟨hs.sound.namedOnce, fun log' s' h' => hs.nodes_moved h', ?_⟩
  intro i j term term' id id' hterm hterm' hcreated hcreated' hstands hstands'
  obtain ⟨x, hx, hholds⟩ := hn.sees hs hcreated hstands
  obtain ⟨y, hy, hholds'⟩ := hn.sees hs hcreated' hstands'
  obtain ⟨t, ht, hnodes, hnodes'⟩ := hs.common_view hx hy
  exact ht.id_eq_iff hterm hterm' (hholds.mono hnodes) (hholds'.mono hnodes')

/-- A transaction that has not found a URI stores it after another one has
stored it and committed. -/
theorem resources_identified_interrupted :
    ∃ log s, (opened {} {} [] "w").Moved log s ∧ Turn.Created log 1 (.uri "urn:a") 1 ∧
      Turn.HasCommitted log 1 ∧ (∃ id, Turn.Created log 0 (.uri "urn:a") id) ∧
      ∀ id, Turn.Created log 0 (.uri "urn:a") id → id = 1 := by
  have hrun := Run.nil (s := opened {} {} [] "w") |>.snoc .begin |>.snoc .begin
    |>.call 1 (.uri "urn:a") |>.call 1 (.commit none)
  have hmoved := (Moved.of_run hrun).snoc (.store (i := 0) (n := .uri "urn:a") rfl rfl)
  obtain ⟨-, -, hsame⟩ := resources_identified Tables.sound_empty hmoved
  refine ⟨_, _, hmoved, ⟨_, .tail _ (.tail _ (.head _)), rfl⟩,
    ⟨_, .tail _ (.tail _ (.tail _ (.head _))), rfl⟩,
    ⟨1, _, .tail _ (.tail _ (.tail _ (.tail _ (.head _)))), rfl⟩, fun id hid => ?_⟩
  exact (hsame 0 1 (.uri "urn:a") (.uri "urn:a") id 1 rfl rfl hid
    ⟨_, .tail _ (.tail _ (.head _)), rfl⟩ (.inl ⟨_, rfl, rfl⟩)
    (.inr ⟨_, .tail _ (.tail _ (.tail _ (.head _))), rfl⟩)).mpr rfl

end OpenStore
end QuadStore
