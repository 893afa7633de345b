import Mathlib.Data.Finset.Card
import Mathlib.Logic.Relation
import Mathlib.Order.WellFounded
import QuadStore.Proofs.RepeatedReading
import QuadStore.Table.Insert

/-!
Rows that can only be read after the rows of their datatypes. Main statement: whatever the table
of nodes holds, reading a node ends unless the datatypes lead on for ever, and then it does not
end however long they are followed.
-/

namespace QuadStore

/-- Whether a row can only be read after another one: it is one of a literal, and its datatype is
the other one and in no cache. -/
structure Workspace.NeedsFirst (w : Workspace) (r r' : NodeRow) : Prop where
  offset : r.checkOffset = .ok ()
  literal : ∃ kind, r.readKind = .ok kind ∧ kind.isLiteral = true
  datatype : ∃ id, r.datatype = some id ∧ w.cachedNode? id = none ∧ w.view.nodeById? id = some r'

/-- Whether the row with the given id can only be read after another row, that one after a
third, and so on for ever. -/
def Workspace.LeadsOn (w : Workspace) (id : Int) : Prop :=
  ∃ rows : Nat → NodeRow, w.view.nodeById? id = some (rows 0) ∧
    ∀ n, w.NeedsFirst (rows n) (rows (n + 1))

/-- Whether an operation has answered or has found a fault in the tables. -/
def Returns (x : EStateM.Result StoreError Workspace α) : Prop :=
  (∃ v w, x = .ok v w) ∨ ∃ fault w, x = .error (.data fault) w

variable {w w' : Workspace} {r r' : NodeRow} {fuel : Nat}

theorem not_returns_endless :
    ¬Returns (.error .endless w : EStateM.Result StoreError Workspace α) := by
  rintro (⟨_, _, h⟩ | ⟨_, _, h⟩) <;> cases h

namespace Workspace

theorem NeedsFirst.unique {r₁ r₂ : NodeRow} (h₁ : w.NeedsFirst r r₁)
    (h₂ : w.NeedsFirst r r₂) : r₁ = r₂ := by
  obtain ⟨id, hid, -, hr₁⟩ := h₁.datatype
  obtain ⟨id', hid', -, hr₂⟩ := h₂.datatype
  obtain rfl := Option.some.inj (hid.symm.trans hid')
  exact Option.some.inj (hr₁.symm.trans hr₂)

theorem NeedsFirst.mem (h : w.NeedsFirst r r') : r' ∈ w.view.nodes := by
  obtain ⟨_, -, -, hr'⟩ := h.datatype
  exact List.mem_of_find?_eq_some hr'

theorem transGen_of_chain {rows : Nat → NodeRow} {length : Nat}
    (h : ∀ n < length, w.NeedsFirst (rows n) (rows (n + 1))) {i j : Nat}
    (hij : i < j) (hj : j ≤ length) :
    Relation.TransGen w.NeedsFirst (rows i) (rows j) := by
  induction j, hij using Nat.le_induction with
  | base => exact .single (h i hj)
  | succ j _ ih => exact (ih (Nat.le_of_succ_le hj)).tail (h j hj)

theorem not_acc_of_chain {rows : Nat → NodeRow} {length : Nat}
    (h : ∀ n < length, w.NeedsFirst (rows n) (rows (n + 1)))
    (hlength : w.view.nodes.length < length) :
    ¬Acc (Function.swap w.NeedsFirst) (rows 0) := by
  intro hacc
  have hacc' : ∀ n ≤ length, Acc (Function.swap w.NeedsFirst) (rows n) := by
    intro n
    induction n with
    | zero => exact fun _ => hacc
    | succ n ih => exact fun hn => (ih (Nat.le_of_succ_le hn)).inv (h n hn)
  have hmaps : Set.MapsTo (fun n => rows (n + 1)) (Finset.range length)
      w.view.nodes.toFinset := by
    intro n hn
    simpa using (h n (by simpa using hn)).mem
  have hcard : w.view.nodes.toFinset.card < (Finset.range length).card := by
    rw [Finset.card_range]
    exact (List.toFinset_card_le _).trans_lt hlength
  obtain ⟨i, hi, j, hj, hne, heq⟩ := Finset.exists_ne_map_eq_of_card_lt_of_maps_to hcard hmaps
  rw [Finset.mem_range] at hi hj
  -- a row that is read before itself is not accessible
  have hself : ∀ k < length, ¬Relation.TransGen w.NeedsFirst (rows (k + 1)) (rows (k + 1)) := by
    intro k hk hcycle
    have hirrefl : ∀ x, Acc (Relation.TransGen (Function.swap w.NeedsFirst)) x →
        ¬Relation.TransGen (Function.swap w.NeedsFirst) x x :=
      fun x hx => hx.rec fun x _ ih hxx => ih x hxx hxx
    exact hirrefl _ (hacc' _ hk).transGen (Relation.transGen_swap.mpr hcycle)
  rcases Nat.lt_or_gt_of_ne hne with hlt | hlt
  · refine hself i hi ?_
    have hpath := transGen_of_chain h (Nat.succ_lt_succ hlt) hj
    rwa [← heq] at hpath
  · refine hself j hj ?_
    have hpath := transGen_of_chain h (Nat.succ_lt_succ hlt) hi
    rwa [heq] at hpath

end Workspace

theorem Returns.bind {a : Action α} {f : α → Action β} (ha : Returns (a w))
    (hf : ∀ v w', Returns (f v w')) : Returns ((a >>= f) w) := by
  rcases ha with ⟨v, w', h⟩ | ⟨fault, w', h⟩
  · rw [bind_of_ok h]
    exact hf v w'
  · rw [bind_of_error h]
    exact .inr ⟨fault, w', rfl⟩

theorem returns_bind_iff {a : Action α} {f : α → Action β} (hf : ∀ v w', Returns (f v w')) :
    Returns ((a >>= f) w) ↔ Returns (a w) := by
  refine ⟨fun h => ?_, fun h => h.bind hf⟩
  cases ha : a w with
  | ok v w' => exact .inl ⟨v, w', rfl⟩
  | error e w' =>
      rw [bind_of_error ha] at h
      rcases h with ⟨_, _, h⟩ | ⟨fault, w', h⟩
      · cases h
      · cases h
        exact .inr ⟨fault, w', rfl⟩

namespace Action

theorem returns_pure (v : α) (w : Workspace) : Returns ((pure v : Action α) w) :=
  .inl ⟨v, w, rfl⟩

theorem returns_ofData (x : Except DataFault α) (w : Workspace) : Returns (ofData x w) := by
  cases x with
  | ok v => exact .inl ⟨v, w, rfl⟩
  | error fault => exact .inr ⟨fault, w, rfl⟩

theorem returns_cacheNode (n : Node) (w : Workspace) : Returns (cacheNode n w) := by
  obtain ⟨w', h⟩ := cacheNode_eq_ok n w
  exact .inl ⟨(), w', h⟩

/-- The datatype that a search has ended with. -/
def foundDatatype (r : NodeRow) (id : Int) : Option Node → Action (Option UriResource)
  | some ⟨datatype, .uri uri⟩ => pure (some ⟨datatype, uri⟩)
  | _ => throw (.data (.danglingDatatype r.id id))

/-- What is left to do for a row when the search for its datatype has ended. -/
def finishRow (r : NodeRow) (kind : NodeKind) (id : Int) (found : Option Node) : Action Node := do
  ofData (r.toNode kind (← foundDatatype r id found))

theorem returns_finishRow (r : NodeRow) (kind : NodeKind) (id : Int) (found : Option Node)
    (w : Workspace) : Returns (finishRow r kind id found w) := by
  refine Returns.bind ?_ fun datatype w' => returns_ofData _ w'
  unfold foundDatatype
  split
  · exact returns_pure _ w
  · exact .inr ⟨_, w, rfl⟩

/-- Whether a row is read on its own, so that the fuel makes no difference. -/
def ReadAlone (w : Workspace) (r : NodeRow) : Prop :=
  ∃ x, Returns x ∧ (∀ r', ¬w.NeedsFirst r r') ∧ ∀ fuel, decodeRow (fuel + 1) r w = x

/-- Whether a row is read after another one, with what is left of the fuel. -/
def ReadAfter (w : Workspace) (r r' : NodeRow) : Prop :=
  w.NeedsFirst r r' ∧ ∃ rest : Node → Action Node, (∀ n w', Returns (rest n w')) ∧
    ∀ fuel, decodeRow (fuel + 1) r w = (decodeRow fuel r' >>= rest) w

theorem readAlone_of_offset {fault : DataFault} (h : r.checkOffset = .error fault) :
    ReadAlone w r := by
  refine ⟨.error (.data fault) w, .inr ⟨fault, w, rfl⟩, fun r' hfirst => ?_, fun fuel => ?_⟩
  · cases h.symm.trans hfirst.offset
  · rw [decodeRow, h]
    rfl

theorem readAlone_of_kind {fault : DataFault} (hoffset : r.checkOffset = .ok ())
    (h : r.readKind = .error fault) : ReadAlone w r := by
  refine ⟨.error (.data fault) w, .inr ⟨fault, w, rfl⟩, fun r' hfirst => ?_, fun fuel => ?_⟩
  · obtain ⟨kind, hkind, -⟩ := hfirst.literal
    cases h.symm.trans hkind
  · rw [decodeRow, hoffset, h]
    rfl

section

variable {kind : NodeKind} {id : Int} (hoffset : r.checkOffset = .ok ())
  (hkind : r.readKind = .ok kind)

include hoffset hkind

theorem decodeRow_of_kind (fuel : Nat) : decodeRow (fuel + 1) r w =
    (rowDatatype (decodeRow fuel) r kind >>= fun datatype =>
      ofData (r.toNode kind datatype)) w := by
  rw [decodeRow, hoffset, hkind]
  rfl

theorem readAlone_of_unsought (h : kind.isLiteral = true → r.datatype = none) :
    ReadAlone w r := by
  have hnone : ∀ fuel, rowDatatype (decodeRow fuel) r kind = pure none := by
    intro fuel
    unfold rowDatatype
    cases hid : r.datatype with
    | none => rfl
    | some id =>
        have hother : ¬kind.isLiteral = true :=
          fun hliteral => by cases hid.symm.trans (h hliteral)
        simp [hother]
  refine ⟨ofData (r.toNode kind none) w, returns_ofData _ w, fun r' hfirst => ?_, fun fuel => ?_⟩
  · obtain ⟨kind', hkind', hliteral⟩ := hfirst.literal
    obtain ⟨id, hid, -, -⟩ := hfirst.datatype
    obtain rfl := Except.ok.inj (hkind.symm.trans hkind')
    cases hid.symm.trans (h hliteral)
  · rw [decodeRow_of_kind hoffset hkind, hnone, pure_bind]

variable (hliteral : kind.isLiteral = true) (hid : r.datatype = some id)

include hliteral hid

theorem decodeRow_of_datatype (fuel : Nat) : decodeRow (fuel + 1) r w =
    (resolveWith (decodeRow fuel) id >>= finishRow r kind id) w := by
  rw [decodeRow_of_kind hoffset hkind, rowDatatype, hid]
  simp only [hliteral, if_true, bind_assoc]
  rfl

theorem readAlone_of_found {found : Option Node}
    (hfound : ∀ fuel, resolveWith (decodeRow fuel) id w = .ok found w)
    (h : w.cachedNode? id ≠ none ∨ w.view.nodeById? id = none) : ReadAlone w r := by
  refine ⟨finishRow r kind id found w, returns_finishRow r kind id found w, fun r' hfirst => ?_,
    fun fuel => ?_⟩
  · obtain ⟨id', hid', hcached, hrow⟩ := hfirst.datatype
    obtain rfl := Option.some.inj (hid.symm.trans hid')
    rcases h with hne | hnone
    · exact hne hcached
    · cases hnone.symm.trans hrow
  · rw [decodeRow_of_datatype hoffset hkind hliteral hid, bind_of_ok (hfound fuel)]

theorem readAfter_of_row (hcached : w.cachedNode? id = none)
    (hrow : w.view.nodeById? id = some r') :
    ReadAfter w r r' := by
  refine ⟨⟨hoffset, ⟨kind, hkind, hliteral⟩, id, hid, hcached, hrow⟩,
    fun n => (do cacheNode n; pure (some n)) >>= finishRow r kind id,
      fun n w' => ?_, fun fuel => ?_⟩
  · exact ((returns_cacheNode n w').bind fun _ w' => returns_pure _ w').bind
      (returns_finishRow r kind id)
  · rw [decodeRow_of_datatype hoffset hkind hliteral hid, ← bind_assoc]
    have hresolve : resolveWith (decodeRow fuel) id w = _ := resolveWith_row hcached hrow
    cases hfound : resolveWith (decodeRow fuel) id w with
    | ok found w' => rw [bind_of_ok hfound, bind_of_ok (hresolve.symm.trans hfound)]
    | error e w' => rw [bind_of_error hfound, bind_of_error (hresolve.symm.trans hfound)]

end

theorem decodeRow_cases (w : Workspace) (r : NodeRow) :
    ReadAlone w r ∨ ∃ r', ReadAfter w r r' := by
  cases hoffset : r.checkOffset with
  | error fault => exact .inl (readAlone_of_offset hoffset)
  | ok =>
  cases hkind : r.readKind with
  | error fault => exact .inl (readAlone_of_kind hoffset hkind)
  | ok kind =>
  cases hid : r.datatype with
  | none => exact .inl (readAlone_of_unsought hoffset hkind fun _ => hid)
  | some id =>
  cases hliteral : kind.isLiteral with
  | false =>
      exact .inl (readAlone_of_unsought hoffset hkind fun h => by cases hliteral.symm.trans h)
  | true =>
  cases hcached : w.cachedNode? id with
  | some n =>
      exact .inl (readAlone_of_found hoffset hkind hliteral hid
        (fun _ => resolveWith_cached hcached) (.inl (by simp [hcached])))
  | none =>
  cases hrow : w.view.nodeById? id with
  | none =>
      exact .inl (readAlone_of_found hoffset hkind hliteral hid
        (fun _ => resolveWith_missing hcached hrow) (.inr hrow))
  | some r' => exact .inr ⟨r', readAfter_of_row hoffset hkind hliteral hid hcached hrow⟩

theorem decodeRow_endless_of_chain {rows : Nat → NodeRow}
    (h : ∀ n, w.NeedsFirst (rows n) (rows (n + 1))) (fuel : Nat) :
    ∀ n, decodeRow fuel (rows n) w = .error .endless w := by
  -- Every row of the chain hands the question on to the next one, with less fuel.
  induction fuel with
  | zero => exact fun n => rfl
  | succ fuel ih =>
      intro n
      rcases decodeRow_cases w (rows n) with ⟨_, -, halone, -⟩ | ⟨r', hfirst, rest, -, hdecode⟩
      · exact absurd (h n) (halone _)
      · obtain rfl := hfirst.unique (h n)
        rw [hdecode, bind_of_error (ih (n + 1))]

theorem returns_or_chain (w : Workspace) (fuel : Nat) (r : NodeRow) :
    Returns (decodeRow fuel r w) ∨ ∃ rows : Nat → NodeRow, rows 0 = r ∧
      ∀ n < fuel, w.NeedsFirst (rows n) (rows (n + 1)) := by
  induction fuel generalizing r with
  | zero => exact .inr ⟨fun _ => r, rfl, fun n hn => absurd hn (Nat.not_lt_zero n)⟩
  | succ fuel ih =>
      rcases decodeRow_cases w r with ⟨x, hx, -, hdecode⟩ | ⟨r', hfirst, rest, hrest, hdecode⟩
      · exact .inl (by rwa [hdecode])
      · rw [hdecode]
        refine (ih r').imp (fun h => h.bind hrest) ?_
        rintro ⟨rows, rfl, hrows⟩
        refine ⟨fun n => n.casesOn r rows, rfl, fun n hn => ?_⟩
        cases n with
        | zero => exact hfirst
        | succ n => exact hrows n (Nat.lt_of_succ_lt_succ hn)

theorem decodeRow_succ (h : Returns (decodeRow fuel r w)) :
    decodeRow (fuel + 1) r w = decodeRow fuel r w := by
  induction fuel generalizing r with
  | zero => exact absurd h not_returns_endless
  | succ fuel ih =>
      rcases decodeRow_cases w r with ⟨x, -, -, hdecode⟩ | ⟨r', -, rest, hrest, hdecode⟩
      · rw [hdecode, hdecode]
      · rw [hdecode, returns_bind_iff hrest] at h
        have hmore := ih h
        rw [hdecode, hdecode]
        cases hn : decodeRow fuel r' w with
        | ok n w₁ => rw [bind_of_ok hn, bind_of_ok (hmore.trans hn)]
        | error e w₁ => rw [bind_of_error hn, bind_of_error (hmore.trans hn)]

theorem decodeRow_eq_nodeOfRow (h : Returns (nodeOfRow r w))
    (hfuel : w.view.nodes.length < fuel) :
    decodeRow fuel r w = nodeOfRow r w := by
  change Returns (decodeRow (w.view.nodes.length + 1) r w) at h
  change _ = decodeRow (w.view.nodes.length + 1) r w
  induction fuel, hfuel using Nat.le_induction with
  | base => rfl
  | succ fuel _ ih => rw [decodeRow_succ (by rwa [ih]), ih]

theorem returns_nodeOfRow_iff {id : Int} (hrow : w.view.nodeById? id = some r) :
    Returns (nodeOfRow r w) ↔ ¬w.LeadsOn id := by
  constructor
  · rintro h ⟨rows, hstart, hrows⟩
    obtain rfl := Option.some.inj (hrow.symm.trans hstart)
    refine not_returns_endless (w := w) (α := Node) ?_
    rwa [← decodeRow_endless_of_chain hrows (w.view.nodes.length + 1) 0]
  · intro hends
    refine (returns_or_chain w (w.view.nodes.length + 1) r).resolve_right ?_
    rintro ⟨rows, rfl, hrows⟩
    obtain ⟨rows', hstart, hrows'⟩ := not_acc_iff_exists_descending_chain.mp
      (Workspace.not_acc_of_chain hrows (Nat.lt_succ_self _))
    exact hends ⟨rows', by rw [hrow, hstart], hrows'⟩

theorem returns_loadNodeById_iff (id : Int) : Returns (loadNodeById id w) ↔ ¬w.LeadsOn id := by
  have hload : loadNodeById id w = nodeOfRow? (w.view.nodeById? id) w := rfl
  rw [hload]
  cases hrow : w.view.nodeById? id with
  | none =>
      refine ⟨fun _ => ?_, fun _ => returns_pure none w⟩
      rintro ⟨rows, hstart, -⟩
      cases hrow.symm.trans hstart
  | some r =>
      rw [← returns_nodeOfRow_iff hrow, nodeOfRow?,
        returns_bind_iff fun n w' => returns_pure _ w']

theorem returns_resolveNode_iff (id : Int) :
    Returns (resolveNode id w) ↔ w.cachedNode? id ≠ none ∨ ¬w.LeadsOn id := by
  unfold resolveNode
  cases hcached : w.cachedNode? id with
  | some n => simp [resolveWith_cached hcached, Returns]
  | none =>
      cases hrow : w.view.nodeById? id with
      | none =>
          rw [resolveWith_missing hcached hrow]
          refine ⟨fun _ => .inr ?_, fun _ => .inl ⟨none, w, rfl⟩⟩
          rintro ⟨rows, hstart, -⟩
          cases hrow.symm.trans hstart
      | some r =>
          have hrest : ∀ n w',
              Returns ((do cacheNode n; pure (some n) : Action (Option Node)) w') :=
            fun n w' => (returns_cacheNode n w').bind fun _ w' => returns_pure _ w'
          rw [resolveWith_row hcached hrow, returns_bind_iff hrest, returns_nodeOfRow_iff hrow]
          simp

/-- Whatever the table of nodes holds, loading a node by its id answers a node or none or
finds a fault in the tables, unless each row leads on to another one for ever; so does
looking it up in the cache first, where it may be found. Where rows lead on, none of them is
read to the end however many are followed; everywhere else following more of them than the
table has makes no difference. -/
theorem loading_returns_iff (w : Workspace) (id : Int) :
    (Returns (loadNodeById id w) ↔ ¬w.LeadsOn id) ∧
      (Returns (resolveNode id w) ↔ w.cachedNode? id ≠ none ∨ ¬w.LeadsOn id) ∧
      ∀ r, w.view.nodeById? id = some r →
        (w.LeadsOn id → ∀ fuel, decodeRow fuel r w = .error .endless w) ∧
        (¬w.LeadsOn id → ∀ fuel, w.view.nodes.length < fuel →
          decodeRow fuel r w = nodeOfRow r w) := by
  refine ⟨returns_loadNodeById_iff id, returns_resolveNode_iff id,
    fun r hrow => ⟨?_, fun hends fuel => ?_⟩⟩
  · rintro ⟨rows, hstart, hrows⟩ fuel
    obtain rfl := Option.some.inj (hrow.symm.trans hstart)
    exact decodeRow_endless_of_chain hrows fuel 0
  · exact decodeRow_eq_nodeOfRow ((returns_nodeOfRow_iff hrow).mpr hends)

/-- The row of a text that is its own datatype. -/
def selfTyped : NodeRow where
  id := 5
  kind := "string"
  lexical := "s"
  int := none
  double := none
  time := none
  offset := none
  boolean := none
  datatype := some 5
  language := none
  created := .text "2020-01-01T00:00:00Z"

/-- A connection to a database whose only row was inserted from outside. -/
def besideSelfTyped : Workspace :=
  ⟨{ committed := { nodes := [selfTyped] } }, [], .make {} {} "0", { transaction := 1 }⟩

/-- A row that is its own datatype can be inserted, and is never read to the end. -/
theorem loading_endless_selfTyped :
    ({} : Tables).insertCells "nodes" [.int 5, .text "string", .text "s",
      .null, .null, .null, .null, .null,
        .int 5, .null, .text "2020-01-01T00:00:00Z"] = .ok besideSelfTyped.view ∧
      ¬Returns (loadNodeById 5 besideSelfTyped) ∧ ¬Returns (resolveNode 5 besideSelfTyped) := by
  have hleads : besideSelfTyped.LeadsOn 5 :=
    ⟨fun _ => selfTyped, rfl, fun _ => ⟨rfl, ⟨.string, rfl, rfl⟩, 5, rfl, rfl, rfl⟩⟩
  refine ⟨rfl, ?_, ?_⟩
  · rw [returns_loadNodeById_iff]
    exact fun hends => hends hleads
  · rw [returns_resolveNode_iff]
    exact fun h => h.elim (fun hcached => hcached rfl) fun hends => hends hleads

end Action
end QuadStore
