import QuadStore.Proofs.FaithfulCaches
import QuadStore.Proofs.KnownNodes
import QuadStore.Proofs.RecordedTables

namespace QuadStore

variable {V : LiteralValue → Prop} {w w' w'' : Workspace}

namespace Workspace

/-- Whether all rows were written for nodes that may be written, and every node that is cached or
awaits that is identified by a row. -/
structure Recorded (V : LiteralValue → Prop) (w : Workspace) : Prop where
  committed : w.database.committed.Recorded V
  view : w.view.Recorded V
  caches : w.store.caches.All w.database.committed.Identifies fun _ => True
  fresh : ∀ n ∈ w.conn.freshNodes, w.view.Identifies n

theorem Recorded.identifies_of_committed [LiteralValue.Lasting V]
    (h : w.Recorded V) (hgood : w.Good)
    {n : Node} (hn : w.database.committed.Identifies n) : w.view.Identifies n :=
  h.committed.identifies_mono hn hgood.nodes hgood.sound

end Workspace

/-- What is left of a workspace whose rows were written for nodes. -/
structure Kept (V : LiteralValue → Prop) (w w' : Workspace) : Prop where
  works : Works w w'
  good : w'.Good
  recorded : w'.Recorded V

/-- Whether rows go on being written for nodes. -/
def Recording (V : LiteralValue → Prop) (w w' : Workspace) : Prop :=
  w.Good → w.Recorded V → Kept V w w'

namespace Kept

theorem refl (hgood : w.Good) (h : w.Recorded V) : Kept V w w :=
  ⟨Std.Refl.refl w, hgood, h⟩

theorem trans (h : Kept V w w') (h' : Kept V w' w'') : Kept V w w'' :=
  ⟨IsTrans.trans _ _ _ h.works h'.works, h'.good, h'.recorded⟩

/-- A node stays identified. -/
theorem identifies [LiteralValue.Lasting V] (h : Kept V w w') (hw : w.Recorded V) {n : Node}
    (hn : w.view.Identifies n) : w'.view.Identifies n :=
  hw.view.identifies_mono hn h.works.nodes h.good.sound

end Kept

instance : IsPreorder Workspace (Recording V) where
  refl _ := Kept.refl
  trans _ _ _ h h' hgood hw := by
    have hkept := h hgood hw
    exact hkept.trans (h' hkept.good hkept.recorded)

/-- What operations leave that have to do with no nodes. -/
structure LeavesNodes (w w' : Workspace) : Prop where
  committed : w'.database.committed.nodes = w.database.committed.nodes
  view : w'.view.nodes = w.view.nodes
  caches : ∀ P : Node → Prop, w.store.caches.All P (fun _ => True) →
    w'.store.caches.All P fun _ => True
  fresh : w'.conn.freshNodes = w.conn.freshNodes

instance : IsPreorder Workspace LeavesNodes where
  refl _ := ⟨rfl, rfl, fun _ h => h, rfl⟩
  trans _ _ _ h h' := ⟨h'.committed.trans h.committed, h'.view.trans h.view,
    fun P hw => h'.caches P (h.caches P hw), h'.fresh.trans h.fresh⟩

theorem Workspace.Recorded.leave (h : w.Recorded V) (hleaves : LeavesNodes w w') :
    w'.Recorded V := by
  refine ⟨h.committed.of_eq hleaves.committed, h.view.of_eq hleaves.view, ?_, ?_⟩
  · exact (hleaves.caches _ h.caches).imp (fun n hn => hn.of_eq hleaves.committed) fun _ hs => hs
  · rw [hleaves.fresh]
    exact fun n hn => (h.fresh n hn).of_eq hleaves.view

theorem LeavesNodes.recording (hleaves : LeavesNodes w w')
    (hworks : Works w w') : Recording V w w' :=
  fun hgood hw => ⟨hworks, hworks.good hgood, hw.leave hleaves⟩

theorem Keeps.recording {α : Type} {a : Action α} (hworks : Keeps Works a)
    (hleaves : Keeps LeavesNodes a) :
    Keeps (Recording V) a :=
  fun w => (hleaves w).recording (hworks w)

/-! How operations end -/

/-- How an operation ends that is begun in some workspace: rows go on being written for nodes, and
an answer satisfies a condition. -/
inductive Ends {α : Type} (V : LiteralValue → Prop) (w : Workspace) (Q : α → Workspace → Prop) :
    EStateM.Result StoreError Workspace α → Prop
  | ok {v : α} {w' : Workspace} (hkept : Kept V w w') (hanswer : Q v w') : Ends V w Q (.ok v w')
  | error {e : StoreError} {w' : Workspace} (hkept : Kept V w w') : Ends V w Q (.error e w')

namespace Ends

variable {α β : Type} {Q Q' : α → Workspace → Prop} {x : EStateM.Result StoreError Workspace α}

theorem kept (h : Ends V w Q x) : Kept V w (finalState x) := by
  cases h with
  | ok hkept _ | error hkept => exact hkept

theorem imp (h : Ends V w Q x) (hQ : ∀ v w', Kept V w w' → Q v w' → Q' v w') : Ends V w Q' x := by
  cases h with
  | ok hkept hanswer => exact .ok hkept (hQ _ _ hkept hanswer)
  | error hkept => exact .error hkept

theorem of_ok {a : Action α} {v : α} (h : Ends V w Q (a w)) (hop : a w = .ok v w') :
    Kept V w w' ∧ Q v w' := by
  rw [hop] at h
  cases h with
  | ok hkept hanswer => exact ⟨hkept, hanswer⟩

theorem imp_of {a : Action α} (h : Ends V w Q (a w))
    (hQ : ∀ v w', a w = .ok v w' → Kept V w w' → Q v w' → Q' v w') : Ends V w Q' (a w) := by
  cases hop : a w with
  | ok v w' =>
      obtain ⟨hkept, hanswer⟩ := h.of_ok hop
      exact .ok hkept (hQ v w' hop hkept hanswer)
  | error e w' =>
      rw [hop] at h
      exact .error h.kept

theorem pure {v : α} (hgood : w.Good) (hw : w.Recorded V) (h : Q v w) :
    Ends V w Q ((Pure.pure v : Action α) w) :=
  .ok (.refl hgood hw) h

theorem throw {e : StoreError} (hgood : w.Good) (hw : w.Recorded V) :
    Ends V w Q ((MonadExcept.throw e : Action α) w) :=
  .error (.refl hgood hw)

theorem of_keeps {a : Action α} (h : Keeps (Recording V) a) (hgood : w.Good) (hw : w.Recorded V)
    (hQ : ∀ v w', a w = .ok v w' → Q v w') : Ends V w Q (a w) := by
  have hkept := h w hgood hw
  cases ha : a w with
  | ok v w' =>
      rw [ha] at hkept
      exact .ok hkept (hQ v w' ha)
  | error e w' =>
      rw [ha] at hkept
      exact .error hkept

theorem bind {a : Action α} {f : α → Action β} {P : β → Workspace → Prop} (h : Ends V w Q (a w))
    (hf : ∀ v w', Kept V w w' → Q v w' → Ends V w' P (f v w')) : Ends V w P ((a >>= f) w) := by
  cases ha : a w with
  | ok v w' =>
      rw [ha] at h
      cases h with
      | ok hkept hanswer =>
          rw [bind_of_ok ha]
          have hrest := hf v w' hkept hanswer
          cases hlast : f v w' with
          | ok u w'' =>
              rw [hlast] at hrest
              cases hrest with
              | ok hkept' hanswer' => exact .ok (hkept.trans hkept') hanswer'
          | error e w'' =>
              rw [hlast] at hrest
              cases hrest with
              | error hkept' => exact .error (hkept.trans hkept')
  | error e w' =>
      rw [ha] at h
      cases h with
      | error hkept =>
          rw [bind_of_error ha]
          exact .error hkept

theorem ofData {f : Except DataFault α} (hgood : w.Good) (hw : w.Recorded V)
    (hQ : ∀ v, f = .ok v → Q v w) : Ends V w Q (Action.ofData f w) := by
  cases f with
  | ok v => exact .ok (.refl hgood hw) (hQ v rfl)
  | error fault => exact .error (.refl hgood hw)

end Ends

namespace Action

variable [LiteralValue.Lasting V] {n m : Node} {r : NodeRow}

/-! Reading nodes -/

omit [LiteralValue.Lasting V] in
theorem cacheNode_ends (hgood : w.Good) (h : w.Recorded V) (hn : w.view.Identifies n) :
    Ends V w (fun _ w' => w'.view = w.view) (cacheNode n w) := by
  have hworks := (cacheNode_reads (w := w) fun _ => hn.holdsNode).silent.toWorks
  revert hworks
  simp only [cacheNode]
  split
  · rw [bind_of_ok (a := (get : Action Workspace)) (s := w) rfl]
    split
    · refine fun hworks => .ok ⟨hworks, hworks.good hgood, h.committed, h.view, h.caches, ?_⟩ rfl
      intro m hm
      rcases List.mem_append.mp hm with hm | hm
      · exact h.fresh m hm
      · rwa [List.mem_singleton.mp hm]
    · rename_i hidle
      refine fun hworks => .ok
        ⟨hworks, hworks.good hgood, h.committed, h.view, h.caches.addNode ?_, h.fresh⟩ rfl
      rwa [← Workspace.view_eq_committed (by simpa using hidle)]
  · exact fun _ => .ok (.refl hgood h) rfl

section

variable {decode : NodeRow → Action Node}
  (hdecode : ∀ {w r}, w.Good → w.Recorded V → r ∈ w.view.nodes →
  Ends V w (fun n w' => w'.view.Identifies n ∧ n.id = r.id) (decode r w))

include hdecode

theorem resolveWith_ends (hgood : w.Good) (h : w.Recorded V) (id : Int) :
    Ends V w (fun found w' => ∀ n, found = some n → w'.view.Identifies n ∧ n.id = id)
      (resolveWith decode id w) := by
  unfold resolveWith
  rw [bind_of_ok (a := (get : Action Workspace)) (s := w) rfl]
  cases hcached : w.store.caches.node.get? id with
  | some m =>
      refine .pure hgood h ?_
      rintro n ⟨⟩
      exact ⟨h.identifies_of_committed hgood (h.caches.node id m hcached),
        (hgood.coherent.caches.node id m hcached).1⟩
  | none =>
      dsimp only
      rw [bind_of_ok (view_eq_ok_iff.mpr ⟨rfl, rfl⟩)]
      cases hfind : w.view.nodeById? id with
      | none => exact .pure hgood h (by rintro n ⟨⟩)
      | some r =>
          have hid : r.id = id := by simpa using List.find?_some hfind
          refine (hdecode hgood h (List.mem_of_find?_eq_some hfind)).bind fun n w₁ hkept hn => ?_
          refine (cacheNode_ends hkept.good hkept.recorded hn.1).bind fun _ w₂ hkept' hview => ?_
          refine .pure hkept'.good hkept'.recorded ?_
          rintro n ⟨⟩
          exact ⟨hview ▸ hn.1, hn.2.trans hid⟩

theorem rowDatatype_ends (hgood : w.Good) (h : w.Recorded V) (r : NodeRow) (kind : NodeKind) :
    Ends V w (fun datatype w' => kind.isLiteral = true → ∀ id, r.datatype = some id →
      ∃ uri, datatype = some ⟨id, uri⟩ ∧ w'.view.HoldsNode ⟨id, .uri uri⟩)
      (rowDatatype decode r kind w) := by
  unfold rowDatatype
  cases hcolumn : r.datatype with
  | none => exact .pure hgood h (by rintro - id ⟨⟩)
  | some id =>
      dsimp only
      split
      · refine (resolveWith_ends hdecode hgood h id).bind fun found w₁ hkept hfound => ?_
        split
        · refine .pure hkept.good hkept.recorded ?_
          rintro - _ ⟨⟩
          obtain ⟨hn, rfl⟩ := hfound _ rfl
          exact ⟨_, rfl, hn.holdsNode⟩
        · exact .throw hkept.good hkept.recorded
      · rename_i hresource
        exact .pure hgood h fun hliteral => absurd hliteral hresource

end

theorem decodeRow_ends (fuel : Nat) (hgood : w.Good) (h : w.Recorded V) (hr : r ∈ w.view.nodes) :
    Ends V w (fun n w' => w'.view.Identifies n ∧ n.id = r.id) (decodeRow fuel r w) := by
  induction fuel generalizing w r with
  | zero => exact .throw hgood h
  | succ fuel ih =>
      unfold decodeRow
      refine Ends.bind (Q := fun _ w' => w' = w) (.ofData hgood h fun _ _ => rfl) ?_
      intro _ w' _ hsame
      subst hsame
      refine Ends.bind (Q := fun kind w => r.readKind = .ok kind ∧ w = w')
        (.ofData hgood h fun _ hkind => ⟨hkind, rfl⟩) ?_
      rintro kind _ - ⟨hkind, rfl⟩
      refine (rowDatatype_ends ih hgood h r kind).bind fun datatype w₁ hkept hdatatype => ?_
      refine .ofData hkept.good hkept.recorded fun n hn => ?_
      have hnode := hkept.recorded.view.identifies_of_toNode hkept.good.sound
        (hkept.works.nodes r hr) hkind hdatatype hn
      exact ⟨hnode, (NodeRow.toNode_eq_ok_iff.mp hn).2.2⟩

theorem nodeOfRow_ends (hgood : w.Good) (h : w.Recorded V) (hr : r ∈ w.view.nodes) :
    Ends V w (fun n w' => w'.view.Identifies n ∧ n.id = r.id) (nodeOfRow r w) := by
  unfold nodeOfRow
  rw [bind_of_ok (view_eq_ok_iff.mpr ⟨rfl, rfl⟩)]
  exact decodeRow_ends _ hgood h hr

theorem resolveNode_ends (hgood : w.Good) (h : w.Recorded V) (id : Int) :
    Ends V w (fun found w' => ∀ n, found = some n → w'.view.Identifies n ∧ n.id = id)
      (resolveNode id w) :=
  resolveWith_ends nodeOfRow_ends hgood h id

theorem loadNode_ends (hgood : w.Good) (h : w.Recorded V) (n : Node) :
    Ends V w (fun found w' => ∀ m, found = some m →
      w'.view.Identifies m ∧ ∃ r, w.view.rowOf? n = some r ∧ m.id = r.id) (loadNode n w) := by
  rw [loadNode_eq_rowOf?]
  cases hrow : w.view.rowOf? n with
  | none => exact .pure hgood h (by rintro m ⟨⟩)
  | some r =>
      refine (nodeOfRow_ends hgood h (Tables.rowOf?_eq_some hrow).1).bind fun m w₁ hkept hm => ?_
      refine .pure hkept.good hkept.recorded ?_
      rintro _ ⟨⟩
      exact ⟨hm.1, r, rfl, hm.2⟩

instance : AllowsNodes (Recording V) where
  resolveNode id _ hgood h := (resolveNode_ends hgood h id).kept
  loadNode n _ hgood h := (loadNode_ends hgood h n).kept

/-! Storing nodes -/

omit [LiteralValue.Lasting V] in
theorem beginWrite_leaves : Keeps LeavesNodes beginWrite := by
  intro w
  unfold beginWrite
  rw [bind_of_ok (a := (get : Action Workspace)) (s := w) rfl]
  dsimp only
  split
  · rename_i hidle
    split
    · exact refl w
    · refine ⟨rfl, ?_, fun _ h => h, rfl⟩
      rw [Workspace.view_eq_committed (w := w) (by simpa using hidle)]
      rfl
  · exact refl w

theorem nextId_leaves (s : Sequence) : Keeps LeavesNodes (nextId s) :=
  fun _ => ⟨rfl, rfl, fun _ h => h, rfl⟩

theorem freshLabel_leaves : Keeps LeavesNodes freshLabel :=
  fun _ => ⟨rfl, rfl, fun _ h => h, rfl⟩

theorem setTables_ends (hgood : w.Good) (h : w.Recorded V)
    (hwriting : w.conn.writing = true) {id : Int}
    (hfits : w.view.Fits V n) {t : Tables}
    (hinsert : w.view.insertNode? (.ofNode id n) = some t) :
    Ends V w (fun _ w' => w'.conn.writing = true ∧
      w'.view.Identifies (n.withId id)) (setTables t w) := by
  obtain ⟨htables, -⟩ := Tables.insertNode?_eq_some hinsert
  have hadded : t.nodes = w.view.nodes ++ [.ofNode id n] := by rw [htables]
  have hnodes : ∀ r ∈ w.view.nodes, r ∈ t.nodes := fun r hr => hadded ▸ List.mem_append_left _ hr
  have hworks := (setTables_silent hwriting hnodes (by rw [htables]) (by rw [htables])
    fun hsound => hsound.insertNode hinsert).toWorks
  have hgood' := hworks.good hgood
  refine .ok ⟨hworks, hgood', h.committed,
    h.view.insertNode hfits hinsert, h.caches, ?_⟩ ⟨rfl, ?_⟩
  · exact fun m hm => h.view.identifies_mono (h.fresh m hm) hnodes hgood'.sound
  · have hr : NodeRow.ofNode id n ∈ t.nodes := by simp [hadded]
    exact Tables.identifies_of_records hgood'.sound hr (NodeRow.records_ofNode id n)
      (Tables.Fits.mono (n := n.withId id) hfits hnodes)

omit [LiteralValue.Lasting V] in
theorem keepNode_ends (hgood : w.Good) (h : w.Recorded V) (hwriting : w.conn.writing = true)
    (hn : w.view.Identifies n) :
    Ends V w (fun _ w' => w'.view = w.view)
      (modifyConn (fun c => { c with freshNodes := c.freshNodes ++ [n] }) w) := by
  have hworks := (keepNode_silent hwriting hn.holdsNode).toWorks
  refine .ok ⟨hworks, hworks.good hgood, h.committed, h.view, h.caches, fun m hm => ?_⟩ rfl
  rcases List.mem_append.mp hm with hm | hm
  · exact h.fresh m hm
  · rwa [List.mem_singleton.mp hm]

/-- Whether a node is identified and has the key of the one that was asked for. -/
def IdentifiedAs (n m : Node) (w : Workspace) : Prop :=
  w.view.Identifies m ∧ m.key = n.key

theorem identifiedAs_of_loadNode (hgood : w.Good) (h : w.Recorded V) (hfits : w.view.Fits V n)
    (hkept : Kept V w w') (hm : w'.view.Identifies m) {r : NodeRow}
    (hrow : w.view.rowOf? n = some r) (hid : m.id = r.id) : IdentifiedAs n m w' := by
  have hn := hkept.identifies h (h.view.identifies_of_rowOf? hgood.sound hfits hrow)
  exact ⟨hm, (hkept.recorded.view.id_eq_iff hkept.good.sound hm hn).mp hid⟩

theorem storeNode_ends (hgood : w.Good) (h : w.Recorded V) (hnew : n.isPersisted = false)
    (hfits : w.view.Fits V n) : Ends V w (IdentifiedAs n) (storeNode n w) := by
  unfold storeNode
  rw [if_neg (by simp [hnew])]
  have hcheck : Keeps (Recording V) (checkDatatype n) := by
    unfold checkDatatype
    split
    · exact .ite (.throw _) (.pure _)
    · exact .pure _
  refine (Ends.of_keeps hcheck hgood h fun _ _ _ => trivial).bind fun _ w₁ h₁ _ => ?_
  have hbegin : Keeps (Recording V) beginWrite :=
    beginWrite_silent.quiet.works.recording beginWrite_leaves
  refine (Ends.of_keeps hbegin h₁.good h₁.recorded fun _ w' h' => (beginWrite_eq_ok h').1).bind ?_
  intro _ w₂ h₂ hwriting
  have hnext : Keeps (Recording V) (nextId .nodes) :=
    (nextId_silent .nodes (by simp) (by simp)).quiet.works.recording (nextId_leaves _)
  refine Ends.bind (Q :=
    fun _ w => w.conn.writing = true) (Ends.of_keeps hnext h₂.good h₂.recorded ?_) ?_
  · rintro id w' ⟨⟩
    exact hwriting
  intro id w₃ h₃ hwriting
  have h₀₃ := (h₁.trans h₂).trans h₃
  have hfits₃ : w₃.view.Fits V n := hfits.mono h₀₃.works.nodes
  rw [bind_of_ok (view_eq_ok_iff.mpr ⟨rfl, rfl⟩)]
  have keep : ∀ {m : Node} {w₄ : Workspace}, Kept V w₃ w₄ → w₄.conn.writing = true →
      IdentifiedAs n m w₄ → Ends V w₄ (IdentifiedAs n) ((do
        let stored ← (pure m : Action Node)
        modifyConn fun c => { c with freshNodes := c.freshNodes ++ [stored] }
        pure stored) w₄) := by
    intro m w₄ h₄ hwriting hm
    rw [bind_of_ok (a := (pure m : Action Node)) (s := w₄) rfl]
    refine (keepNode_ends h₄.good h₄.recorded hwriting hm.1).bind fun _ w₅ h₅ hview => ?_
    exact .pure h₅.good h₅.recorded ⟨hview ▸ hm.1, hm.2⟩
  cases hinsert : w₃.view.insertNode? (.ofNode id n) with
  | some t =>
      dsimp only
      refine (setTables_ends h₃.good h₃.recorded hwriting hfits₃ hinsert).bind
        fun _ w₄ h₄ hset => ?_
      exact keep h₄ hset.1 ⟨hset.2, rfl⟩
  | none =>
      dsimp only
      refine (loadNode_ends h₃.good h₃.recorded n).bind fun existing w₄ h₄ hfound => ?_
      cases existing with
      | none => exact .throw h₄.good h₄.recorded
      | some existing =>
          -- The node gets the id of the row that there is.
          obtain ⟨-, r, hrow, hid⟩ := hfound existing rfl
          refine keep h₄ (h₄.works.writing hwriting) ⟨?_, rfl⟩
          rw [hid]
          exact h₄.identifies h₃.recorded
            (h₃.recorded.view.identifies_of_rowOf? h₃.good.sound hfits₃ hrow)

theorem loadOrStore_ends (hgood : w.Good) (h : w.Recorded V) (hnew : n.isPersisted = false)
    (hfits : w.view.Fits V n) : Ends V w (IdentifiedAs n) (loadOrStore n w) := by
  refine (loadNode_ends hgood h n).bind fun found w₁ h₁ hfound => ?_
  cases found with
  | none => exact storeNode_ends h₁.good h₁.recorded hnew (hfits.mono h₁.works.nodes)
  | some m =>
      obtain ⟨hm, r, hrow, hid⟩ := hfound m rfl
      have hfound' := identifiedAs_of_loadNode hgood h hfits h₁ hm hrow hid
      refine (cacheNode_ends h₁.good h₁.recorded hm).bind fun _ w₂ h₂ hview => ?_
      exact .pure h₂.good h₂.recorded ⟨hview ▸ hm, hfound'.2⟩

/-! Nodes by what they are -/

omit [LiteralValue.Lasting V] in
theorem fits_of_resource (w : Workspace) (hterm : ∀ l, n.term ≠ .literal l) : w.view.Fits V n :=
  fun l hl => absurd hl (hterm l)

theorem createUri_ends (hgood : w.Good) (h : w.Recorded V) (uri : String) :
    Ends V w (fun m w' => w'.view.Identifies m ∧ m.term = .uri uri) (createUri uri w) := by
  have hkept : Ends V w (fun m w' => w'.view.Identifies m) (createUri uri w) := by
    unfold createUri
    rw [bind_of_ok (a := (get : Action Workspace)) (s := w) rfl]
    cases hcached : w.store.caches.uri.get? uri with
    | some m => exact .pure hgood h (h.identifies_of_committed hgood (h.caches.uri uri m hcached))
    | none =>
        exact (loadOrStore_ends hgood h rfl (fits_of_resource w (by rintro l ⟨⟩))).imp
          fun _ _ _ hm => hm.1
  exact hkept.imp_of fun m w' hop _ hm => ⟨hm, (createUri_eq_ok hgood hop).1⟩

theorem createBlank_ends (hgood : w.Good) (h : w.Recorded V) (label : Option String) :
    Ends V w (fun m w' => w'.view.Identifies m) (createBlank label w) := by
  have load_blank : ∀ {w : Workspace}, w.Good → w.Recorded V → ∀ label : String,
      Ends V w (fun m w' => w'.view.Identifies m) (createBlank (some label) w) := by
    intro w hgood h label
    unfold createBlank
    dsimp only
    rw [bind_of_ok (a := (pure label : Action String)) (s := w) rfl,
      bind_of_ok (a := (get : Action Workspace)) (s := w) rfl]
    cases hcached : w.store.caches.blank.get? label with
    | some m =>
        exact .pure hgood h (h.identifies_of_committed hgood (h.caches.blank label m hcached))
    | none =>
        exact (loadOrStore_ends hgood h rfl (fits_of_resource w (by rintro l ⟨⟩))).imp
          fun _ _ _ hm => hm.1
  cases label with
  | some label => exact load_blank hgood h label
  | none =>
      have hlabel : Keeps (Recording V) freshLabel :=
        freshLabel_silent.quiet.works.recording freshLabel_leaves
      refine (Ends.of_keeps hlabel hgood h fun _ _ _ => trivial).bind fun label w₁ h₁ _ => ?_
      exact load_blank h₁.good h₁.recorded label

theorem createDatatype_ends (hgood : w.Good) (h : w.Recorded V) (uri : String) :
    Ends V w (fun d w' => w'.view.HoldsNode ⟨d.id, .uri d.uri⟩ ∧
      d.uri = uri) (createDatatype uri w) := by
  refine (createUri_ends hgood h uri).bind ?_
  rintro ⟨id, term⟩ w₁ h₁ ⟨hm, rfl⟩
  exact .pure h₁.good h₁.recorded ⟨hm.holdsNode, rfl⟩

/-- Whether a node is identified and has the key of a literal that was asked for,
unless that is no number. -/
def HasKey (value : LiteralValue) (datatype : String) (m : Node) (w : Workspace) : Prop :=
  w.view.Identifies m ∧ (value.isNaN = false → m.key = .literal (value.key datatype))

theorem resolveValue_ends (hgood : w.Good) (h : w.Recorded V)
    {value : LiteralValue} (hvalue : V value)
    {datatype : UriResource} (hheld : w.view.HoldsNode ⟨datatype.id, .uri datatype.uri⟩) :
    Ends V w (HasKey value datatype.uri) (resolveValue value datatype w) := by
  unfold resolveValue
  rw [bind_of_ok (a := (get : Action Workspace)) (s := w) rfl]
  cases hcached : w.store.caches.literal.get? (Literal.key ⟨value, some datatype⟩) with
  | some m =>
      refine .pure hgood h
        ⟨h.identifies_of_committed hgood (h.caches.literal _ m hcached), fun _ => ?_⟩
      obtain ⟨id, term⟩ := m
      have hkey := (hgood.coherent.caches.literal _ _ hcached).1
      cases term with
      | uri uri => cases hkey
      | blank label => cases hkey
      | literal l => exact congrArg NodeKey.literal (Option.some.inj hkey)
  | none =>
      have hfits : w.view.Fits V ⟨transientId, .literal ⟨value, some datatype⟩⟩ := by
        rintro l ⟨⟩
        exact ⟨hvalue, datatype, rfl, hheld⟩
      exact (loadOrStore_ends hgood h rfl hfits).imp fun m w' _ hm => ⟨hm.1, fun _ => hm.2⟩

theorem key_of_lowered (content : String) (language : Option String) (datatype : String) :
    (LiteralValue.string content (language.map Text.lowerCase)).key datatype =
      (LiteralValue.string content language).key datatype := by
  cases language <;>
    simp [LiteralValue.key, LiteralKey.make, LiteralValue.content, LiteralValue.language,
      Text.lowerCase_lowerCase]

theorem createString_ends (hgood : w.Good) (h : w.Recorded V) {content : String}
    {language : Option String} (hvalue : V (.string content (language.map Text.lowerCase))) :
    Ends V w (HasKey (.string content language)
      (LiteralValue.string content language).defaultDatatype)
      (createString content language w) := by
  refine (createDatatype_ends hgood h _).bind fun datatype w₁ h₁ hdatatype => ?_
  refine (resolveValue_ends h₁.good h₁.recorded hvalue hdatatype.1).imp
    fun m w₂ _ hm => ⟨hm.1, fun _ => ?_⟩
  rw [hm.2 rfl, key_of_lowered, hdatatype.2]

theorem lasting_text (content : String) : V (.string content none) :=
  LiteralValue.Lasting.text ⟨rfl, by simp⟩

theorem resolveLiteral_ends (hgood : w.Good) (h : w.Recorded V)
    {value : LiteralValue} (hvalue : V value)
    {datatype : UriResource} (hheld : w.view.HoldsNode ⟨datatype.id, .uri datatype.uri⟩) :
    Ends V w (HasKey value datatype.uri) (resolveLiteral value datatype w) := by
  unfold resolveLiteral
  split
  · split
    · rename_i x hnan
      refine (createString_ends hgood h (lasting_text _)).imp fun m w' _ hm =>
        ⟨hm.1, fun hnumber => ?_⟩
      cases hnan.symm.trans hnumber
    · exact resolveValue_ends hgood h hvalue hheld
  · exact resolveValue_ends hgood h hvalue hheld

theorem createLiteral_ends (hgood : w.Good) (h : w.Recorded V) {value : LiteralValue}
    (hvalue : V value.lowered) :
    Ends V w (HasKey value value.defaultDatatype) (createLiteral value w) := by
  have resolved (hsame : value.lowered = value) : Ends V w (HasKey value value.defaultDatatype)
      ((createDatatype value.defaultDatatype >>= resolveLiteral value) w) := by
    refine (createDatatype_ends hgood h _).bind fun datatype w₁ h₁ hdatatype => ?_
    refine (resolveLiteral_ends h₁.good h₁.recorded (hsame ▸ hvalue) hdatatype.1).imp
      fun m w₂ _ hm => ?_
    rwa [hdatatype.2] at hm
  cases value with
  | string content language => exact createString_ends hgood h hvalue
  | int | double | boolean | date => exact resolved rfl

theorem createTyped_ends (hgood : w.Good) (h : w.Recorded V) {content datatype : String}
    (hvalue : V (LiteralValue.ofText content datatype).1) :
    Ends V w (HasKey (LiteralValue.ofText content datatype).1
      (LiteralValue.ofText content datatype).2) (createTyped content datatype w) := by
  unfold createTyped
  revert hvalue
  unfold LiteralValue.ofText
  cases LiteralValue.read datatype content with
  | none => exact fun hvalue => createString_ends hgood h hvalue
  | some value =>
      intro hvalue
      refine (createDatatype_ends hgood h datatype).bind fun d w₁ h₁ hdatatype => ?_
      refine (resolveLiteral_ends h₁.good h₁.recorded hvalue hdatatype.1).imp fun m w₂ _ hm => ?_
      rwa [hdatatype.2] at hm

theorem convert_ends (hgood : w.Good) (h : w.Recorded V)
    (hvalue : ∀ value ∈ n.newValue?, V value) :
    Ends V w (fun m w' => (n.isPersisted = true → w.view.Identifies n) → w'.view.Identifies m ∧
      ∀ l, n.term = .literal l → l.value.isNaN = false →
      m.key = .literal (l.asked.1.key l.asked.2)) (convert n w) := by
  unfold convert
  cases hnew : n.isPersisted with
  | true =>
      rw [if_pos rfl]
      refine .pure hgood h fun hknown => ⟨hknown rfl, fun l hterm _ => ?_⟩
      rw [Node.key, hterm, ← h.view.key_eq_asked hgood.sound (hknown rfl) hterm]
  | false =>
      rw [if_neg (by simp)]
      obtain ⟨id, term⟩ := n
      cases term with
      | uri uri =>
          exact (createUri_ends hgood h uri).imp fun m w' _ hm _ => ⟨hm.1, by rintro l ⟨⟩⟩
      | blank label =>
          exact (createBlank_ends hgood h (some label)).imp fun m w' _ hm _ =>
            ⟨hm, by rintro l ⟨⟩⟩
      | literal l =>
          have hl : V l.value := hvalue _ (by simp [Node.newValue?, hnew, Node.literal?])
          refine (createDatatype_ends hgood h _).bind fun d w₁ h₁ hdatatype => ?_
          refine (resolveLiteral_ends h₁.good h₁.recorded hl hdatatype.1).imp
            fun m w₂ _ hm _ => ?_
          refine ⟨hm.1, ?_⟩
          rintro _ ⟨⟩ hnumber
          rw [hm.2 hnumber, hdatatype.2]
          rfl

end Action
end QuadStore
