import QuadStore.Proofs.StoredLiterals
import QuadStore.Proofs.TypedTables

namespace QuadStore

variable {W : LiteralValue → String → Prop} {w w' w'' : Workspace} {t t' : Tables}

/-! What is cached -/

/-- Whether all cached nodes satisfy a condition, and are kept under what tells them. -/
structure Caches.Lists (P : Node → Prop) (c : Caches) : Prop where
  node : ∀ id n, c.node.get? id = some n → n.id = id ∧ P n
  uri : ∀ uri n, c.uri.get? uri = some n → n.term = .uri uri ∧ P n
  blank : ∀ label n, c.blank.get? label = some n → n.term = .blank label ∧ P n
  literal : ∀ key n, c.literal.get? key = some n → n.literalKey? = some key ∧ P n

namespace Caches.Lists

variable {P Q : Node → Prop} {c c' : Caches} {n : Node}

theorem imp (h : c.Lists P) (hP : ∀ n, P n → Q n) : c.Lists Q :=
  ⟨fun id n hn => (h.node id n hn).imp_right (hP n),
    fun uri n hn => (h.uri uri n hn).imp_right (hP n),
    fun label n hn => (h.blank label n hn).imp_right (hP n),
    fun key n hn => (h.literal key n hn).imp_right (hP n)⟩

theorem of_eq (h : c.Lists P) (hnode : c'.node = c.node) (huri : c'.uri = c.uri)
    (hblank : c'.blank = c.blank) (hliteral : c'.literal = c.literal) : c'.Lists P :=
  ⟨hnode ▸ h.node, huri ▸ h.uri, hblank ▸ h.blank, hliteral ▸ h.literal⟩

theorem make (config : CacheConfig) : (Caches.make config).Lists P := by
  constructor <;> simp [Caches.make, Cache.make, Cache.get?]

theorem clear (c : Caches) : c.clear.Lists P := by
  constructor <;> simp [Caches.clear]

theorem of_partOf (h : c'.Lists P) (hpart : c.PartOf c') : c.Lists P :=
  ⟨fun id n hn => h.node id n (hpart.node.found id n hn),
    fun uri n hn => h.uri uri n (hpart.uri.found uri n hn),
    fun label n hn => h.blank label n (hpart.blank.found label n hn),
    fun key n hn => h.literal key n (hpart.literal.found key n hn)⟩

theorem addNode (h : c.Lists P) (hn : P n) : (c.addNode n).Lists P := by
  have hnode : ∀ id m, (c.node.put n.id n).get? id = some m → m.id = id ∧ P m :=
    Cache.forall_put h.node ⟨rfl, hn⟩
  unfold Caches.addNode
  split
  · exact h
  · dsimp only
    split
    · rename_i hterm
      exact ⟨hnode, Cache.forall_put h.uri ⟨hterm, hn⟩, h.blank, h.literal⟩
    · rename_i hterm
      exact ⟨hnode, h.uri, Cache.forall_put h.blank ⟨hterm, hn⟩, h.literal⟩
    · rename_i l hterm
      have hkey : n.literalKey? = some l.key := by simp [Node.literalKey?, Node.literal?, hterm]
      exact ⟨hnode, h.uri, h.blank, Cache.forall_put h.literal ⟨hkey, hn⟩⟩

theorem addStatement (h : c.Lists P) (s : Statement) : (c.addStatement s).Lists P := by
  unfold Caches.addStatement
  split
  · exact h.of_eq rfl rfl rfl rfl
  · exact h

theorem eraseStatements (h : c.Lists P) (ids : List Int) :
    (ids.foldl Caches.eraseStatement c).Lists P := by
  obtain ⟨statement, heq⟩ := foldl_eraseStatement ids c
  rw [heq]
  exact h.of_eq rfl rfl rfl rfl

theorem foldl {α : Type} {f : Caches → α → Caches} {xs : List α}
    (hf : ∀ c, Lists P c → ∀ x ∈ xs, (f c x).Lists P) (h : c.Lists P) : (xs.foldl f c).Lists P :=
  List.foldlRecOn (motive := Lists P) xs f h hf

theorem publishTo (h : c.Lists P) {conn : Connection} (hfresh : ∀ n ∈ conn.freshNodes, P n) :
    (conn.publishTo c).Lists P := by
  unfold Connection.publishTo
  refine foldl (fun c hc ns _ => hc.of_eq rfl rfl rfl rfl) ?_
  refine foldl (fun c hc ns _ => hc.of_eq rfl rfl rfl rfl) ?_
  refine foldl (fun c hc s _ => hc.addStatement s) ?_
  exact foldl (fun c hc n hn => hc.addNode (hfresh n hn)) (h.eraseStatements _)

theorem discardFrom (h : c.Lists P) (conn : Connection) : (conn.discardFrom c).Lists P :=
  (h.eraseStatements _).eraseStatements _

end Caches.Lists

/-! Workspaces -/

namespace Workspace

/-- Whether the values of literals go with their datatypes in all rows, all that is cached or
awaits that is what its row may be read as, and no row has an id that is still to be given. -/
structure Typed (W : LiteralValue → String → Prop) (w : Workspace) : Prop where
  committed : w.database.committed.Typed W
  view : w.view.Typed W
  nodes : ∀ r ∈ w.database.committed.nodes, r ∈ w.view.nodes
  caches : w.store.caches.Lists (w.database.committed.Reflects W)
  fresh : ∀ n ∈ w.conn.freshNodes, w.view.Reflects W n
  counted : ∀ r ∈ w.view.nodes, r.id ≤ w.store.counters.nodes
  counter : 0 ≤ w.store.counters.nodes

/-- How a workspace refuses to write: another connection holds the lock. -/
structure Refuses (w : Workspace) (e : StoreError) : Prop where
  fault : e = .data .locked
  idle : w.conn.writing = false
  locked : w.database.locked = true

end Workspace

/-- What is left of a workspace in which the values of literals go with their datatypes. -/
structure Types (W : LiteralValue → String → Prop) (w w' : Workspace) : Prop where
  nodes : ∀ r ∈ w.view.nodes, r ∈ w'.view.nodes
  counter : w.store.counters.nodes ≤ w'.store.counters.nodes
  typed : w'.Typed W

/-- Whether the values of literals go on going with their datatypes. -/
def Typing (W : LiteralValue → String → Prop) (w w' : Workspace) : Prop :=
  w.Typed W → Types W w w'

namespace Types

theorem refl (h : w.Typed W) : Types W w w :=
  ⟨fun _ hr => hr, le_refl _, h⟩

theorem trans (h : Types W w w') (h' : Types W w' w'') : Types W w w'' :=
  ⟨fun r hr => h'.nodes r (h.nodes r hr), le_trans h.counter h'.counter, h'.typed⟩

theorem of_nodes (h : w.Typed W) (hcommitted : w'.database.committed = w.database.committed)
    (hnodes : w'.view.nodes = w.view.nodes)
    (hcaches : w'.store.caches.Lists (w.database.committed.Reflects W))
    (hfresh : w'.conn.freshNodes = w.conn.freshNodes)
    (hcounter : w.store.counters.nodes ≤ w'.store.counters.nodes) : Types W w w' := by
  refine ⟨fun r hr => hnodes ▸ hr, hcounter, hcommitted ▸ h.committed, h.view.of_eq hnodes, ?_,
    hcommitted ▸ hcaches, ?_, ?_, le_trans h.counter hcounter⟩
  · rw [hcommitted, hnodes]
    exact h.nodes
  · rw [hfresh]
    exact fun n hn => (h.fresh n hn).mono fun r hr => hnodes ▸ hr
  · rw [hnodes]
    exact fun r hr => le_trans (h.counted r hr) hcounter

theorem of_beside (h : w.Typed W) (hbeside : Beside w w') : Types W w w' :=
  of_nodes h hbeside.committed hbeside.nodes
    (h.caches.of_eq hbeside.node hbeside.uri hbeside.blank hbeside.literal)
      hbeside.freshNodes hbeside.counter

/-- A node may be cached, or kept until that, if it is what its row may be read as. -/
theorem keepNode {n : Node} (h : w.Typed W) (hn : w.view.Reflects W n) : Types W w (finalState
    (Action.modifyConn (fun c => { c with freshNodes := c.freshNodes ++ [n] }) w)) := by
  refine ⟨fun r hr => hr, le_refl _, h.committed, h.view, h.nodes,
    h.caches, fun m hm => ?_, h.counted, h.counter⟩
  rcases List.mem_append.mp hm with hold | hadded
  · exact h.fresh m hold
  · rwa [List.mem_singleton.mp hadded]

theorem cacheNode {n : Node} (h : w.Typed W) (hn : w.view.Reflects W n) :
    Types W w (finalState (Action.cacheNode n w)) := by
  simp only [Action.cacheNode]
  split
  · rw [bind_of_ok (a := (get : Action Workspace)) (s := w) rfl]
    split
    · exact keepNode h hn
    · rename_i hidle
      rw [Workspace.view_eq_committed (by simpa using hidle)] at hn
      exact of_nodes h rfl rfl (h.caches.addNode hn) rfl (le_refl _)
  · exact refl h

theorem insertNode {n : Node} {id : Int} (h : w.Typed W) (hid : 0 ≤ id)
    (hcounted : id ≤ w.store.counters.nodes)
    (hsuits : ∀ l, n.term = .literal l → w.view.Suits W l)
    (hinsert : w.view.insertNode? (.ofNode id n) = some t) :
    Types W w (finalState (Action.setTables t w)) ∧ t.Reflects W (n.withId id) := by
  have htyped : t.Typed W := h.view.insertNode hid hsuits hinsert
  obtain ⟨rfl, -⟩ := Tables.insertNode?_eq_some hinsert
  have hadded : ∀ r ∈ w.view.nodes, r ∈ w.view.nodes ++ [.ofNode id n] :=
    fun r hr => List.mem_append_left _ hr
  refine ⟨⟨hadded, le_refl _, h.committed, htyped, fun r hr => hadded r (h.nodes r hr), h.caches,
    fun m hm => (h.fresh m hm).mono hadded, fun r hr => ?_, h.counter⟩, ?_⟩
  · rcases List.mem_append.mp hr with hold | hnew
    · exact h.counted r hold
    · rw [List.mem_singleton.mp hnew, (Action.holds_ofNode id n).1]
      exact hcounted
  · refine Tables.reflects_of_records (List.mem_append_right _ (List.mem_singleton_self _))
      (NodeRow.records_ofNode id n) fun l hterm => ?_
    exact (hsuits l hterm).mono hadded

end Types

instance : IsPreorder Workspace (Typing W) where
  refl _ := Types.refl
  trans _ _ _ h h' hw := (h hw).trans (h' (h hw).typed)

theorem Workspace.Typed.reflects (h : w.Typed W) {n : Node}
    (hn : w.database.committed.Reflects W n) :
    w.view.Reflects W n :=
  hn.mono h.nodes

/-! How actions end -/

/-- How an action ends that is begun in some workspace: the values of literals go on going with
their datatypes, an answer satisfies a condition, and so does an error. -/
inductive Concludes {α : Type} (W : LiteralValue → String → Prop)
    (w : Workspace) (E : StoreError → Prop)
    (Q : α → Workspace → Prop) : EStateM.Result StoreError Workspace α → Prop
  | ok {v : α} {w' : Workspace} (htypes : Types W w w') (hanswer : Q v w') :
    Concludes W w E Q (.ok v w')
  | error {e : StoreError} {w' : Workspace} (htypes : Types W w w') (hfault : E e) :
      Concludes W w E Q (.error e w')

namespace Concludes

variable {α β : Type} {E E' : StoreError → Prop} {Q Q' : α → Workspace → Prop} {a : Action α}

theorem types {x : EStateM.Result StoreError Workspace α} (h : Concludes W w E Q x) :
    Types W w (finalState x) := by
  cases h with
  | ok htypes _ | error htypes _ => exact htypes

theorem imp {x : EStateM.Result StoreError Workspace α}
    (h : Concludes W w E Q x) (hE : ∀ e, E e → E' e)
    (hQ : ∀ v w', Types W w w' → Q v w' → Q' v w') : Concludes W w E' Q' x := by
  cases h with
  | ok htypes hanswer => exact .ok htypes (hQ _ _ htypes hanswer)
  | error htypes hfault => exact .error htypes (hE _ hfault)

theorem of_ok {v : α} (h : Concludes W w E Q (a w)) (hop : a w = .ok v w') :
    Types W w w' ∧ Q v w' := by
  rw [hop] at h
  cases h with
  | ok htypes hanswer => exact ⟨htypes, hanswer⟩

theorem of_error {e : StoreError} (h : Concludes W w E Q (a w)) (hop : a w = .error e w') :
    Types W w w' ∧ E e := by
  rw [hop] at h
  cases h with
  | error htypes hfault => exact ⟨htypes, hfault⟩

theorem pure {v : α} (hw : w.Typed W) (h : Q v w) :
    Concludes W w E Q ((Pure.pure v : Action α) w) :=
  .ok (.refl hw) h

theorem throw {e : StoreError} (hw : w.Typed W) (h : E e) :
    Concludes W w E Q ((MonadExcept.throw e : Action α) w) :=
  .error (.refl hw) h

theorem ofData {f : Except DataFault α} (hw : w.Typed W) (hQ : ∀ v, f = .ok v → Q v w)
    (hE : ∀ fault, f = .error fault → E (.data fault)) :
    Concludes W w E Q (Action.ofData f w) := by
  cases f with
  | ok v => exact .ok (.refl hw) (hQ v rfl)
  | error fault => exact .error (.refl hw) (hE fault rfl)

theorem after {x : EStateM.Result StoreError Workspace α} (h : Concludes W w' E Q x)
    (htypes : Types W w w') : Concludes W w E Q x := by
  cases h with
  | ok hlater hanswer => exact .ok (htypes.trans hlater) hanswer
  | error hlater hfault => exact .error (htypes.trans hlater) hfault

theorem bind {f : α → Action β} {P : β → Workspace → Prop} (h : Concludes W w E Q (a w))
    (hf : ∀ v w', a w = .ok v w' → Types W w w' → Q v w' → Concludes W w' E P (f v w')) :
    Concludes W w E P ((a >>= f) w) := by
  cases ha : a w with
  | ok v w' =>
      obtain ⟨htypes, hanswer⟩ := h.of_ok ha
      rw [bind_of_ok ha]
      exact (hf v w' ha htypes hanswer).after htypes
  | error e w' =>
      obtain ⟨htypes, hfault⟩ := h.of_error ha
      rw [bind_of_error ha]
      exact .error htypes hfault

end Concludes

namespace Action

variable {n m : Node} {r : NodeRow} {E : StoreError → Prop}

/-! Reading nodes -/

theorem cacheNode_concludes (h : w.Typed W) (hn : w.view.Reflects W n) :
    Concludes W w E (fun _ w' => w'.view = w.view) (cacheNode n w) := by
  have htypes := Types.cacheNode h hn
  obtain ⟨w', hop⟩ := cacheNode_eq_ok n w
  have hview := (cacheNode_reads (w := w) fun _ => hn.holdsNode).view_eq
  rw [hop] at htypes hview ⊢
  exact .ok htypes hview

section

variable {decode : NodeRow → Action Node} (hdecode : ∀ {w r}, w.Typed W → r ∈ w.view.nodes →
  Concludes W w (fun _ => True) (fun n w' => w'.view.Reflects W n ∧ n.id = r.id) (decode r w))

include hdecode

theorem resolveWith_concludes (h : w.Typed W) (id : Int) :
    Concludes W w (fun _ => True) (fun found w' => ∀ n, found = some n →
      w'.view.Reflects W n ∧ n.id = id) (resolveWith decode id w) := by
  unfold resolveWith
  rw [bind_of_ok (a := (get : Action Workspace)) (s := w) rfl]
  cases hcached : w.store.caches.node.get? id with
  | some m =>
      obtain ⟨hid, hm⟩ := h.caches.node id m hcached
      refine .pure h ?_
      rintro n ⟨⟩
      exact ⟨h.reflects hm, hid⟩
  | none =>
      dsimp only
      rw [bind_of_ok (view_eq_ok_iff.mpr ⟨rfl, rfl⟩)]
      cases hfind : w.view.nodeById? id with
      | none => exact .pure h (by rintro n ⟨⟩)
      | some r =>
          have hid : r.id = id := by simpa using List.find?_some hfind
          refine (hdecode h (List.mem_of_find?_eq_some hfind)).bind fun n w₁ _ h₁ hn => ?_
          refine (cacheNode_concludes h₁.typed hn.1).bind fun _ w₂ _ h₂ hview => .pure h₂.typed ?_
          rintro n ⟨⟩
          exact ⟨hview ▸ hn.1, hn.2.trans hid⟩

theorem rowDatatype_concludes (h : w.Typed W) (r : NodeRow) (kind : NodeKind) :
    Concludes W w (fun _ => True) (fun datatype w' => kind.isLiteral = true →
      ∀ id, r.datatype = some id →
      ∃ uri, datatype = some ⟨id, uri⟩ ∧ w'.view.HoldsNode ⟨id, .uri uri⟩)
      (rowDatatype decode r kind w) := by
  unfold rowDatatype
  cases hcolumn : r.datatype with
  | none => exact .pure h (by rintro - id ⟨⟩)
  | some id =>
      dsimp only
      split
      · refine (resolveWith_concludes hdecode h id).bind fun found w₁ _ h₁ hfound => ?_
        split
        · refine .pure h₁.typed ?_
          rintro - _ ⟨⟩
          obtain ⟨hn, rfl⟩ := hfound _ rfl
          exact ⟨_, rfl, hn.holdsNode⟩
        · exact .throw h₁.typed trivial
      · rename_i hresource
        exact .pure h fun hliteral => absurd hliteral hresource

end

theorem decodeRow_concludes (fuel : Nat) (h : w.Typed W) (hr : r ∈ w.view.nodes) :
    Concludes W w (fun _ => True) (fun n w' => w'.view.Reflects W n ∧
      n.id = r.id) (decodeRow fuel r w) := by
  -- The datatype of a literal is looked up with less fuel; what its row is
  -- read as reflects that row.
  induction fuel generalizing w r with
  | zero => exact .throw h trivial
  | succ fuel ih =>
      unfold decodeRow
      refine Concludes.bind (Q :=
        fun _ w' => w' = w) (.ofData h (fun _ _ => rfl) fun _ _ => trivial) ?_
      rintro _ w - - rfl
      refine Concludes.bind (Q := fun kind w' => r.readKind = .ok kind ∧ w' = w)
        (.ofData h (fun _ hkind => ⟨hkind, rfl⟩) fun _ _ => trivial) ?_
      rintro kind w - - ⟨hkind, rfl⟩
      refine (rowDatatype_concludes ih h r kind).bind fun datatype w₁ _ h₁ hdatatype => ?_
      refine .ofData h₁.typed (fun n hn => ⟨?_, (NodeRow.toNode_eq_ok_iff.mp hn).2.2⟩) fun _ _ =>
        trivial
      exact h₁.typed.view.reflects_of_toNode (h₁.nodes r hr) hkind hdatatype hn

theorem nodeOfRow_concludes (h : w.Typed W) (hr : r ∈ w.view.nodes) :
    Concludes W w (fun _ => True) (fun n w' => w'.view.Reflects W n ∧
      n.id = r.id) (nodeOfRow r w) := by
  unfold nodeOfRow
  rw [bind_of_ok (view_eq_ok_iff.mpr ⟨rfl, rfl⟩)]
  exact decodeRow_concludes _ h hr

theorem loadNode_concludes (h : w.Typed W) (n : Node) :
    Concludes W w (fun _ => True) (fun _ _ => True) (loadNode n w) := by
  rw [loadNode_eq_rowOf?]
  cases hrow : w.view.rowOf? n with
  | none => exact .pure h trivial
  | some r =>
      refine (nodeOfRow_concludes h (Tables.rowOf?_eq_some hrow).1).bind fun m w₁ _ h₁ _ => ?_
      exact .pure h₁.typed trivial

end Action

namespace Typing

theorem of_beside (h : Beside w w') : Typing W w w' :=
  fun hw => .of_beside hw h

theorem storeNamespace (ns : Namespace) : Keeps (Typing W) (Action.storeNamespace ns) := by
  refine (Action.beginWrite_beside.mono fun _ _ => of_beside).bind fun _ => ?_
  refine ((Action.nextId_beside _).mono fun _ _ => of_beside).bind fun id =>
    Action.keeps_get.bind_of ?_
  intro w v w₁ hget
  obtain ⟨rfl, rfl⟩ := Action.get_eq_ok_iff.mp hget
  refine finalState_bind (Action.keeps_ofData _ w) fun t w₁ hfound => ?_
  obtain ⟨hinsert, rfl⟩ := Action.ofData_eq_ok_iff.mp hfound
  obtain ⟨rfl, -⟩ := Tables.insertNamespace_eq_ok_iff.mp hinsert
  exact fun hw => .of_nodes hw rfl rfl (hw.caches.of_eq rfl rfl rfl rfl) rfl (le_refl _)

theorem deleteNamespace (ns : Namespace) : Keeps (Typing W) (Action.deleteNamespace ns) := by
  refine (Action.beginWrite_beside.mono fun _ _ => of_beside).bind fun _ =>
    (Action.keeps_view _).bind_of fun w t w₁ hview => ?_
  obtain ⟨rfl, rfl⟩ := Action.view_eq_ok_iff.mp hview
  exact fun hw => .of_nodes hw rfl rfl (hw.caches.of_eq rfl rfl rfl rfl) rfl (le_refl _)

instance : AllowsBeside (Typing W) where
  resolveNode id _ h := (Action.resolveWith_concludes Action.nodeOfRow_concludes h id).types
  loadNode n _ h := (Action.loadNode_concludes h n).types
  beside := of_beside
  storeNamespace := storeNamespace
  deleteNamespace := deleteNamespace

end Typing

namespace Action

variable {n m : Node} {r : NodeRow} {E : StoreError → Prop} {Q : Node → Prop}

/-! Storing nodes -/

theorem refuses_of_beginWrite {e : StoreError}
    (h : beginWrite w = .error e w') : w.Refuses e := by
  unfold beginWrite at h
  rw [bind_of_ok (a := (get : Action Workspace)) (s := w) rfl] at h
  dsimp only at h
  split at h
  · rename_i hidle
    split at h
    · rename_i hlocked
      cases h
      exact ⟨rfl, by simpa using hidle, hlocked⟩
    · cases h
  · cases h

theorem nextId_nodes (w : Workspace) : ∃ id w', nextId .nodes w = .ok id w' ∧
    id = w.store.counters.nodes + 1 ∧ w'.store.counters.nodes = id ∧ w'.view = w.view :=
  ⟨_, _, rfl, rfl, rfl, rfl⟩

theorem storeNode_concludes (h : w.Typed W) (hnew : n.isPersisted = false)
    (hsuits : ∀ l, n.term = .literal l → w.view.Suits W l) (hrow : w.view.rowOf? n = none) :
    Concludes W w w.Refuses (fun m w' => w'.view.Reflects W m ∧
      m.term = n.term) (storeNode n w) := by
  have hcheck : checkDatatype n w = .ok () w := by
    obtain ⟨id, term⟩ := n
    cases term with
    | uri | blank => rfl
    | literal l =>
        obtain ⟨datatype, hl, -, hheld⟩ := (hsuits l rfl).datatype
        obtain ⟨value, _⟩ := l
        obtain rfl : _ = some datatype := hl
        exact congrFun (if_neg (not_lt.mpr (h.view.nonneg_of_holdsNode hheld))) w
  unfold storeNode
  rw [if_neg (by simp [hnew]), bind_of_ok hcheck]
  cases hbegin : beginWrite w with
  | error e w₁ =>
      rw [bind_of_error hbegin]
      exact .error (.of_beside h (beginWrite_beside.error hbegin)) (refuses_of_beginWrite hbegin)
  | ok _ w₁ =>
      rw [bind_of_ok hbegin]
      obtain ⟨-, hview⟩ := beginWrite_eq_ok hbegin
      have hstore := store_of_beginWrite hbegin
      have h₁ := Types.of_beside h (beginWrite_beside.ok hbegin)
      obtain ⟨id, w₂, hnext, hid, hcounter, hview₂⟩ := nextId_nodes w₁
      have h₂ := h₁.trans (.of_beside h₁.typed ((nextId_beside _).ok hnext))
      rw [hstore] at hid
      rw [hview] at hview₂
      have hfree : id ∉ w.view.nodes.map NodeRow.id := by
        intro hmem
        obtain ⟨r, hr, hrid⟩ := List.mem_map.mp hmem
        have hcounted := h.counted r hr
        omega
      -- No row holds the node, and the counter has passed all ids, so nothing is
      -- in the way of the new row.
      have hinsert := h.view.insertNode?_of_new hfree hsuits hrow
      rw [← hview₂] at hinsert hsuits
      rw [bind_of_ok hnext, bind_of_ok (view_eq_ok_iff.mpr ⟨hinsert, rfl⟩)]
      have hnonneg := h.counter
      obtain ⟨h₃, hstored⟩ := Types.insertNode h₂.typed (by omega) hcounter.ge hsuits hinsert
      have h₄ := Types.keepNode h₃.typed hstored
      exact .ok ((h₂.trans h₃).trans h₄) ⟨hstored, rfl⟩

theorem loadOrStore_concludes (h : w.Typed W) (hnew : n.isPersisted = false)
    (hsuits : ∀ l, n.term = .literal l → w.view.Suits W l)
    (hE : w.view.rowOf? n = none → ∀ e, w.Refuses e → E e)
    (hread : ∀ r, w.view.rowOf? n = some r →
      Concludes W w E (fun m w' => w'.view.Reflects W m ∧ Q m) (nodeOfRow r w))
    (hterm : ∀ m, m.term = n.term → Q m) :
    Concludes W w E (fun m w' => w'.view.Reflects W m ∧ Q m) (loadOrStore n w) := by
  unfold loadOrStore
  cases hrow : w.view.rowOf? n with
  | none =>
      rw [bind_of_ok (loadNode_eq_none hrow)]
      exact (storeNode_concludes h hnew hsuits hrow).imp (hE hrow) fun m w' _ hm =>
        ⟨hm.1, hterm m hm.2⟩
  | some r =>
      have hload : Concludes W w E (fun found w' => ∃ m, found = some m ∧
          w'.view.Reflects W m ∧ Q m) (loadNode n w) := by
        rw [loadNode_eq_rowOf?, hrow]
        exact (hread r hrow).bind fun m w₁ _ h₁ hm => .pure h₁.typed ⟨m, rfl, hm⟩
      refine hload.bind ?_
      rintro found w₁ - h₁ ⟨m, rfl, hm⟩
      refine (cacheNode_concludes h₁.typed hm.1).bind fun _ w₂ _ h₂ hview => .pure h₂.typed ?_
      exact ⟨hview ▸ hm.1, hm.2⟩

theorem cached_concludes {f : Caches → Option Node} {a : Action Node}
    (hcached : Cached n f a) (h : w.Typed W)
    (hnew : n.isPersisted = false) (hsuits : ∀ l, n.term = .literal l → w.view.Suits W l)
    (hE : w.view.rowOf? n = none → ∀ e, w.Refuses e → E e)
    (hfound : ∀ m, f w.store.caches = some m → w.database.committed.Reflects W m ∧ Q m)
    (hread : ∀ r, w.view.rowOf? n = some r →
      Concludes W w E (fun m w' => w'.view.Reflects W m ∧ Q m) (nodeOfRow r w))
    (hterm : ∀ m, m.term = n.term → Q m) :
    Concludes W w E (fun m w' => w'.view.Reflects W m ∧ Q m) (a w) := by
  cases hcase : f w.store.caches with
  | some m =>
      rw [hcached.hit w m hcase]
      obtain ⟨hm, hq⟩ := hfound m hcase
      exact .ok (.refl h) ⟨h.reflects hm, hq⟩
  | none =>
      rw [hcached.miss w hcase]
      exact loadOrStore_concludes h hnew hsuits hE hread hterm

theorem nodeOfRow_concludes_resource {id : Int} {term : Term} (h : w.Typed W)
    (hresource : term.isResource = true) (hrow : w.view.rowOf? ⟨id, term⟩ = some r) :
    Concludes W w E (fun m w' => w'.view.Reflects W m ∧ m.term = term) (nodeOfRow r w) := by
  obtain ⟨hr, hholds⟩ := Tables.rowOf?_eq_some hrow
  have hread := nodeOfRow_resource h.view.tells hresource hr hholds
  have hends := nodeOfRow_concludes h hr
  rw [hread] at hends ⊢
  cases hends with
  | ok htypes hm => exact .ok htypes ⟨hm.1, rfl⟩

theorem createUri_concludes (h : w.Typed W) (uri : String) :
    Concludes W w (fun e => w.Refuses e ∧ ¬∃ id, w.view.HoldsNode ⟨id, .uri uri⟩)
      (fun m w' => w'.view.Reflects W m ∧ m.term = .uri uri) (createUri uri w) := by
  refine cached_concludes (createUri_cached uri) h rfl (by rintro l ⟨⟩)
    (fun hrow e hrefuses => ⟨hrefuses, ?_⟩)
    (fun m hm => (h.caches.uri uri m hm).symm)
      (fun _ => nodeOfRow_concludes_resource h rfl) fun _ => id
  rintro ⟨id, hheld⟩
  exact Tables.rowOf?_ne_none (n := .uri uri) rfl hheld hrow

theorem createBlank_concludes (h : w.Typed W) (label : String) :
    Concludes W w w.Refuses (fun m w' => w'.view.Reflects W m ∧ m.term = .blank label)
      (createBlank (some label) w) :=
  cached_concludes (createBlank_cached label) h rfl (by rintro l ⟨⟩) (fun _ _ => id)
    (fun m hm => (h.caches.blank label m hm).symm)
      (fun _ => nodeOfRow_concludes_resource h rfl) fun _ => id

theorem createDatatype_concludes (h : w.Typed W) (uri : String) :
    Concludes W w (fun e => w.Refuses e ∧ ¬∃ id, w.view.HoldsNode ⟨id, .uri uri⟩)
      (fun d w' => w'.view.HoldsNode ⟨d.id, .uri d.uri⟩ ∧ d.uri = uri)
      (createDatatype uri w) := by
  refine (createUri_concludes h uri).bind ?_
  rintro ⟨id, _⟩ w₁ - h₁ ⟨hm, rfl⟩
  exact .pure h₁.typed ⟨hm.holdsNode, rfl⟩

end Action
end QuadStore
