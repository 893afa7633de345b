import QuadStore.Proofs.CacheMisses
import QuadStore.Proofs.StatementWork

namespace QuadStore

variable {α : Type} {w w' : Workspace}

theorem Tables.Shows.uri_of_rowOf? {t : Tables} {r : NodeRow} {n m : Node} (h : t.Shows r m)
    (hrow : t.rowOf? n = some r) {u : String} (hu : n.term = .uri u) : m.term = .uri u := by
  have hwithId : (n.withId r.id).term = .uri u := hu
  rw [h.holds.term_eq (Tables.rowOf?_eq_some hrow).2 (by rw [hwithId]; rfl), hwithId]

/-- How an operation ends but for what is cached. -/
def bareEnd : EStateM.Result StoreError Workspace α → EStateM.Result StoreError Workspace α
  | .ok v w => .ok v w.bare
  | .error e w => .error e w.bare

theorem Agrees.of_bare {a : Action α} (hbare : ∀ w, a w.bare = bareEnd (a w))
    (hready : ∀ w, w.Ready → (finalState (a w)).Ready) : Agrees Like Same a := by
  intro w w' h
  have hends : bareEnd (a w') = bareEnd (a w) := by rw [← hbare, ← hbare, h.bare]
  have hw := hready w h.left
  have hw' := hready w' h.right
  cases hx : a w <;> cases hx' : a w' <;> rw [hx] at hends hw <;> rw [hx'] at hends hw' <;>
    simp only [bareEnd, EStateM.Result.ok.injEq,
      EStateM.Result.error.injEq, reduceCtorEq] at hends
  · exact .ok hends.1 ⟨hw, hw', hends.2⟩
  · obtain ⟨rfl, hstates⟩ := hends
    exact .error ⟨hw, hw', hstates⟩

/-- A workspace stays in order when the nodes that are added to its tables can be read. -/
theorem Workspace.Ready.of_quiet (h : w.Ready) (hquiet : Quiet w w')
    (hcounter : 0 ≤ w'.store.counters.nodes)
    (hregistry : w'.store.registry.strategy = w.store.registry.strategy)
    (hcaches : w'.store.caches = w.store.caches) (hview : w'.view.Written)
    (hnodes : ∀ n ∈ w'.conn.freshNodes, n ∈ w.conn.freshNodes ∨ w'.view.Knows n)
    (hstatements : w'.conn.freshStatements = w.conn.freshStatements) : w'.Ready := by
  have hgood := hquiet.good h.toGood
  refine ⟨hgood, hcounter, hregistry ▸ h.registry, ?_, hview, ?_, fun n hn => ?_, ?_, ?_⟩
  · rw [hquiet.committed]
    exact h.committed
  · rw [hquiet.committed, hcaches]
    exact h.caches
  · rcases hnodes n hn with hn | hn
    · exact (h.freshNodes n hn).mono hquiet.nodes hgood.sound
    · exact hn
  · rw [hstatements]
    intro s hs
    obtain ⟨r, hr, hshows⟩ := h.freshStatements s hs
    exact ⟨r, hquiet.statements ▸ hr, hshows.mono hquiet.nodes hgood.sound⟩
  · rw [hquiet.committed, hquiet.statements]
    exact h.kept

namespace Action

theorem beginWrite_agrees : Agrees Like Same beginWrite := by
  refine .of_bare (fun w => ?_) fun w h => ?_
  · obtain ⟨⟨committed, locked⟩, file, store, ⟨transaction, pending, _, _, _, _, _⟩⟩ := w
    cases pending <;> cases locked <;> rfl
  have hsame : (finalState (beginWrite w)).view = w.view ∧
      (finalState (beginWrite w)).store = w.store ∧
      (finalState (beginWrite w)).conn.freshNodes = w.conn.freshNodes ∧
      (finalState (beginWrite w)).conn.freshStatements = w.conn.freshStatements := by
    obtain ⟨⟨committed, locked⟩, file, store, ⟨transaction, pending, _, _, _, _, _⟩⟩ := w
    cases pending <;> cases locked <;> exact ⟨rfl, rfl, rfl, rfl⟩
  obtain ⟨hview, hstore, hnodes, hstatements⟩ := hsame
  refine h.of_quiet (beginWrite_silent w).toQuiet ?_ ?_ ?_ ?_ ?_ hstatements
  · rw [hstore]
    exact h.nodeCounter
  · rw [hstore]
  · rw [hstore]
  · rw [hview]
    exact h.view
  · rw [hnodes]
    exact fun n hn => .inl hn

theorem nextId_agrees (s : Sequence) (hs : s ≠ .transactions) : Agrees Like Same (nextId s) := by
  refine .of_bare (fun w => rfl) fun w h => ?_
  refine h.of_quiet (nextId_quiet s hs w) ?_ rfl rfl h.view (fun n hn => .inl hn) rfl
  have hcounter := h.nodeCounter
  show 0 ≤ (w.store.counters.next s).nodes
  cases s <;> simp only [Counters.next, Counters.set, Counters.current] <;> omega

/-! Nodes -/

theorem setTables_alike (h : Like w w') (hwriting : w.conn.writing = true)
    {id : Int} (hid : 0 ≤ id) {n : Node} (htakes : w.view.Takes n) {t : Tables}
    (hinsert : w.view.insertNode? (.ofNode id n) = some t) :
    Alike Like (fun _ _ x => x.conn.writing = true ∧ x.view.Knows (n.withId id))
      (setTables t w) (setTables t w') := by
  obtain ⟨heq, -⟩ := Tables.insertNode?_eq_some hinsert
  have hnodes : t.nodes = w.view.nodes ++ [.ofNode id n] := by rw [heq]
  have hmem : ∀ r ∈ w.view.nodes, r ∈ t.nodes := by
    rw [hnodes]
    exact fun r hr => List.mem_append_left _ hr
  have hsound : t.Sound := h.left.sound.insertNode hinsert
  have hwritten : t.Written := h.left.view.insertNode hid htakes hinsert hsound
  have ready_set : ∀ {x : Workspace}, x.Ready → x.conn.writing = true → x.view = w.view →
      (finalState (setTables t x)).Ready := by
    intro x hx hwriting hview
    have hsilent : Silent x (finalState (setTables t x)) :=
      setTables_silent hwriting (hview ▸ hmem) (by rw [heq, hview]) (by rw [heq, hview])
        fun _ => hsound
    exact hx.of_quiet hsilent.toQuiet hx.nodeCounter rfl rfl hwritten (fun m hm => .inl hm) rfl
  refine .ok ⟨rfl, .ofNode id n, ?_, (Tables.shows_ofNode htakes hmem hsound id).1⟩
    ⟨ready_set h.left hwriting rfl, ready_set h.right (h.writing.trans hwriting) h.view, ?_⟩
  · show NodeRow.ofNode id n ∈ t.nodes
    simp [hnodes]
  · exact (congrArg (fun x => finalState (setTables t x)) h.bare :)

theorem keepNode_alike (h : Like w w') (hwriting : w.conn.writing = true) {n : Node}
    (hn : w.view.Knows n) :
    Alike Like Same (modifyConn (fun c => { c with freshNodes := c.freshNodes ++ [n] }) w)
      (modifyConn (fun c => { c with freshNodes := c.freshNodes ++ [n] }) w') := by
  have ready_kept : ∀ {w : Workspace}, w.Ready → w.conn.writing = true → w.view.Knows n →
      (finalState (modifyConn (fun c => { c with freshNodes := c.freshNodes ++ [n] })
        w)).Ready := by
    intro w h hwriting hn
    refine h.of_quiet (keepNode_silent hwriting hn.holdsNode).toQuiet h.nodeCounter rfl rfl h.view
      (fun m hm => ?_) rfl
    rcases List.mem_append.mp hm with hm | hm
    · exact .inl hm
    · rw [List.mem_singleton.mp hm]
      exact .inr hn
  have hleft := ready_kept h.left hwriting hn
  have hright := ready_kept h.right (h.writing.trans hwriting) (h.view ▸ hn)
  exact .ok rfl ⟨hleft, hright, h.bare⟩

theorem checkDatatype_agrees (n : Node) : Agrees Like Same (checkDatatype n) := by
  unfold checkDatatype
  split
  · split
    · exact .throw _
    · exact .pure _
  · exact .pure _

theorem storeNode_alike (h : Like w w') {n : Node} (hnew : n.isPersisted = false)
    (htakes : w.view.Takes n) (hrow : w.view.rowOf? n = none) :
    Alike Like (fun v v' x => v' = v ∧ x.view.Knows v ∧ v.term = n.term)
      (storeNode n w) (storeNode n w') := by
  unfold storeNode
  rw [if_neg (by simp [hnew])]
  refine (checkDatatype_agrees n w w' h).bind fun _ _ w₁ w₁' hcheck _ _ h₁ => ?_
  obtain rfl : w = w₁ := by
    unfold checkDatatype at hcheck
    cases hdatatype : n.datatype? with
    | none =>
        rw [hdatatype] at hcheck
        exact (pure_eq_ok_iff.mp hcheck).2
    | some datatype =>
        rw [hdatatype] at hcheck
        dsimp only at hcheck
        split at hcheck
        · cases hcheck
        · exact (pure_eq_ok_iff.mp hcheck).2
  refine (beginWrite_agrees w w₁' h₁).bind fun _ _ w₂ w₂' hbegin _ _ h₂ => ?_
  obtain ⟨hwriting, hview⟩ := beginWrite_eq_ok hbegin
  refine (nextId_agrees .nodes (by simp) w₂ w₂' h₂).bind fun id id' w₃ w₃' hid _ hsame h₃ => ?_
  obtain rfl : id' = id := hsame
  have hid : 0 ≤ id' ∧ w₃.view = w₂.view ∧ w₃.conn.writing = true := by
    cases hid
    exact ⟨h₃.left.nodeCounter, rfl, hwriting⟩
  obtain ⟨hnonneg, hview₃, hwriting₃⟩ := hid
  rw [← hview, ← hview₃] at htakes hrow
  refine (agrees_view _ w₃ w₃' h₃).bind fun tables tables' w₄ w₄' hfound _ hsame h₄ => ?_
  obtain rfl : tables' = tables := hsame
  obtain ⟨hinsert, rfl⟩ := view_eq_ok_iff.mp hfound
  cases tables' with
  | none =>
      -- There would be a node to be found, of which there is none.
      dsimp only
      rw [bind_of_ok (loadNode_eq_none hrow), bind_of_ok (loadNode_eq_none (h₄.view ▸ hrow))]
      exact .error h₄
  | some t =>
      refine (setTables_alike h₄ hwriting₃ hnonneg htakes hinsert).bind ?_
      rintro _ _ w₅ w₅' - - ⟨hwriting₅, hknows⟩ h₅
      simp only [pure_bind]
      refine (keepNode_alike h₅ hwriting₅ hknows).bind fun _ _ w₆ w₆' hkept _ _ h₆ => ?_
      cases hkept
      exact .ok ⟨rfl, hknows, rfl⟩ h₆

theorem loadOrStore_eq (h : w.Ready) {n m : Node} {r : NodeRow} (hrow : w.view.rowOf? n = some r)
    (hshows : w.view.Shows r m) :
    ∃ w', loadOrStore n w = .ok m w' ∧ Looked w w' ∧ w'.view.Knows m := by
  have hknows : w.view.Knows m := ⟨r, (Tables.rowOf?_eq_some hrow).1, hshows⟩
  obtain ⟨w₁, hload, hlooked⟩ := loadNode_eq h hrow hshows
  obtain ⟨w₂, hcache, hlooked'⟩ := cacheNode_eq hlooked.ready (hlooked.view_eq ▸ hknows)
  have hlooked₂ := hlooked.trans hlooked'
  refine ⟨w₂, ?_, hlooked₂, hlooked₂.view_eq ▸ hknows⟩
  unfold loadOrStore
  rw [bind_of_ok hload]
  dsimp only
  rw [bind_of_ok hcache]
  rfl

/-- Whether a node comes out as the same one in both of two runs, and is known afterwards. -/
def Found (v v' : Node) (w : Workspace) : Prop :=
  v' = v ∧ w.view.Knows v

theorem loadOrStore_alike (h : Like w w') {n : Node} (hnew : n.isPersisted = false)
    (htakes : w.view.Takes n) :
    Alike Like (fun v v' x => Found v v' x ∧ ∀ u, n.term = .uri u → v.term = .uri u)
      (loadOrStore n w) (loadOrStore n w') := by
  cases hrow : w.view.rowOf? n with
  | none =>
      unfold loadOrStore
      rw [bind_of_ok (loadNode_eq_none hrow), bind_of_ok (loadNode_eq_none (h.view ▸ hrow))]
      refine (storeNode_alike h hnew htakes hrow).imp fun v v' x x' _ _ hv => ?_
      exact ⟨⟨hv.1, hv.2.1⟩, fun u hu => hv.2.2.trans hu⟩
  | some r =>
      obtain ⟨m, hshows, -⟩ := h.left.view.shown r (Tables.rowOf?_eq_some hrow).1
      obtain ⟨x, hx, hlooked, hknows⟩ := loadOrStore_eq h.left hrow hshows
      obtain ⟨x', hx', hlooked', -⟩ := loadOrStore_eq h.right (h.view ▸ hrow) (h.view ▸ hshows)
      exact h.alike hx hlooked hx' hlooked' ⟨⟨rfl, hknows⟩, fun u => hshows.uri_of_rowOf? hrow⟩

/-- Whether an operation answers with a node from a cache, or loads or stores that node if it is
not cached: what is cached is what would be loaded. -/
structure Cached (n : Node) (f : Caches → Option Node) (a : Action Node) : Prop where
  hit : ∀ w m, f w.store.caches = some m → a w = .ok m w
  miss : ∀ w, f w.store.caches = none → a w = loadOrStore n w
  knows : ∀ w m, Workspace.Ready w → f w.store.caches = some m →
    w.database.committed.Knows m ∧ m.key = n.key

namespace Cached

variable {n m : Node} {f : Caches → Option Node} {a : Action Node}

theorem eq (hcached : Cached n f a) (h : w.Ready) (htakes : w.view.Takes n) {r : NodeRow}
    (hrow : w.view.rowOf? n = some r) (hshows : w.view.Shows r m) :
    ∃ w', a w = .ok m w' ∧ Looked w w' := by
  cases hfound : f w.store.caches with
  | some m' =>
      obtain ⟨hknows, hkey⟩ := hcached.knows w m' h hfound
      obtain ⟨r', hrow', hshows'⟩ := h.view.rowOf?_eq htakes (h.knows_of_committed hknows) hkey
      rw [hrow] at hrow'
      obtain rfl := Option.some.inj hrow'
      rw [hshows.eq hshows']
      exact ⟨w, hcached.hit w m' hfound, .refl h⟩
  | none =>
      obtain ⟨w', hw', hlooked, -⟩ := loadOrStore_eq h hrow hshows
      exact ⟨w', (hcached.miss w hfound).trans hw', hlooked⟩

theorem alike_of_known (hcached : Cached n f a) (h : Like w w') (htakes : w.view.Takes n)
    (hknows : w.view.Knows m) (hkey : m.key = n.key) :
    Alike Like (fun v v' x => Found v v' x ∧ ∀ u, n.term = .uri u →
      v.term = .uri u) (a w) (a w') := by
  obtain ⟨r, hrow, hshows⟩ := h.left.view.rowOf?_eq htakes hknows hkey
  obtain ⟨x, hx, hlooked⟩ := hcached.eq h.left htakes hrow hshows
  obtain ⟨x', hx', hlooked'⟩ :=
    hcached.eq h.right (h.view ▸ htakes) (h.view ▸ hrow) (h.view ▸ hshows)
  refine h.alike hx hlooked hx' hlooked' ⟨⟨rfl, hlooked.view_eq ▸ hknows⟩, fun u => ?_⟩
  exact hshows.uri_of_rowOf? hrow

theorem alike (hcached : Cached n f a) (h : Like w w') (hnew : n.isPersisted = false)
    (htakes : w.view.Takes n) :
    Alike Like (fun v v' x => Found v v' x ∧ ∀ u, n.term = .uri u →
      v.term = .uri u) (a w) (a w') := by
  cases hfound : f w.store.caches with
  | some m =>
      obtain ⟨hknows, hkey⟩ := hcached.knows w m h.left hfound
      exact hcached.alike_of_known h htakes (h.left.knows_of_committed hknows) hkey
  | none =>
      cases hfound' : f w'.store.caches with
      | some m =>
          obtain ⟨hknows, hkey⟩ := hcached.knows w' m h.right hfound'
          exact hcached.alike_of_known h htakes (h.view ▸ h.right.knows_of_committed hknows) hkey
      | none =>
          rw [hcached.miss w hfound, hcached.miss w' hfound']
          exact loadOrStore_alike h hnew htakes

end Cached

theorem createUri_cached (uri : String) : Cached (.uri uri) (·.uri.get? uri) (createUri uri) := by
  refine ⟨fun w m hm => ?_, fun w hm => ?_, fun w m hw hm => ⟨hw.caches.uri uri m hm, ?_⟩⟩
  · unfold createUri
    rw [bind_of_ok (a := (get : Action Workspace)) (s := w) rfl, hm]
    rfl
  · unfold createUri
    rw [bind_of_ok (a := (get : Action Workspace)) (s := w) rfl, hm]
  · rw [Node.key, (hw.coherent.caches.uri uri m hm).1]
    rfl

theorem createUri_alike (h : Like w w') (uri : String) :
    Alike Like (fun v v' x => Found v v' x ∧ v.term = .uri uri) (createUri uri w)
      (createUri uri w') := by
  have htakes : w.view.Takes (.uri uri) := ⟨trivial, by rintro l ⟨⟩⟩
  exact ((createUri_cached uri).alike h rfl htakes).imp fun v v' x x' _ _ hv =>
    ⟨hv.1, hv.2 uri rfl⟩

theorem freshLabel_agrees : Agrees Like Same freshLabel := by
  refine .of_bare (fun w => rfl) fun w h => ?_
  exact h.of_quiet (freshLabel_silent w).toQuiet h.nodeCounter rfl rfl
    h.view (fun n hn => .inl hn) rfl

theorem createBlank_cached (label : String) :
    Cached (.blank label) (·.blank.get? label) (createBlank (some label)) := by
  refine ⟨fun w m hm => ?_, fun w hm => ?_, fun w m hw hm => ⟨hw.caches.blank label m hm, ?_⟩⟩
  · unfold createBlank
    dsimp only
    rw [bind_of_ok (a := (pure label : Action String)) (s := w) rfl,
      bind_of_ok (a := (get : Action Workspace)) (s := w) rfl, hm]
    rfl
  · unfold createBlank
    dsimp only
    rw [bind_of_ok (a := (pure label : Action String)) (s := w) rfl,
      bind_of_ok (a := (get : Action Workspace)) (s := w) rfl, hm]
  · rw [Node.key, (hw.coherent.caches.blank label m hm).1]
    rfl

theorem createBlank_alike (h : Like w w') (label : Option String) :
    Alike Like Found (createBlank label w) (createBlank label w') := by
  have load_blank : ∀ {w w' : Workspace}, Like w w' → ∀ label : String,
      Alike Like Found (createBlank (some label) w) (createBlank (some label) w') := by
    intro w w' h label
    have htakes : w.view.Takes (.blank label) := ⟨trivial, by rintro l ⟨⟩⟩
    exact ((createBlank_cached label).alike h rfl htakes).imp fun v v' x x' _ _ hv => hv.1
  cases label with
  | some label => exact load_blank h label
  | none =>
      refine (freshLabel_agrees w w' h).bind fun label label' w₁ w₁' _ _ hsame h₁ => ?_
      obtain rfl : label' = label := hsame
      exact load_blank h₁ label'

theorem createDatatype_alike (h : Like w w') (uri : String) :
    Alike Like (fun d d' x => d' = d ∧ x.view.Knows ⟨d.id, .uri d.uri⟩) (createDatatype uri w)
      (createDatatype uri w') := by
  refine (createUri_alike h uri).bind ?_
  rintro ⟨id, term⟩ n' w₁ w₁' - - ⟨⟨rfl, hknows⟩, rfl⟩ h₁
  exact .ok ⟨rfl, hknows⟩ h₁

theorem resolveValue_cached (value : LiteralValue) (datatype : UriResource) :
    Cached ⟨transientId, .literal ⟨value, some datatype⟩⟩
      (·.literal.get? (Literal.key ⟨value, some datatype⟩)) (resolveValue value datatype) := by
  refine ⟨fun w m hm => ?_, fun w hm => ?_, fun w m hw hm => ⟨hw.caches.literal _ m hm, ?_⟩⟩
  · unfold resolveValue
    rw [bind_of_ok (a := (get : Action Workspace)) (s := w) rfl, hm]
    rfl
  · unfold resolveValue
    rw [bind_of_ok (a := (get : Action Workspace)) (s := w) rfl, hm]
  · obtain ⟨id, term⟩ := m
    have hkey := (hw.coherent.caches.literal _ _ hm).1
    cases term with
    | uri uri => cases hkey
    | blank label => cases hkey
    | literal l => exact congrArg NodeKey.literal (Option.some.inj hkey)

theorem resolveValue_alike (h : Like w w') {value : LiteralValue} (hsimple : value.Simple)
    (hlowered : value.Lowered) {datatype : UriResource}
    (hdatatype : w.view.Knows ⟨datatype.id, .uri datatype.uri⟩) :
    Alike Like Found (resolveValue value datatype w) (resolveValue value datatype w') := by
  have htakes : w.view.Takes ⟨transientId, .literal ⟨value, some datatype⟩⟩ := by
    refine ⟨⟨hsimple, hlowered⟩, ?_⟩
    rintro l ⟨⟩
    exact ⟨datatype, rfl, hdatatype⟩
  exact ((resolveValue_cached value datatype).alike h rfl htakes).imp fun v v' x x' _ _ hv => hv.1

theorem createString_alike (h : Like w w') (content : String) (language : Option String) :
    Alike Like Found (createString content language w) (createString content language w') := by
  refine (createDatatype_alike h _).bind ?_
  rintro datatype datatype' w₁ w₁' - - ⟨rfl, hdatatype⟩ h₁
  exact resolveValue_alike h₁ (by exact trivial) (LiteralValue.lowered_string _ _) hdatatype

theorem resolveLiteral_alike (h : Like w w') {value : LiteralValue} (hsimple : value.Simple)
    (hlowered : value.Lowered) {datatype : UriResource}
    (hdatatype : w.view.Knows ⟨datatype.id, .uri datatype.uri⟩) :
    Alike Like Found (resolveLiteral value datatype w) (resolveLiteral value datatype w') := by
  cases value with
  | string content language => exact resolveValue_alike h hsimple hlowered hdatatype
  | int i => exact resolveValue_alike h hsimple hlowered hdatatype
  | boolean b => exact resolveValue_alike h hsimple hlowered hdatatype
  | double x => exact hsimple.elim
  | date m => exact hsimple.elim

theorem createLiteral_alike (h : Like w w') {value : LiteralValue} (hsimple : value.Simple) :
    Alike Like Found (createLiteral value w) (createLiteral value w') := by
  cases value with
  | string content language => exact createString_alike h content language
  | int i =>
      refine (createDatatype_alike h _).bind ?_
      rintro datatype datatype' w₁ w₁' - - ⟨rfl, hdatatype⟩ h₁
      exact resolveLiteral_alike h₁ hsimple rfl hdatatype
  | boolean b =>
      refine (createDatatype_alike h _).bind ?_
      rintro datatype datatype' w₁ w₁' - - ⟨rfl, hdatatype⟩ h₁
      exact resolveLiteral_alike h₁ hsimple rfl hdatatype
  | double x => exact hsimple.elim
  | date m => exact hsimple.elim

theorem lowered_of_read {datatype content : String} {value : LiteralValue}
    (h : LiteralValue.read datatype content = some value) : value.Lowered := by
  unfold LiteralValue.read at h
  dsimp only at h
  split at h
  · obtain ⟨x, -, rfl⟩ := Option.map_eq_some_iff.mp h
    rfl
  · obtain ⟨x, -, rfl⟩ := Option.map_eq_some_iff.mp h
    rfl
  · obtain ⟨x, -, rfl⟩ := Option.map_eq_some_iff.mp h
    rfl
  · obtain ⟨x, -, rfl⟩ := Option.map_eq_some_iff.mp h
    rfl
  · obtain rfl := Option.some.inj h
    rfl

theorem createTyped_alike (h : Like w w') {content datatype : String}
    (hsimple : ∀ value, LiteralValue.read datatype content = some value → value.Simple) :
    Alike Like Found (createTyped content datatype w) (createTyped content datatype w') := by
  unfold createTyped
  cases hread : LiteralValue.read datatype content with
  | none => exact createString_alike h content none
  | some value =>
      refine (createDatatype_alike h _).bind ?_
      rintro datatype datatype' w₁ w₁' - - ⟨rfl, hdatatype⟩ h₁
      exact resolveLiteral_alike h₁ (hsimple value hread) (lowered_of_read hread) hdatatype

end Action

/-- Whether an operation may be given a node: it is the node of a row, or a plain one
that is not stored yet. -/
def Tables.Accepts (t : Tables) (n : Node) : Prop :=
  t.Knows n ∨ n.isPersisted = false ∧ n.term.Plain

namespace Action

theorem convert_alike (h : Like w w') {n : Node} (hn : w.view.Accepts n) :
    Alike Like Found (convert n w) (convert n w') := by
  unfold convert
  rcases hn with hknows | ⟨hnew, hplain⟩
  · have hpersisted : n.isPersisted = true := by
      simpa [Node.isPersisted] using h.left.view.nonneg_of_knows hknows
    rw [if_pos hpersisted]
    exact .ok ⟨rfl, hknows⟩ h
  · rw [if_neg (by simp [hnew])]
    obtain ⟨id, term⟩ := n
    cases term with
    | uri uri => exact (createUri_alike h uri).imp fun v v' x x' _ _ hv => hv.1
    | blank label => exact createBlank_alike h (some label)
    | literal l =>
        refine (createDatatype_alike h _).bind ?_
        rintro datatype datatype' w₁ w₁' - - ⟨rfl, hdatatype⟩ h₁
        exact resolveLiteral_alike h₁ hplain.1 hplain.2 hdatatype

end Action
end QuadStore
