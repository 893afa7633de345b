import QuadStore.Proofs.StatementWork

namespace QuadStore

namespace Tables

variable {t t' : Tables} {n : Node} {id : Int}

/-- Whether a node is stored under an id. Of a literal that has no id of
its own nothing is said. -/
def StoresAs (t : Tables) (n : Node) (id : Int) : Prop :=
  n.isPersisted = true ∨ n.isResource = true → t.storedId? n = some id

theorem HoldsNode.mono (h : t.HoldsNode n) (hnodes : ∀ r ∈ t.nodes, r ∈ t'.nodes) :
    t'.HoldsNode n := by
  obtain ⟨r, hr, hholds⟩ := h
  exact ⟨r, hnodes r hr, hholds⟩

theorem storesAs_of_holdsNode (hsound : t.Sound) (hnew : n.isPersisted = false)
    (h : t.HoldsNode (n.withId id)) : t.StoresAs n id := by
  have resource_eq : ∀ {r : NodeRow} {kind name : String}, r ∈ t.nodes → r.id = id →
      r.kind = kind → r.lexical = name → r.isResource = true →
      (t.resource? kind name).map NodeRow.id = some id := by
    intro r kind name hr hid hkind hlexical hresource
    cases hfind : t.resource? kind name with
    | none =>
        have hnone := List.find?_eq_none.mp hfind r hr
        simp [hkind, hlexical] at hnone
    | some r' =>
        have hspec := List.find?_some hfind
        simp only [Bool.and_eq_true, beq_iff_eq] at hspec
        have heq := hsound.resources r hr r' (List.mem_of_find?_eq_some hfind) hresource
          (hkind.trans hspec.1.symm) (hlexical.trans hspec.2.symm)
        rw [← heq, Option.map_some, hid]
  intro hresource
  obtain ⟨r, hr, hid, hterm⟩ := h
  rw [storedId?, if_neg (by simp [hnew])]
  obtain ⟨id', term⟩ := n
  cases term with
  | uri uri =>
      obtain ⟨hkind, hlexical⟩ := hterm
      exact resource_eq hr hid hkind hlexical (by simp [NodeRow.isResource, hkind])
  | blank label =>
      obtain ⟨hkind, hlexical⟩ := hterm
      exact resource_eq hr hid hkind hlexical (by simp [NodeRow.isResource, hkind])
  | literal l =>
      rcases hresource with hpersisted | hresource
      · cases hnew.symm.trans hpersisted
      · cases hvalue : l.value <;>
          simp [Node.isResource, Node.isUri, Node.isBlank, Node.kind, hvalue, LiteralValue.kind]
            at hresource

theorem StoresAs.uri {uri : String} (h : t.StoresAs n id) (hsound : t.Sound)
    (hterm : n.term = .uri uri) (hholds : t.HoldsNode ⟨n.id, .uri uri⟩) :
    t.StoresAs (.uri uri) id := by
  have hresource : n.isResource = true := by
    simp [Node.isResource, Node.isUri, Node.kind, hterm]
  have hid := h (.inr hresource)
  rw [storedId?] at hid
  cases hnew : n.isPersisted with
  | true =>
      rw [if_pos hnew] at hid
      rw [← Option.some.inj hid]
      exact storesAs_of_holdsNode hsound rfl hholds
  | false =>
      rw [if_neg (by simp [hnew]), rowOf?, hterm] at hid
      exact fun _ => hid

theorem StoresAs.mono (h : t.StoresAs n id) (hnodes : ∀ r ∈ t.nodes, r ∈ t'.nodes)
    (hsound : t'.Sound) : t'.StoresAs n id := by
  intro hn
  cases hnew : n.isPersisted with
  | true => simpa [storedId?, hnew] using h hn
  | false =>
      have hrow := h hn
      rw [storedId?, if_neg (by simp [hnew])] at hrow
      obtain ⟨r, hr, rfl⟩ := Option.map_eq_some_iff.mp hrow
      obtain ⟨hmem, hholds⟩ := rowOf?_eq_some hr
      exact storesAs_of_holdsNode hsound hnew ⟨r, hnodes r hmem, hholds⟩ hn

/-- Whether the nodes of the slots are stored under the ids of a key. -/
structure StoresSlots (t : Tables) (subject predicate object context : Node) (k : StatementKey) :
    Prop where
  subject : t.StoresAs subject k.subject
  predicate : t.StoresAs predicate k.predicate
  object : t.StoresAs object k.object
  context : t.StoresAs context k.context

end Tables

theorem checkSlots_eq_ok_iff {subject predicate context : Node} :
    checkSlots subject predicate (some context) = .ok () ↔
      subject.isResource = true ∧ predicate.isUri = true ∧ context.isResource = true := by
  cases hs : subject.isResource <;> cases hp : predicate.isUri <;>
      cases hc : context.isResource <;>
    simp [checkSlots, hs, hp, hc, throw, throwThe, MonadExceptOf.throw, bind, Except.bind, pure,
      Except.pure]

theorem checkSlots_getD {subject predicate : Node} {context : Option Node}
    (h : checkSlots subject predicate context = .ok ()) (uri : String) :
    checkSlots subject predicate (some (context.getD (.uri uri))) = .ok () := by
  cases context with
  | some c => exact h
  | none =>
      have hresource : (Node.uri uri).isResource = true := rfl
      rw [← h]
      simp [checkSlots, hresource]

namespace Action

variable {w w' : Workspace}

theorem storeNode_eq_ok {n m : Node} (hnew : n.isPersisted = false)
    (h : storeNode n w = .ok m w') : m.term = n.term ∧ w'.view.HoldsNode (n.withId m.id) := by
  unfold storeNode at h
  rw [if_neg (by simp [hnew])] at h
  obtain ⟨_, w₁, -, h⟩ := bind_eq_ok_iff.mp h
  obtain ⟨_, w₂, hbegin, h⟩ := bind_eq_ok_iff.mp h
  obtain ⟨id, w₃, -, h⟩ := bind_eq_ok_iff.mp h
  obtain ⟨tables, w₄, hview, h⟩ := bind_eq_ok_iff.mp h
  obtain ⟨hinsert, rfl⟩ := view_eq_ok_iff.mp hview
  cases tables with
  | some tables =>
      obtain ⟨rfl, -⟩ := Tables.insertNode?_eq_some hinsert
      cases h
      exact ⟨rfl, .ofNode id n, List.mem_append_right _ (by simp), holds_ofNode id n⟩
  | none =>
      obtain ⟨existing, w₅, hload, h⟩ := bind_eq_ok_iff.mp h
      cases existing with
      | none => cases h
      | some existing =>
          cases h
          have hholds := (holdsNode_of_loadNode hload).2
          rw [← ((loadNode_reads n).ok hload).view_eq] at hholds
          exact ⟨rfl, hholds⟩

theorem loadOrStore_eq_ok {n m : Node} (hnew : n.isPersisted = false)
    (h : loadOrStore n w = .ok m w') : w'.view.HoldsNode (n.withId m.id) := by
  obtain ⟨found, w₁, hload, h⟩ := bind_eq_ok_iff.mp h
  cases found with
  | none => exact (storeNode_eq_ok hnew h).2
  | some stored =>
      obtain ⟨_, w₂, hcache, h⟩ := bind_eq_ok_iff.mp h
      obtain ⟨rfl, rfl⟩ := pure_eq_ok_iff.mp h
      have hreads : Reads w₁ w₂ := by
        have hstored : w₁.view.HoldsNode stored := by
          rw [((loadNode_reads n).ok hload).view_eq]
          exact (holdsNode_of_loadNode hload).1
        simpa [hcache] using cacheNode_reads (w := w₁) fun _ => hstored
      rw [hreads.view_eq, ((loadNode_reads n).ok hload).view_eq]
      exact (holdsNode_of_loadNode hload).2

theorem term_of_loadOrStore {n m : Node} (hnew : n.isPersisted = false)
    (hresource : n.term.isResource = true) (h : loadOrStore n w = .ok m w') :
    m.term = n.term := by
  obtain ⟨found, w₁, hload, h⟩ := bind_eq_ok_iff.mp h
  cases found with
  | none => exact (storeNode_eq_ok hnew h).1
  | some stored =>
      obtain ⟨_, w₂, -, h⟩ := bind_eq_ok_iff.mp h
      obtain ⟨rfl, -⟩ := pure_eq_ok_iff.mp h
      have hrel := rel_of_loadNode hload
      cases hrow : w.view.rowOf? n with
      | none =>
          rw [hrow] at hrel
          cases hrel
      | some row =>
          rw [hrow] at hrel
          cases hrel with
          | some hholds =>
              obtain ⟨-, hown⟩ := Tables.rowOf?_eq_some hrow
              exact NodeRow.Holds.term_eq (m := n.withId row.id) hholds hown hresource

theorem holdsNode_of_committed {n : Node} (hgood : w.Good)
    (h : w.database.committed.HoldsNode n) : w.view.HoldsNode n :=
  h.mono hgood.nodes

theorem createUri_eq_ok {uri : String} {m : Node} (hgood : w.Good)
    (h : createUri uri w = .ok m w') :
    m.term = .uri uri ∧ w'.view.HoldsNode ⟨m.id, .uri uri⟩ := by
  obtain ⟨_, w₁, hget, h⟩ := bind_eq_ok_iff.mp h
  obtain ⟨rfl, rfl⟩ := get_eq_ok_iff.mp hget
  cases hcached : w.store.caches.uri.get? uri with
  | none =>
      rw [hcached] at h
      exact ⟨term_of_loadOrStore rfl rfl h, loadOrStore_eq_ok rfl h⟩
  | some cached =>
      rw [hcached] at h
      obtain ⟨rfl, rfl⟩ := pure_eq_ok_iff.mp h
      obtain ⟨hterm, hholds⟩ := hgood.coherent.caches.uri uri cached hcached
      refine ⟨hterm, ?_⟩
      rw [← hterm]
      exact holdsNode_of_committed hgood hholds

theorem createBlank_eq_ok {label : String} {m : Node} (hgood : w.Good)
    (h : createBlank (some label) w = .ok m w') :
    m.term = .blank label ∧ w'.view.HoldsNode ⟨m.id, .blank label⟩ := by
  obtain ⟨_, w₁, hlabel, h⟩ := bind_eq_ok_iff.mp h
  obtain ⟨rfl, rfl⟩ := pure_eq_ok_iff.mp hlabel
  obtain ⟨_, w₁, hget, h⟩ := bind_eq_ok_iff.mp h
  obtain ⟨rfl, rfl⟩ := get_eq_ok_iff.mp hget
  cases hcached : w.store.caches.blank.get? label with
  | none =>
      rw [hcached] at h
      exact ⟨term_of_loadOrStore rfl rfl h, loadOrStore_eq_ok rfl h⟩
  | some cached =>
      rw [hcached] at h
      obtain ⟨rfl, rfl⟩ := pure_eq_ok_iff.mp h
      obtain ⟨hterm, hholds⟩ := hgood.coherent.caches.blank label cached hcached
      refine ⟨hterm, ?_⟩
      rw [← hterm]
      exact holdsNode_of_committed hgood hholds

theorem convert_eq_ok {n m : Node} (hgood : w.Good) (h : convert n w = .ok m w') :
    w'.view.StoresAs n m.id := by
  have hsound := (((convert_silent n).ok h).good hgood).sound
  unfold convert at h
  cases hnew : n.isPersisted with
  | true =>
      rw [if_pos hnew] at h
      obtain ⟨rfl, -⟩ := pure_eq_ok_iff.mp h
      intro _
      rw [Tables.storedId?, if_pos hnew]
  | false =>
      rw [if_neg (by simp [hnew])] at h
      obtain ⟨id, term⟩ := n
      cases term with
      | uri uri => exact Tables.storesAs_of_holdsNode hsound hnew (createUri_eq_ok hgood h).2
      | blank label =>
          exact Tables.storesAs_of_holdsNode hsound hnew (createBlank_eq_ok hgood h).2
      | literal l =>
          rintro (hpersisted | hresource)
          · cases hnew.symm.trans hpersisted
          · cases hvalue : l.value <;>
              simp [Node.isResource, Node.isUri, Node.isBlank, Node.kind, hvalue,
                LiteralValue.kind] at hresource

/-- The workspace after the transaction of the connection has registered an id. -/
def withRegistered (w : Workspace) (key : StatementKey) (id : Int) : Workspace :=
  let changed := w.store.registry.register w.registryFile key w.conn.transaction id
  { w with store := { w.store with registry := changed.1 }, registryFile := changed.2 }

/-- The id that is registered for a key. -/
def registered? (w : Workspace) (key : StatementKey) : Option Int :=
  w.store.registry.lookup? w.registryFile key

/-- Where the id of a statement has come from, and what is left of the workspace. -/
inductive Identified (w : Workspace) (key : StatementKey) (id : Int) : Workspace → Prop
  /-- It was registered. -/
  | shared (h : registered? w key = some id) : Identified w key id (withRegistered w key id)
  /-- It is the id of the live row. -/
  | stored {w' : Workspace} (h : registered? w key = none)
      (hrow : ∃ r ∈ w.view.statements, r.live = true ∧ r.key = key ∧ r.id = id)
      (hw : Reads w w') : Identified w key id w'
  /-- It is the next one of the counter. -/
  | minted (h : registered? w key = none) (hnew : key ∉ w.view.members)
      (hid : id = w.store.counters.statements + 1) :
      Identified w key id (withRegistered
        { w with store := { w.store with counters := w.store.counters.next .statements } } key id)

theorem withRegistered_quiet (w : Workspace) (key : StatementKey) (id : Int) :
    Quiet w (withRegistered w key id) :=
  registerId_quiet key id w

theorem Identified.quiet {key : StatementKey} {id : Int} (h : Identified w key id w') :
    Quiet w w' := by
  cases h with
  | shared h => exact withRegistered_quiet w key id
  | stored h hrow hw => exact hw.silent.toQuiet
  | minted h hnew hid =>
      exact IsTrans.trans _ _ _ (nextId_quiet .statements (by simp) w)
        (withRegistered_quiet _ key id)

theorem key_of_loadStatement {id : Int} {found : Option Statement} (hgood : w.Good)
    (h : loadStatement id w = .ok found w') {t : Statement} (hfound : found = some t)
    {r : StatementRow} (hr : r ∈ w.view.statements) (hid : r.id = id) : t.key = r.key := by
  obtain ⟨_, w₁, hget, h⟩ := bind_eq_ok_iff.mp h
  obtain ⟨rfl, rfl⟩ := get_eq_ok_iff.mp hget
  cases hcached : w.store.caches.statement.get? id with
  | some cached =>
      rw [hcached] at h
      obtain ⟨rfl, -⟩ := pure_eq_ok_iff.mp h
      obtain rfl := Option.some.inj hfound
      obtain ⟨-, r', hr', hholds⟩ := hgood.coherent.caches.statement id _ hcached
      obtain ⟨r'', hr'', hbecomes⟩ := hgood.evolves r' hr'
      have hrow : r'' = r := by
        apply hgood.sound.row_eq hr'' hr
        rw [hbecomes.id, hholds.id, hid]
        exact (hgood.coherent.caches.statement id _ hcached).1
      rw [← hrow, hbecomes.key, hholds.key]
  | none =>
      rw [hcached] at h
      obtain ⟨row, w₂, hload, h⟩ := bind_eq_ok_iff.mp h
      obtain ⟨hfind, rfl⟩ := view_eq_ok_iff.mp hload
      cases row with
      | none =>
          obtain ⟨rfl, -⟩ := pure_eq_ok_iff.mp h
          cases hfound
      | some row =>
          obtain ⟨t', w₃, ht, h⟩ := bind_eq_ok_iff.mp h
          obtain ⟨_, w₄, -, h⟩ := bind_eq_ok_iff.mp h
          obtain ⟨rfl, -⟩ := pure_eq_ok_iff.mp h
          obtain rfl := Option.some.inj hfound
          have hrow : row = r := by
            apply hgood.sound.row_eq (List.mem_of_find?_eq_some hfind) hr
            rw [hid]
            simpa using List.find?_some hfind
          rw [(statementOfRow_eq_ok hgood.coherent.caches.keyed ht).2.1, hrow]

theorem identifyShared_cases {t t' : Statement} (h : identifyShared t w = .ok t' w') :
    (∃ id, registered? w t.key = some id ∧ t' = { t with id } ∧ w' = withRegistered w t.key id) ∨
    registered? w t.key = none ∧
      ((∃ id stored, liveStatementId t.key w = .ok (some id) w ∧
        loadStatement id w = .ok stored w' ∧
        t' = { stored.getD t with id }) ∨
      (liveStatementId t.key w = .ok none w ∧ ∃ id, id = w.store.counters.statements + 1 ∧
        t' = { t with id, isNew := true } ∧ w' = withRegistered
          { w with store := { w.store with counters := w.store.counters.next .statements } }
            t.key id)) := by
  obtain ⟨registered, w₁, hregistered, h⟩ := bind_eq_ok_iff.mp h
  obtain ⟨hlookup, rfl⟩ : registered? w t.key = registered ∧ w = w₁ := by
    cases hregistered
    exact ⟨rfl, rfl⟩
  cases registered with
  | some id =>
      cases h
      exact .inl ⟨id, hlookup, rfl, rfl⟩
  | none =>
      refine .inr ⟨hlookup, ?_⟩
      obtain ⟨live, w₂, hlive, h⟩ := bind_eq_ok_iff.mp h
      obtain rfl : w = w₂ := (view_eq_ok_iff.mp hlive).2
      cases live with
      | some id =>
          obtain ⟨stored, w₃, hload, h⟩ := bind_eq_ok_iff.mp h
          obtain ⟨rfl, rfl⟩ := pure_eq_ok_iff.mp h
          exact .inl ⟨id, stored, hlive, hload, rfl⟩
      | none =>
          cases h
          exact .inr ⟨hlive, _, rfl, rfl, rfl⟩

theorem identifyShared_eq_ok {t t' : Statement} (hgood : w.Good)
    (h : identifyShared t w = .ok t' w') : t'.key = t.key ∧ Identified w t.key t'.id w' := by
  rcases identifyShared_cases h with
    ⟨id, hlookup, rfl, rfl⟩ |
      ⟨hnone, ⟨id, stored, hlive, hload, rfl⟩ | ⟨hlive, id, hid, rfl, rfl⟩⟩
  · exact ⟨rfl, .shared hlookup⟩
  · obtain ⟨r, hr, hrlive, hkey, hid⟩ := liveStatementId_eq_some hlive rfl
    refine ⟨?_, .stored hnone ⟨r, hr, hrlive, hkey, hid⟩ ((loadStatement_reads id).ok hload)⟩
    cases stored with
    | none => rfl
    | some stored => exact (key_of_loadStatement hgood hload rfl hr hid).trans hkey
  · exact ⟨rfl, .minted hnone (liveStatementId_eq_none hlive) hid⟩

theorem identifyShared_failing (t : Statement) : KeepsFailing Reads (identifyShared t) := by
  refine .bind (registeredId_reads _) fun registered => ?_
  cases registered with
  | some id =>
      intro w e w' h
      cases h
  | none =>
      refine .bind (keeps_view _) fun live => ?_
      cases live with
      | some id => exact .bind (loadStatement_reads id) fun _ => (Keeps.pure _).failing
      | none =>
          intro w e w' h
          cases h

theorem identifyMade_eq_ok {subject predicate object context : Node} {t : Statement}
    (hgood : w.Good)
    (h : (do
      identifyShared (← ofStatement (Statement.make subject predicate object (some context))) :
        Action Statement) w = .ok t w') :
    t.key = ⟨subject.id, predicate.id, object.id, context.id⟩ ∧ Identified w t.key t.id w' := by
  obtain ⟨made, w₁, hof, h⟩ := bind_eq_ok_iff.mp h
  obtain ⟨hmade, rfl⟩ := ofStatement_eq_ok_iff.mp hof
  obtain ⟨hkey, hidentified⟩ := identifyShared_eq_ok hgood h
  rw [← hkey] at hidentified
  refine ⟨?_, hidentified⟩
  rw [hkey, make_eq_ok hmade]
  rfl

theorem storesAs_later {n : Node} {id : Int} (hsilent : Silent w w') (hgood : w.Good)
    (h : w.view.StoresAs n id) : w'.view.StoresAs n id :=
  h.mono hsilent.nodes (hsilent.good hgood).sound

theorem createStatement_checks {subject predicate object : Node} {context : Option Node}
    {t : Statement} (h : createStatement subject predicate object context w = .ok t w') :
    checkSlots subject predicate context = .ok () := by
  obtain ⟨_, w₁, hcheck, -⟩ := bind_eq_ok_iff.mp h
  exact (ofStatement_eq_ok_iff.mp hcheck).1

/-- How a statement is made: its nodes are converted one after the other, the context last, and
then it is identified. What is known of a node and its id when it has been converted is known in
the end, if the steps that come after it keep that. -/
theorem createStatement_made {subject predicate object : Node} {context : Option Node}
    {t : Statement} {I : Workspace → Prop} {P : Workspace → Node → Int → Prop} (uri : String)
    (hstart : I w)
    (hconvert : ∀ n ∈ [subject, predicate, object] ++ context.toList, ∀ w₁ m w₂, I w₁ →
      convert n w₁ = .ok m w₂ → I w₂ ∧ P w₂ n m.id ∧ ∀ n id, P w₁ n id → P w₂ n id)
    (hdefault : ∀ w₁ m w₂, I w₁ →
      createUri w₁.store.config.defaultContext w₁ = .ok m w₂ →
        I w₂ ∧ P w₂ (.uri uri) m.id ∧ ∀ n id, P w₁ n id → P w₂ n id)
    (h : createStatement subject predicate object context w = .ok t w') :
    ∃ s p o c w₁, I w₁ ∧ P w₁ subject s.id ∧ P w₁ predicate p.id ∧ P w₁ object o.id ∧
      P w₁ (context.getD (.uri uri)) c.id ∧
      (do identifyShared (← ofStatement (Statement.make s p o (some c))) : Action Statement) w₁ =
        .ok t w' := by
  obtain ⟨_, w₁, hcheck, h⟩ := bind_eq_ok_iff.mp h
  obtain ⟨-, rfl⟩ := ofStatement_eq_ok_iff.mp hcheck
  obtain ⟨s, w₁, hs, h⟩ := bind_eq_ok_iff.mp h
  obtain ⟨p, w₂, hp, h⟩ := bind_eq_ok_iff.mp h
  obtain ⟨o, w₃, ho, h⟩ := bind_eq_ok_iff.mp h
  obtain ⟨h₁, hsubject, -⟩ := hconvert subject (by simp) w s w₁ hstart hs
  obtain ⟨h₂, hpredicate, later₂⟩ := hconvert predicate (by simp) w₁ p w₂ h₁ hp
  obtain ⟨h₃, hobject, later₃⟩ := hconvert object (by simp) w₂ o w₃ h₂ ho
  obtain ⟨c, w₄, ⟨h₄, hcontext, later₄⟩, hmade⟩ : ∃ c w₄,
      (I w₄ ∧ P w₄ (context.getD (.uri uri)) c.id ∧ ∀ n id, P w₃ n id → P w₄ n id) ∧
      (do identifyShared (← ofStatement (Statement.make s p o (some c))) : Action Statement) w₄ =
        .ok t w' := by
    cases context with
    | some c =>
        obtain ⟨c', w₄, hc, h⟩ := bind_eq_ok_iff.mp h
        exact ⟨c', w₄, hconvert c (by simp) w₃ c' w₄ h₃ hc, h⟩
    | none =>
        obtain ⟨_, w₄, hget, h⟩ := bind_eq_ok_iff.mp h
        obtain ⟨rfl, rfl⟩ := get_eq_ok_iff.mp hget
        obtain ⟨c, w₄, hc, h⟩ := bind_eq_ok_iff.mp h
        exact ⟨c, w₄, hdefault w₃ c w₄ h₃ hc, h⟩
  refine ⟨s, p, o, c, w₄, h₄, ?_, ?_, later₄ _ _ hobject, hcontext, hmade⟩
  · exact later₄ _ _ (later₃ _ _ (later₂ _ _ hsubject))
  · exact later₄ _ _ (later₃ _ _ hpredicate)

/-- The statement that is made for some nodes has their ids and one of its own. -/
theorem createStatement_eq_ok {subject predicate object : Node} {context : Option Node}
    {t : Statement} (hgood : w.Good)
    (h : createStatement subject predicate object context w = .ok t w') :
    ∃ w₁, Silent w w₁ ∧ Identified w₁ t.key t.id w' ∧
      w₁.view.StoresSlots subject predicate object
        (context.getD (.uri w.store.config.defaultContext)) t.key := by
  have ⟨s, p, o, c, w₁, hsilent, hsubject, hpredicate, hobject, hcontext, hmade⟩ :=
    createStatement_made (I := Silent w) (P := fun w n id => w.view.StoresAs n id)
      w.store.config.defaultContext (refl w) (fun n _ w₁ m w₂ h₁ hm => ?_)
      (fun w₁ m w₂ h₁ hm => ?_) h
  · obtain ⟨hkey, hidentified⟩ := identifyMade_eq_ok (hsilent.good hgood) hmade
    refine ⟨w₁, hsilent, hidentified, ?_⟩
    rw [hkey]
    exact ⟨hsubject, hpredicate, hobject, hcontext⟩
  · have hgood₁ := h₁.good hgood
    have hsilent := (convert_silent n).ok hm
    exact ⟨IsTrans.trans _ _ _ h₁ hsilent, convert_eq_ok hgood₁ hm,
      fun _ _ => storesAs_later hsilent hgood₁⟩
  · have hgood₁ := h₁.good hgood
    have hsilent := (createUri_silent _).ok hm
    refine ⟨IsTrans.trans _ _ _ h₁ hsilent, ?_, fun _ _ => storesAs_later hsilent hgood₁⟩
    apply Tables.storesAs_of_holdsNode (hsilent.good hgood₁).sound rfl
    rw [← h₁.config]
    exact (createUri_eq_ok hgood₁ hm).2

theorem createStatement_failing (subject predicate object : Node) (context : Option Node) :
    KeepsFailing Silent (createStatement subject predicate object context) := by
  have identify_failing : ∀ s p o c, KeepsFailing Silent (do
      identifyShared (← ofStatement (Statement.make s p o (some c))) : Action Statement) :=
    fun _ _ _ _ => .bind (keeps_ofStatement _) fun t =>
      (identifyShared_failing t).mono fun _ _ => Reads.silent
  refine .bind (keeps_ofStatement _) fun _ => ?_
  refine .bind (convert_silent _) fun _ => ?_
  refine .bind (convert_silent _) fun _ => ?_
  refine .bind (convert_silent _) fun _ => ?_
  cases context with
  | some c => exact .bind (convert_silent c) fun _ => identify_failing _ _ _ _
  | none =>
      refine .bind keeps_get fun w => ?_
      exact .bind (createUri_silent _) fun _ => identify_failing _ _ _ _

end Action
end QuadStore
