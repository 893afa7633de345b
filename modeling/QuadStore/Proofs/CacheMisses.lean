import QuadStore.Proofs.FaithfulCaches
import QuadStore.Proofs.KnownNodes

namespace QuadStore

theorem Tables.Sound.statementById?_eq {t : Tables} (h : t.Sound) {r : StatementRow}
    (hr : r ∈ t.statements) : t.statementById? r.id = some r := by
  cases hfind : t.statementById? r.id with
  | none =>
      have hnone := List.find?_eq_none.mp hfind r hr
      simp at hnone
  | some r' =>
      rw [h.row_eq (List.mem_of_find?_eq_some hfind) hr (by simpa using List.find?_some hfind)]

theorem Like.alike {α : Type} {a : Action α}
    {Q : α → α → Workspace → Prop} {w w' x x' : Workspace}
    {v v' : α} (h : Like w w') (ha : a w = .ok v x) (hx : Looked w x) (ha' : a w' = .ok v' x')
    (hx' : Looked w' x') (hQ : Q v v' x) : Alike Like Q (a w) (a w') := by
  rw [ha, ha']
  exact .ok hQ (h.looked hx hx')

theorem Agrees.looked {α : Type} {a : Action α} {Q : α → α → Workspace → Prop} {w : Workspace}
    (h : Agrees Like Q a) (hreads : Keeps Reads a) (hw : w.Ready) : Looked w (finalState (a w)) :=
  ⟨(hreads w).caching, (h w w (.refl hw)).states.left⟩

theorem Agrees.looked_ok {α : Type} {a : Action α}
    {Q : α → α → Workspace → Prop} {w w' : Workspace}
    {v : α} (h : Agrees Like Q a) (hreads : Keeps Reads a) (hw : w.Ready) (ha : a w = .ok v w') :
    Looked w w' := by
  simpa [ha] using h.looked hreads hw

namespace Action

variable {w w' : Workspace}

theorem agrees_view {α : Type} (f : Tables → α) : Agrees Like Same (view f) :=
  fun _ _ h => .ok (congrArg f h.view) h

theorem agrees_ofData {α : Type} (x : Except DataFault α) : Agrees Like Same (ofData x) := by
  cases x with
  | ok v => exact .pure v
  | error fault => exact .throw _

theorem agrees_ofStatement {α : Type} (x : Except StatementFault α) :
    Agrees Like Same (ofStatement x) := by
  cases x with
  | ok v => exact .pure v
  | error fault => exact .throw _

theorem agrees_ofExcept {α : Type} (x : Except StoreError α) : Agrees Like Same (ofExcept x) := by
  cases x with
  | ok v => exact .pure v
  | error e => exact .throw e

theorem observes_looked (_ : w.Ready) : Observes w.view (Looked w) where
  good hw := hw.ready.toGood
  view hw := hw.view_eq
  cached hw := hw.ready.caches.node
  cacheNode hw hn := by
    obtain ⟨w', hcache, hlooked⟩ := cacheNode_eq hw.ready (hw.view_eq ▸ hn)
    exact ⟨w', hcache, hw.trans hlooked⟩

theorem resolveNode_eq (h : w.Ready) {id : Int} {r : NodeRow} {n : Node}
    (hfind : w.view.nodeById? id = some r) (hshows : w.view.Shows r n) :
    ∃ w', resolveNode id w = .ok (some n) w' ∧ Looked w w' :=
  resolveNode_shown (observes_looked h) (.refl h) hfind hshows

theorem resolveNode_eq_none (h : w.Ready) {id : Int} (hfind : w.view.nodeById? id = none) :
    resolveNode id w = .ok none w :=
  resolveNode_absent (observes_looked h) (.refl h) hfind

theorem resolveNode_agrees (id : Int) : Agrees Like Same (resolveNode id) := by
  intro w w' h
  cases hfind : w.view.nodeById? id with
  | none =>
      have hfind' : w'.view.nodeById? id = none := h.view ▸ hfind
      exact h.alike (resolveNode_eq_none h.left hfind) (.refl h.left)
        (resolveNode_eq_none h.right hfind') (.refl h.right) rfl
  | some r =>
      obtain ⟨n, hshows, -⟩ := h.left.view.shown r (List.mem_of_find?_eq_some hfind)
      obtain ⟨x, hx, hlooked⟩ := resolveNode_eq h.left hfind hshows
      obtain ⟨x', hx', hlooked'⟩ := resolveNode_eq h.right (h.view ▸ hfind) (h.view ▸ hshows)
      exact h.alike hx hlooked hx' hlooked' rfl

theorem knows_of_resolveNode (h : w.Ready) {id : Int} {n : Node}
    (hn : resolveNode id w = .ok (some n) w') : w.view.Knows n ∧ n.id = id := by
  cases hfind : w.view.nodeById? id with
  | none =>
      rw [resolveNode_eq_none h hfind] at hn
      cases hn
  | some r =>
      have hr := List.mem_of_find?_eq_some hfind
      obtain ⟨m, hshows, -⟩ := h.view.shown r hr
      obtain ⟨x, hx, -⟩ := resolveNode_eq h hfind hshows
      rw [hx] at hn
      cases hn
      refine ⟨⟨r, hr, hshows⟩, hshows.id.trans ?_⟩
      simpa using List.find?_some hfind

theorem requireNode_agrees (id : Int) : Agrees Like Same (requireNode id) := by
  refine (resolveNode_agrees id).bind fun n => ?_
  split
  · exact .pure _
  · exact .throw _

theorem knows_of_requireNode (h : w.Ready) {id : Int} {n : Node}
    (hn : requireNode id w = .ok n w') : w.view.Knows n ∧ n.id = id ∧ Looked w w' := by
  have hlooked := (requireNode_agrees id).looked_ok (requireNode_reads id) h hn
  obtain ⟨found, w₁, hfound, hn⟩ := bind_eq_ok_iff.mp hn
  cases found with
  | none => cases hn
  | some m =>
      obtain ⟨rfl, -⟩ := pure_eq_ok_iff.mp hn
      obtain ⟨hknows, hid⟩ := knows_of_resolveNode h hfound
      exact ⟨hknows, hid, hlooked⟩

theorem requireNode_eq (h : w.Ready) {n : Node} (hn : w.view.Knows n) :
    ∃ w', requireNode n.id w = .ok n w' ∧ Looked w w' := by
  obtain ⟨r, hr, hshows⟩ := hn.shows h.sound
  obtain ⟨w', hresolve, hlooked⟩ := resolveNode_eq h hr hshows
  exact ⟨w', by rw [requireNode, bind_of_ok hresolve]; rfl, hlooked⟩

theorem loadNode_eq (h : w.Ready) {n m : Node} {r : NodeRow} (hrow : w.view.rowOf? n = some r)
    (hshows : w.view.Shows r m) : ∃ w', loadNode n w = .ok (some m) w' ∧ Looked w w' :=
  loadNode_shown (observes_looked h) (.refl h) hrow hshows

theorem loadNode_agrees (n : Node) : Agrees Like Same (loadNode n) := by
  intro w w' h
  cases hrow : w.view.rowOf? n with
  | none =>
      exact h.alike (loadNode_eq_none hrow) (.refl h.left) (loadNode_eq_none (h.view ▸ hrow))
        (.refl h.right) rfl
  | some r =>
      obtain ⟨m, hshows, -⟩ := h.left.view.shown r (Tables.rowOf?_eq_some hrow).1
      obtain ⟨x, hx, hlooked⟩ := loadNode_eq h.left hrow hshows
      obtain ⟨x', hx', hlooked'⟩ := loadNode_eq h.right (h.view ▸ hrow) (h.view ▸ hshows)
      exact h.alike hx hlooked hx' hlooked' rfl

theorem nodeId_agrees (n : Node) : Agrees Like Same (nodeId n) := by
  unfold nodeId
  split
  · exact .pure _
  · exact (loadNode_agrees n).bind fun _ => .pure _

/-- The creator that a row of a statement refers to. -/
def creatorOf (r : StatementRow) : Action (Option Node) :=
  match r.creator with
  | some id => resolveNode id
  | none => pure none

/-- The statement that a row is read as when its nodes have been found. -/
def assemble (r : StatementRow) (subject predicate object context : Node)
    (creator : Option Node) :
    Action Statement := do
  let t ← ofStatement (Statement.make subject predicate object (some context))
  ofData r.created.check
  ofData (r.deletedAt.forM Stamp.check)
  pure { t with
    id := r.id, creator, inferred := r.isInferred, deleted := !r.live,
    deletionTimed := r.deletedAt.isSome }

theorem statementOfRow_eq_assemble (r : StatementRow) : statementOfRow r = (do
    let subject ← requireNode r.subject
    let predicate ← requireNode r.predicate
    let object ← requireNode r.object
    let context ← requireNode r.context
    let creator ← creatorOf r
    assemble r subject predicate object context creator) := by
  unfold statementOfRow creatorOf
  cases r.creator <;> rfl

theorem creatorOf_agrees (r : StatementRow) : Agrees Like Same (creatorOf r) := by
  unfold creatorOf
  split
  · exact resolveNode_agrees _
  · exact .pure none

theorem assemble_agrees (r : StatementRow) (subject predicate object context : Node)
    (creator : Option Node) :
    Agrees Like Same (assemble r subject predicate object context creator) :=
  (agrees_ofStatement _).bind fun _ => (agrees_ofData _).bind fun _ =>
      (agrees_ofData _).bind fun _ =>
    .pure _

theorem statementOfRow_agrees (r : StatementRow) : Agrees Like Same (statementOfRow r) := by
  rw [statementOfRow_eq_assemble]
  refine (requireNode_agrees _).bind fun subject => ?_
  refine (requireNode_agrees _).bind fun predicate => ?_
  refine (requireNode_agrees _).bind fun object => ?_
  refine (requireNode_agrees _).bind fun context => ?_
  exact (creatorOf_agrees r).bind fun creator => assemble_agrees r _ _ _ _ creator

theorem slots_of_make {subject predicate object : Node} {context : Option Node} {t : Statement}
    (h : Statement.make subject predicate object context = .ok t) :
    checkSlots subject predicate context = .ok () := by
  unfold Statement.make at h
  cases hcheck : checkSlots subject predicate context with
  | ok u => rfl
  | error fault =>
      rw [hcheck] at h
      cases h

theorem shows_of_assemble {t : Tables} {r : StatementRow} {s : Statement}
    {subject predicate object context : Node} {creator : Option Node}
    (hsubject : t.Knows subject ∧ subject.id = r.subject)
    (hpredicate : t.Knows predicate ∧ predicate.id = r.predicate)
    (hobject : t.Knows object ∧ object.id = r.object)
    (hcontext : t.Knows context ∧ context.id = r.context)
    (hcreator : (∀ c, creator = some c → t.Knows c) ∧ creator.map Node.id = r.creator)
    (h : assemble r subject predicate object context creator w = .ok s w') :
    t.ShowsStatement r s ∧ s.plain = s := by
  obtain ⟨made, w₁, hmade, h⟩ := bind_eq_ok_iff.mp h
  obtain ⟨_, w₂, hcreated, h⟩ := bind_eq_ok_iff.mp h
  obtain ⟨_, w₃, hdeletedAt, h⟩ := bind_eq_ok_iff.mp h
  obtain ⟨rfl, -⟩ := pure_eq_ok_iff.mp h
  have hmade := (ofStatement_eq_ok_iff.mp hmade).1
  have hslots := slots_of_make hmade
  obtain rfl := make_eq_ok hmade
  refine ⟨⟨⟨hsubject.1, hpredicate.1, hobject.1, ⟨context, rfl, hcontext.1⟩,
    hcreator.1, hslots⟩, rfl, ?_,
    hcreator.2, rfl, rfl, rfl, (ofData_eq_ok_iff.mp hcreated).1,
      (ofData_eq_ok_iff.mp hdeletedAt).1⟩, rfl⟩
  simp [Statement.key, StatementRow.key, hsubject.2, hpredicate.2, hobject.2, hcontext.2]

theorem assemble_eq {t : Tables} {r : StatementRow} {s : Statement}
    (hshows : t.ShowsStatement r s) {c : Node} (hc : s.context = some c) (w : Workspace) :
    assemble r s.subject s.predicate s.object c s.creator w = .ok s.plain w := by
  have hmade : Statement.make s.subject s.predicate s.object (some c) = .ok {
      id := transientId, subject := s.subject, predicate := s.predicate, object := s.object,
      context := some c, creator := none, deleted := false, deletionTimed := false,
      inferred := false, isNew := false } := by
    rw [Statement.make, ← hc, hshows.slots]
    rfl
  unfold assemble
  rw [bind_of_ok (ofStatement_eq_ok_iff.mpr ⟨hmade, rfl⟩),
    bind_of_ok (ofData_eq_ok_iff.mpr ⟨hshows.created, rfl⟩),
    bind_of_ok (ofData_eq_ok_iff.mpr ⟨hshows.deletedAt, rfl⟩)]
  refine pure_eq_ok_iff.mpr ⟨?_, rfl⟩
  rw [← hc, ← hshows.id, ← hshows.inferred, ← hshows.deleted, ← hshows.timed]
  rfl

theorem knows_of_creatorOf (h : w.Ready) {r : StatementRow} (hr : r ∈ w.view.statements)
    {creator : Option Node} (hfound : creatorOf r w = .ok creator w') :
    (∀ c, creator = some c → w.view.Knows c) ∧ creator.map Node.id = r.creator := by
  unfold creatorOf at hfound
  cases hcreator : r.creator with
  | none =>
      rw [hcreator] at hfound
      obtain ⟨rfl, -⟩ := pure_eq_ok_iff.mp hfound
      exact ⟨by rintro c ⟨⟩, rfl⟩
  | some id =>
      rw [hcreator] at hfound
      obtain ⟨d, hd, rfl⟩ := h.view.creators r hr id hcreator
      obtain ⟨n, hshows, -⟩ := h.view.shown d hd
      obtain ⟨x, hresolve, -⟩ := resolveNode_eq h (h.sound.keyed.nodeById?_eq hd) hshows
      cases hresolve.symm.trans hfound
      obtain ⟨hknows, hid⟩ := knows_of_resolveNode h hresolve
      refine ⟨?_, by rw [Option.map_some, hid]⟩
      rintro c ⟨⟩
      exact hknows

theorem creatorOf_eq (h : w.Ready) {r : StatementRow} {creator : Option Node}
    (hcreator : ∀ c, creator = some c → w.view.Knows c) (hid : creator.map Node.id = r.creator) :
    ∃ w', creatorOf r w = .ok creator w' ∧ Looked w w' := by
  unfold creatorOf
  rw [← hid]
  cases creator with
  | none => exact ⟨w, rfl, .refl h⟩
  | some n =>
      obtain ⟨d, hd, hshows⟩ := (hcreator n rfl).shows h.sound
      exact resolveNode_eq h hd hshows

theorem shows_of_statementOfRow (h : w.Ready) {r : StatementRow} (hr : r ∈ w.view.statements)
    {s : Statement} (hs : statementOfRow r w = .ok s w') :
    w.view.ShowsStatement r s ∧ s.plain = s ∧ Looked w w' := by
  have hlooked := (statementOfRow_agrees r).looked_ok (statementOfRow_reads r) h hs
  rw [statementOfRow_eq_assemble] at hs
  obtain ⟨subject, w₁, hsubject, hs⟩ := bind_eq_ok_iff.mp hs
  obtain ⟨predicate, w₂, hpredicate, hs⟩ := bind_eq_ok_iff.mp hs
  obtain ⟨object, w₃, hobject, hs⟩ := bind_eq_ok_iff.mp hs
  obtain ⟨context, w₄, hcontext, hs⟩ := bind_eq_ok_iff.mp hs
  obtain ⟨creator, w₅, hcreator, hs⟩ := bind_eq_ok_iff.mp hs
  obtain ⟨hsubject, hsubjectId, h₁⟩ := knows_of_requireNode h hsubject
  obtain ⟨hpredicate, hpredicateId, h₂⟩ := knows_of_requireNode h₁.ready hpredicate
  obtain ⟨hobject, hobjectId, h₃⟩ := knows_of_requireNode h₂.ready hobject
  obtain ⟨hcontext, hcontextId, h₄⟩ := knows_of_requireNode h₃.ready hcontext
  have hview₂ := h₂.view_eq.trans h₁.view_eq
  have hview₃ := h₃.view_eq.trans hview₂
  have hview₄ := h₄.view_eq.trans hview₃
  have hcreator := knows_of_creatorOf h₄.ready (hview₄ ▸ hr) hcreator
  rw [h₁.view_eq] at hpredicate
  rw [hview₂] at hobject
  rw [hview₃] at hcontext
  rw [hview₄] at hcreator
  obtain ⟨hshows, hplain⟩ := shows_of_assemble ⟨hsubject, hsubjectId⟩ ⟨hpredicate, hpredicateId⟩
    ⟨hobject, hobjectId⟩ ⟨hcontext, hcontextId⟩ hcreator hs
  exact ⟨hshows, hplain, hlooked⟩

theorem statementOfRow_eq (h : w.Ready) {r : StatementRow} {s : Statement}
    (hshows : w.view.ShowsStatement r s) :
    ∃ w', statementOfRow r w = .ok s.plain w' ∧ Looked w w' := by
  obtain ⟨c, hc, hcontext⟩ := hshows.context
  have hkey := hshows.key
  simp only [Statement.key, StatementRow.key, hc, Option.map_some, Option.getD_some,
    StatementKey.mk.injEq] at hkey
  obtain ⟨hsubject, hpredicate, hobject, hcontextId⟩ := hkey
  obtain ⟨w₁, hw₁, h₁⟩ := requireNode_eq h hshows.subject
  obtain ⟨w₂, hw₂, h₂⟩ := requireNode_eq h₁.ready (h₁.view_eq ▸ hshows.predicate)
  have hview₂ := h₂.view_eq.trans h₁.view_eq
  obtain ⟨w₃, hw₃, h₃⟩ := requireNode_eq h₂.ready (hview₂ ▸ hshows.object)
  have hview₃ := h₃.view_eq.trans hview₂
  obtain ⟨w₄, hw₄, h₄⟩ := requireNode_eq h₃.ready (hview₃ ▸ hcontext)
  have hview₄ := h₄.view_eq.trans hview₃
  obtain ⟨w₅, hw₅, h₅⟩ := creatorOf_eq h₄.ready (hview₄ ▸ hshows.creator) hshows.creatorId
  refine ⟨w₅, ?_, (((h₁.trans h₂).trans h₃).trans h₄).trans h₅⟩
  rw [statementOfRow_eq_assemble, ← hsubject, bind_of_ok hw₁,
    ← hpredicate, bind_of_ok hw₂, ← hobject,
    bind_of_ok hw₃, ← hcontextId, bind_of_ok hw₄, bind_of_ok hw₅]
  exact assemble_eq hshows hc w₅

/-- Whether the row of an id, if the connection writes, has not been marked as deleted. -/
def Current (w : Workspace) (id : Int) : Prop :=
  w.conn.writing = true → ∀ r ∈ w.view.statements, r.id = id → r.live = true

theorem shows_of_cached (h : w.Ready) {id : Int} (hcurrent : Current w id) {s : Statement}
    (hcached : w.store.caches.statement.get? id = some s) :
    ∃ r, w.view.statementById? id = some r ∧ w.view.ShowsStatement r s := by
  obtain ⟨r, hr, hshows⟩ := h.caches.statement id s hcached
  have hid : r.id = id := hshows.id.symm.trans (h.coherent.caches.statement id s hcached).1
  have hkept : r ∈ w.view.statements := by
    cases hwriting : w.conn.writing with
    | false => rwa [Workspace.view_eq_committed hwriting]
    | true =>
        rcases h.kept r hr with hkept | ⟨-, hmarked⟩
        · exact hkept
        · have hlive := hcurrent hwriting r.mark hmarked hid
          simp at hlive
  refine ⟨r, ?_, hshows.mono h.nodes h.sound⟩
  rw [← hid]
  exact h.sound.statementById?_eq hkept

theorem loadStatement_eq (h : w.Ready) {id : Int} (hcurrent : Current w id) {r : StatementRow}
    (hrow : w.view.statementById? id = some r) {s : Statement}
    (hshows : w.view.ShowsStatement r s) :
    ∃ s' w', loadStatement id w = .ok (some s') w' ∧ s'.plain = s.plain ∧ Looked w w' := by
  unfold loadStatement
  rw [bind_of_ok (a := (get : Action Workspace)) (s := w) rfl]
  cases hcached : w.store.caches.statement.get? id with
  | some cached =>
      obtain ⟨r', hrow', hshows'⟩ := shows_of_cached h hcurrent hcached
      rw [hrow] at hrow'
      obtain rfl := Option.some.inj hrow'
      exact ⟨cached, w, rfl, hshows'.plain_eq hshows h.sound, .refl h⟩
  | none =>
      obtain ⟨w₁, hread, hlooked⟩ := statementOfRow_eq h hshows
      have hknows : w₁.view.KnowsStatement s.plain := by
        rw [hlooked.view_eq]
        exact ⟨r, List.mem_of_find?_eq_some hrow, hshows.of_plain rfl⟩
      obtain ⟨w₂, hcache, hlooked'⟩ := cacheStatement_eq hlooked.ready hknows
      have hview : view (·.statementById? id) w = .ok (some r) w :=
        view_eq_ok_iff.mpr ⟨hrow, rfl⟩
      refine ⟨s.plain, w₂, ?_, rfl, hlooked.trans hlooked'⟩
      dsimp only
      rw [bind_of_ok hview]
      dsimp only
      rw [bind_of_ok hread, bind_of_ok hcache]
      rfl

theorem Current.like {id : Int} (hcurrent : Current w id) (h : Like w w') : Current w' id := by
  rw [Current, h.writing, h.view]
  exact hcurrent

theorem loadStatement_alike_of_shown (h : Like w w') {id : Int} (hcurrent : Current w id)
    {r : StatementRow} (hrow : w.view.statementById? id = some r) {s : Statement}
    (hshows : w.view.ShowsStatement r s) :
    Alike Like (fun s s' w => s'.map Statement.plain = s.map Statement.plain ∧
        ∀ u, s = some u → w.view.Admits u)
      (loadStatement id w) (loadStatement id w') := by
  obtain ⟨t, x, hx, hplain, hlooked⟩ := loadStatement_eq h.left hcurrent hrow hshows
  obtain ⟨t', x', hx', hplain', hlooked'⟩ :=
    loadStatement_eq h.right (hcurrent.like h) (h.view ▸ hrow) (h.view ▸ hshows)
  refine h.alike hx hlooked hx' hlooked' ⟨?_, ?_⟩
  · rw [Option.map_some, Option.map_some, hplain, hplain']
  · rintro u ⟨⟩
    rw [hlooked.view_eq]
    exact (hshows.of_plain hplain).toAdmits

/-- A statement that is in neither of the caches is read from its row, or
cannot be read, in both. -/
theorem loadStatement_alike_of_missed (h : Like w w') {id : Int}
    (hmissed : w.store.caches.statement.get? id = none)
    (hmissed' : w'.store.caches.statement.get? id = none) :
    Alike Like (fun s s' w => s'.map Statement.plain = s.map Statement.plain ∧
        ∀ u, s = some u → w.view.Admits u)
      (loadStatement id w) (loadStatement id w') := by
  unfold loadStatement
  rw [bind_of_ok (a := (get : Action Workspace)) (s := w) rfl,
    bind_of_ok (a := (get : Action Workspace)) (s := w') rfl, hmissed, hmissed']
  dsimp only
  refine (agrees_view _ w w' h).bind fun row row' w₁ w₁' hview _ hsame h₁ => ?_
  obtain rfl : row' = row := hsame
  obtain ⟨hfind, rfl⟩ := view_eq_ok_iff.mp hview
  cases row' with
  | none => exact .ok ⟨rfl, by rintro u ⟨⟩⟩ h₁
  | some r =>
      have hr := List.mem_of_find?_eq_some hfind
      refine (statementOfRow_agrees r _ _ h₁).bind fun s s' w₂ w₂' hread _ hsame h₂ => ?_
      obtain rfl : s' = s := hsame
      obtain ⟨hshows, -, hlooked⟩ := shows_of_statementOfRow h₁.left hr hread
      rw [← hlooked.view_eq] at hshows
      have hknows : w₂.view.KnowsStatement s' := ⟨r, hlooked.view_eq ▸ hr, hshows⟩
      obtain ⟨x, hx, hx_looked⟩ := cacheStatement_eq h₂.left hknows
      obtain ⟨x', hx', hx_looked'⟩ := cacheStatement_eq h₂.right (h₂.view ▸ hknows)
      rw [bind_of_ok hx, bind_of_ok hx']
      refine .ok ⟨rfl, ?_⟩ (h₂.looked hx_looked hx_looked')
      rintro u ⟨⟩
      exact hx_looked.view_eq ▸ hshows.toAdmits

theorem loadStatement_alike (h : Like w w') {id : Int} (hcurrent : Current w id) :
    Alike Like (fun s s' w => s'.map Statement.plain = s.map Statement.plain ∧
        ∀ u, s = some u → w.view.Admits u)
      (loadStatement id w) (loadStatement id w') := by
  cases hcached : w.store.caches.statement.get? id with
  | some s =>
      obtain ⟨r, hrow, hshows⟩ := shows_of_cached h.left hcurrent hcached
      exact loadStatement_alike_of_shown h hcurrent hrow hshows
  | none =>
      cases hcached' : w'.store.caches.statement.get? id with
      | some s =>
          obtain ⟨r, hrow, hshows⟩ := shows_of_cached h.right (hcurrent.like h) hcached'
          exact loadStatement_alike_of_shown h hcurrent (h.view ▸ hrow) (h.view ▸ hshows)
      | none => exact loadStatement_alike_of_missed h hcached hcached'

end Action
end QuadStore
