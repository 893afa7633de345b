import QuadStore.Proofs.LegibleNodes
import QuadStore.Proofs.ReferencedNodes
import QuadStore.Proofs.RepeatedReading

namespace QuadStore

/-- Whether a value is read back from its row: languages are in lower case, numbers are kept by
their column, and moments are read back from theirs. -/
def LiteralValue.Decodes : LiteralValue → Prop
  | .string _ language => language.map Text.lowerCase = language
  | .int _ | .boolean _ => True
  | .double x => x.stored = some x
  | .date m => m.InColumn

instance : DecidablePred LiteralValue.Decodes
  | .string _ language => inferInstanceAs (Decidable (language.map Text.lowerCase = language))
  | .int _ | .boolean _ => inferInstanceAs (Decidable True)
  | .double x => inferInstanceAs (Decidable (x.stored = some x))
  | .date m => inferInstanceAs (Decidable m.InColumn)

namespace NodeRow

variable {r : NodeRow} {n : Node} {l : Literal} {datatype : Option UriResource}

theorem Records.readTerm_eq (h : r.Records n) (hterm : n.term = .literal l)
    (hvalue : l.value.Decodes) :
    r.readTerm l.value.kind datatype = .ok (.literal ⟨l.value, datatype⟩) := by
  have hrow := h.row
  obtain ⟨id, _⟩ := n
  obtain rfl : _ = Term.literal l := hterm
  obtain ⟨value, _⟩ := l
  rw [hrow]
  cases value with
  | string content language =>
      have hlowered : language.map Text.lowerCase = language := hvalue
      show Except.ok (Term.literal ⟨.string content (language.map Text.lowerCase), datatype⟩) = _
      rw [hlowered]
  | int i => rfl
  | boolean b => cases b <;> rfl
  | double x =>
      have hcolumn : ∀ row : NodeRow, row.double = some x →
          row.readTerm .double datatype = .ok (.literal ⟨.double x, datatype⟩) := by
        intro row hrow
        simp only [NodeRow.readTerm, hrow]
        rfl
      exact hcolumn _ hvalue
  | date m =>
      have hcolumn : ∀ row : NodeRow, row.readMoment = .ok m →
          row.readTerm .date datatype = .ok (.literal ⟨.date m, datatype⟩) := by
        intro row hrow
        simp only [NodeRow.readTerm, hrow]
        rfl
      have hwith : m.toUtc.withOffset? m.offset = some m := dif_pos ⟨m.nanos_lt, m.offset_lt⟩
      exact hcolumn _ (readMoment_of_columns
        (Moment.readTimestamp_columnText hvalue) hwith rfl rfl)

end NodeRow

theorem Node.datatypeUri?_eq_of_same {n n' : Node} (h : n.same n' = true) :
    n.datatypeUri? = n'.datatypeUri? := by
  obtain ⟨id, term⟩ := n
  obtain ⟨id', term'⟩ := n'
  cases term <;> cases term' <;> first | cases h | rfl | skip
  simp only [Node.same, Bool.and_eq_true, beq_iff_eq] at h
  exact h.2

namespace Tables

variable {t t' : Tables} {n n' : Node} {id : Int}

/-- Whether a literal is read back when it is stored: its value is, and its datatype, if it has
one, is what a row is read as. -/
def Decodes (t : Tables) (n : Node) : Prop :=
  ∀ l, n.term = .literal l → l.value.Decodes ∧
    ∀ datatype, l.datatype = some datatype → t.Knows ⟨datatype.id, .uri datatype.uri⟩

theorem datatypeOf_eq_of_knows {r : NodeRow} {datatype : Option UriResource} (hsound : t.Sound)
    (hrow : r.datatype = datatype.map UriResource.id)
    (hknows : ∀ d, datatype = some d → t.Knows ⟨d.id, .uri d.uri⟩) :
    t.datatypeOf r = datatype := by
  cases datatype with
  | none =>
      have hrow : r.datatype = none := hrow
      simp [datatypeOf, hrow]
  | some d => exact datatypeOf_eq (fun _ hr => hr) hsound (hknows d rfl).holdsNode hrow

theorem Decodes.datatype (h : t.Decodes n)
    (hnodes : ∀ r ∈ t.nodes, r ∈ t'.nodes) (hsound : t'.Sound) :
    ∀ d ∈ n.datatype?, t'.Knows ⟨d.id, .uri d.uri⟩ := by
  obtain ⟨id, term⟩ := n
  cases term with
  | uri uri | blank label => rintro d ⟨⟩
  | literal l => exact fun d hd => ((h l rfl).2 d hd).mono hnodes hsound

theorem datatypeIds_eq_of_same (hsame : n.same n' = true) (hsound : t.Sound)
    (hknows : ∀ d ∈ n.datatype?, t.Knows ⟨d.id, .uri d.uri⟩)
    (hknows' : ∀ d ∈ n'.datatype?, t.Knows ⟨d.id, .uri d.uri⟩) :
    n.datatype?.map UriResource.id = n'.datatype?.map UriResource.id := by
  have huri : n.datatype?.map UriResource.uri = n'.datatype?.map UriResource.uri :=
    Node.datatypeUri?_eq_of_same hsame
  cases hd : n.datatype? with
  | none =>
      rw [hd] at huri
      rw [Option.map_eq_none_iff.mp huri.symm]
  | some d =>
      rw [hd] at huri
      obtain ⟨⟨id', uri'⟩, hd', hsame⟩ := Option.map_eq_some_iff.mp huri.symm
      obtain rfl : uri' = d.uri := hsame
      rw [hd']
      exact congrArg some ((hknows d hd).holdsNode.id_eq (hknows' _ hd').holdsNode hsound)

theorem shows_of_decodes (h : t.Decodes n)
    (hnodes : ∀ r ∈ t.nodes, r ∈ t'.nodes) (hsound : t'.Sound)
    (id : Int) : t'.Shows (.ofNode id n) (n.withId id) := by
  have hrow := NodeRow.records_ofNode id n
  obtain ⟨id', term⟩ := n
  cases term with
  | uri uri => exact ⟨rfl, rfl, by rintro ⟨⟩, rfl⟩
  | blank label => exact ⟨rfl, rfl, by rintro ⟨⟩, rfl⟩
  | literal l =>
      obtain ⟨hvalue, hknows⟩ := h l rfl
      obtain ⟨-, -, -, hdatatype⟩ := hrow.literal rfl
      have hknows : ∀ d, l.datatype = some d → t'.Knows ⟨d.id, .uri d.uri⟩ :=
        fun d hd => (hknows d hd).mono hnodes hsound
      refine ⟨hrow.checkOffset, hrow.readKind, fun _ id hid => ?_, ?_⟩
      · rw [hdatatype] at hid
        obtain ⟨d, hd, rfl⟩ := Option.map_eq_some_iff.mp hid
        obtain ⟨r, hr, hshows⟩ := (hknows d hd).shows hsound
        exact ⟨r, hr, hshows.uri.1⟩
      · refine NodeRow.toNode_eq_ok_iff.mpr ⟨?_, hrow.created, hrow.id.symm⟩
        rw [datatypeOf_eq_of_knows hsound hdatatype hknows]
        exact hrow.readTerm_eq rfl hvalue

section

variable {before rest : List NodeRow} (hnodes : t.nodes = before ++ .ofNode id n :: rest)
  (hnew : ∀ r ∈ before, (NodeRow.ofNode id n).conflicts r = false)

include hnodes hnew

theorem find?_ofNode {p : NodeRow → Bool} (hp : p (.ofNode id n) = true)
    (hconflict : ∀ r, p r = true → (NodeRow.ofNode id n).conflicts r = true) :
    t.nodes.find? p = some (.ofNode id n) := by
  have hbefore : before.find? p = none := by
    refine List.find?_eq_none.mpr fun r hr hpr => ?_
    have hconflicts := hconflict r hpr
    rw [hnew r hr] at hconflicts
    cases hconflicts
  rw [hnodes, List.find?_append, hbefore, Option.none_or, List.find?_cons_of_pos hp]

theorem resource?_ofNode (hresource : (NodeRow.ofNode id n).isResource = true) :
    t.resource? (NodeRow.ofNode id n).kind (NodeRow.ofNode id n).lexical =
      some (.ofNode id n) := by
  refine find?_ofNode hnodes hnew (by simp) fun r hr => ?_
  simp only [Bool.and_eq_true, beq_iff_eq] at hr
  simp [NodeRow.conflicts, hresource, hr]

theorem literal?_ofNode {l : Literal} (hterm : n.term = .literal l) :
    t.literal? l.content l.language (l.datatype.map UriResource.id) = some (.ofNode id n) := by
  obtain ⟨hliteral, hlexical, hlanguage, hdatatype⟩ := (NodeRow.records_ofNode id n).literal hterm
  refine find?_ofNode hnodes hnew
    (by simp [hliteral, hlexical, hlanguage, hdatatype]) fun r hr => ?_
  simp only [Bool.and_eq_true, beq_iff_eq, Bool.not_eq_true'] at hr
  obtain ⟨⟨⟨hliteral', hlexical'⟩, hdatatype'⟩, hlanguage'⟩ := hr
  simp [NodeRow.conflicts, hliteral, hliteral', hlexical, hlexical',
    hdatatype, hdatatype', hlanguage, hlanguage']

theorem rowOf?_of_same (hsame : n'.same n = true)
    (hdatatype : n'.datatype?.map UriResource.id = n.datatype?.map UriResource.id)
    (hnonneg : ∀ d ∈ n'.datatype?, 0 ≤ d.id) : t.rowOf? n' = some (.ofNode id n) := by
  obtain ⟨id₁, term⟩ := n
  obtain ⟨id₂, term'⟩ := n'
  cases term with
  | uri uri =>
      cases term' with
      | uri uri' =>
          obtain rfl : uri' = uri := by simpa [Node.same] using hsame
          exact resource?_ofNode hnodes hnew rfl
      | blank label | literal l => cases hsame
  | blank label =>
      cases term' with
      | blank label' =>
          obtain rfl : label' = label := by simpa [Node.same] using hsame
          exact resource?_ofNode hnodes hnew rfl
      | uri uri | literal l => cases hsame
  | literal l =>
      cases term' with
      | uri uri | blank label => cases hsame
      | literal l' =>
          simp only [Node.same, Bool.and_eq_true, beq_iff_eq] at hsame
          obtain ⟨⟨hcontent, hlanguage⟩, -⟩ := hsame
          have hdatatype : l'.datatype.map UriResource.id = l.datatype.map UriResource.id :=
            hdatatype
          have hfind := literal?_ofNode hnodes hnew (l := l) rfl
          rw [← hcontent, ← hlanguage, ← hdatatype] at hfind
          cases hl : l'.datatype with
          | none =>
              rw [hl, Option.map_none] at hfind
              simpa only [rowOf?, hl] using hfind
          | some d =>
              rw [hl, Option.map_some] at hfind
              have hd : ¬d.id < 0 := not_lt.mpr (hnonneg d hl)
              simpa only [rowOf?, hl, if_neg hd] using hfind

end

end Tables

namespace Action

variable {w w' x : Workspace} {n n' m : Node}

theorem storeNode_inserts (hnew : n.isPersisted = false) (h : storeNode n w = .ok m w')
    (hfresh : m.id ∉ w.view.nodeIds) :
    m = n.withId m.id ∧ w'.view.nodes = w.view.nodes ++ [.ofNode m.id n] ∧
      (∀ r ∈ w.view.nodes, (NodeRow.ofNode m.id n).conflicts r = false) ∧
      ∀ d ∈ n.datatype?, 0 ≤ d.id := by
  unfold storeNode at h
  rw [if_neg (by simp [hnew])] at h
  obtain ⟨_, w₁, hcheck, h⟩ := bind_eq_ok_iff.mp h
  obtain ⟨_, w₂, hbegin, h⟩ := bind_eq_ok_iff.mp h
  obtain ⟨id, w₃, hid, h⟩ := bind_eq_ok_iff.mp h
  obtain ⟨tables, w₄, hview, h⟩ := bind_eq_ok_iff.mp h
  obtain ⟨hinsert, rfl⟩ := view_eq_ok_iff.mp hview
  obtain ⟨hnonneg, hsame⟩ := checkDatatype_eq_ok hcheck
  have hsees : w₃.view = w.view := by
    rw [← hsame]
    cases hid
    exact (beginWrite_eq_ok hbegin).2
  rw [hsees] at hinsert
  cases tables with
  | some tables =>
      obtain ⟨rfl, hother⟩ := Tables.insertNode?_eq_some hinsert
      cases h
      exact ⟨rfl, rfl, fun r hr => (hother r hr).2, hnonneg⟩
  | none =>
      obtain ⟨existing, w₅, hload, h⟩ := bind_eq_ok_iff.mp h
      cases existing with
      | none => cases h
      | some existing =>
          cases h
          obtain ⟨r, hr, hholds⟩ := (holdsNode_of_loadNode hload).1
          refine absurd (List.mem_map.mpr ⟨r, ?_, hholds.1⟩) hfresh
          rwa [hsees] at hr

end Action

/-- Whether a workspace shows the given tables and caches no node but what
their rows are read as. -/
structure Workspace.Presents (t : Tables) (w : Workspace) : Prop where
  sees : w.Sees t
  cached : ∀ id n, w.store.caches.node.get? id = some n → w.database.committed.Knows n

theorem Workspace.observes_presents (t : Tables) : Observes t (Workspace.Presents t) where
  good h := h.sees.good
  view h := h.sees.view
  cached h := h.cached
  cacheNode := by
    intro w n h hn
    obtain ⟨w', hop⟩ := Action.cacheNode_eq_ok n w
    have hread : Reads w (finalState (Action.cacheNode n w)) :=
      Action.cacheNode_reads fun _ => h.sees.view ▸ hn.holdsNode
    rw [hop] at hread
    refine ⟨w', hop, ⟨hread.silent.good h.sees.good, hread.view_eq.trans h.sees.view⟩,
      fun id m hm => ?_⟩
    have hcommitted : w'.database.committed = w.database.committed := hread.silent.committed
    rw [hcommitted]
    obtain hsame | ⟨-, hnew, hidle⟩ := Action.cachedNode?_cacheNode hop id
    · exact h.cached id m (hsame.symm.trans hm)
    · obtain rfl : n = m := Option.some.inj (hnew.symm.trans hm)
      rwa [← Workspace.view_eq_committed hidle, h.sees.view]

namespace Action

variable {w w' x : Workspace} {n m : Node}

/-- What a node was stored in is read as that node, and found for whatever is the same term and
has its datatype in its row. -/
theorem stored_node_read_back (hdecodes : w.view.Decodes n) (hnew : n.isPersisted = false)
    (hstore : storeNode n w = .ok m w') (hfresh : m.id ∉ w.view.nodeIds)
    (hlater : w'.view.nodes <+: x.view.nodes) (hx : x.Good)
    (hcached : ∀ id c, x.store.caches.node.get? id = some c → x.database.committed.Knows c) :
    m = n.withId m.id ∧ (∃ y, loadNodeById m.id x = .ok (some m) y) ∧
      ∀ n', n'.same n = true → (∀ d ∈ n'.datatype?, x.view.Knows ⟨d.id, .uri d.uri⟩) →
        ∃ y, loadNode n' x = .ok (some m) y := by
  obtain ⟨hm, hnodes, hother, hnonneg⟩ := storeNode_inserts hnew hstore hfresh
  obtain ⟨rest, hrest⟩ := hlater
  have hrows : x.view.nodes = w.view.nodes ++ .ofNode m.id n :: rest := by
    rw [← hrest, hnodes, List.append_assoc, List.singleton_append]
  have hold : ∀ r ∈ w.view.nodes, r ∈ x.view.nodes := fun r hr => by simp [hrows, hr]
  have hrow : .ofNode m.id n ∈ x.view.nodes := by simp [hrows]
  have hpresents : Workspace.Presents x.view x := ⟨⟨hx, rfl⟩, hcached⟩
  have hobserves := Workspace.observes_presents x.view
  have hshows : x.view.Shows (.ofNode m.id n) m := by
    rw [hm]
    exact Tables.shows_of_decodes hdecodes hold hx.sound m.id
  refine ⟨hm, ?_, fun n' hsame hknows => ?_⟩
  · have hid : (NodeRow.ofNode m.id n).id = m.id := (holds_ofNode m.id n).1
    have hfind : x.view.nodeById? m.id = some (.ofNode m.id n) := by
      simpa only [hid] using hx.sound.keyed.nodeById?_eq hrow
    obtain ⟨y, hload, -⟩ := loadNodeById_shown hobserves hpresents hfind hshows
    exact ⟨y, hload⟩
  · have hids : n'.datatype?.map UriResource.id = n.datatype?.map UriResource.id :=
      Tables.datatypeIds_eq_of_same hsame hx.sound hknows (hdecodes.datatype hold hx.sound)
    have hstored : ∀ d ∈ n'.datatype?, 0 ≤ d.id := by
      intro d hd
      obtain ⟨d', hd', hid⟩ := Option.map_eq_some_iff.mp (hids.symm.trans (congrArg _ hd))
      exact hid ▸ hnonneg d' hd'
    obtain ⟨y, hload, -⟩ := loadNode_shown hobserves hpresents
      (Tables.rowOf?_of_same hrows hother hsame hids hstored) hshows
    exact ⟨y, hload⟩

/-- A leap second is read back with its offset from the transaction that stored it. -/
theorem leap_second_read_back :
    let moment : Moment := ⟨1483228799, 1500000000, 19800, by decide, by decide⟩
    let date : Node := .literal (.date moment) (some ⟨1, Vocabulary.xsdDateTime⟩)
    let s := (OpenStore.opened {} {} [] "w").begin.after 0 (.uri Vocabulary.xsdDateTime)
    ∃ x, s.scope? 0 = some x ∧ ∃ w', storeNode date x.work = .ok (date.withId 2) w' ∧
      (∃ y, loadNodeById 2 w' = .ok (some (date.withId 2)) y) ∧
      ∃ y, loadNode date w' = .ok (some (date.withId 2)) y := by
  intro moment date s
  let x := (s.scope? 0).get (by decide +kernel)
  have hrun := OpenStore.Run.nil (s := OpenStore.opened {} {} [] "w") |>.snoc .begin
    |>.call 0 (.uri Vocabulary.xsdDateTime)
  have hx : s.scope? 0 = some x := (Option.some_get _).symm
  have hs : s.Good := (OpenStore.good_opened {} Tables.sound_empty [] "w").run hrun
  have hrows : x.work.view.nodes = [.ofNode 1 (.uri Vocabulary.xsdDateTime)] := by decide +kernel
  have hdatatype : ∀ {t : Tables}, .ofNode 1 (.uri Vocabulary.xsdDateTime) ∈ t.nodes →
      t.Knows ⟨1, .uri Vocabulary.xsdDateTime⟩ :=
    fun hr => ⟨_, hr, rfl, rfl, by rintro ⟨⟩, rfl⟩
  have hdecodes : x.work.view.Decodes date := by
    rintro _ ⟨⟩
    refine ⟨by decide +kernel, ?_⟩
    rintro _ ⟨⟩
    exact hdatatype (by simp [hrows])
  have hempty : (finalState (storeNode date x.work)).store.caches.node.entries = [] := by
    decide +kernel
  have hanswer : (storeNode date).run' x.work = some (date.withId 2) := by decide +kernel
  unfold EStateM.run' EStateM.run at hanswer
  cases hstore : storeNode date x.work with
  | error e w' =>
      rw [hstore] at hanswer
      cases hanswer
  | ok m w' =>
      rw [hstore] at hanswer
      obtain rfl : m = date.withId 2 := Option.some.inj hanswer
      rw [hstore] at hempty
      have hcached : ∀ id c, w'.store.caches.node.get? id = some c →
          w'.database.committed.Knows c := by
        have hempty : w'.store.caches.node.entries = [] := hempty
        simp [Cache.get?, hempty]
      have hsilent : Silent x.work w' := (storeNode_silent date).ok hstore
      obtain ⟨-, hloaded, hfound⟩ := stored_node_read_back hdecodes rfl hstore (by decide +kernel)
        (List.prefix_rfl) (hsilent.good (hs.scopes 0 x hx).work) hcached
      refine ⟨x, hx, w', hstore, hloaded, hfound date (by decide +kernel) ?_⟩
      rintro _ ⟨⟩
      exact hdatatype (hsilent.nodes _ (by simp [hrows]))

/-- A text whose datatype is given by its URI alone is not found, even if the same text with the
id of that datatype is stored. -/
theorem stored_text_not_loaded :
    let text (datatype : Int) : Node :=
      .string "text" none (some ⟨datatype, Vocabulary.xsdString⟩)
    let s := (OpenStore.opened {} {} [] "w").begin.after 0 (.uri Vocabulary.xsdString)
    (s.scope? 0).map (fun x => x.work.view.nodeIds) = some [1] ∧
      (text transientId).same (text 1) = true ∧
      ((s.scope? 0).bind fun x => (storeNode (text 1)).run' x.work) = some ((text 1).withId 2) ∧
      ((s.scope? 0).bind fun x =>
        (loadNode (text 1)).run' (finalState (storeNode (text 1) x.work))) =
        some (some ((text 1).withId 2)) ∧
      ((s.scope? 0).bind fun x => (loadNode (text transientId)).run'
        (finalState (storeNode (text 1) x.work))) = some none := by
  decide +kernel

end Action
end QuadStore
