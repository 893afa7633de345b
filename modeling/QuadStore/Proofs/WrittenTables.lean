import QuadStore.Proofs.CompiledRows
import QuadStore.Proofs.LowerCasing
import QuadStore.Proofs.StoredIds

/-!
Tables whose rows can be read. A row of nodes is read as one node, and a row of statements as one
statement; rows that are added later change neither.
-/

namespace QuadStore

/-- Whether a value is a text, an integer or a truth value. -/
def LiteralValue.Simple : LiteralValue → Prop
  | .string _ _ | .int _ | .boolean _ => True
  | .double _ | .date _ => False

/-- Whether the language of a value, if it has one, is in lower case. -/
def LiteralValue.Lowered (value : LiteralValue) : Prop :=
  value.language.map Text.lowerCase = value.language

theorem LiteralValue.lowered_string (content : String) (language : Option String) :
    (LiteralValue.string content (language.map Text.lowerCase)).Lowered := by
  cases language <;> simp [Lowered, LiteralValue.language, Text.lowerCase_lowerCase]

/-- The key of a literal whose language is in lower case has its parts as they are. -/
theorem Literal.key_of_lowered {l : Literal} (h : l.value.Lowered) :
    l.key = ⟨l.content, l.language, l.datatypeUri⟩ := by
  have hlanguage : l.language.map Text.lowerCase = l.language := h
  rw [Literal.key, LiteralKey.make, hlanguage]

namespace NodeRow

/-- Whether a row can be read as that of a URI. -/
structure NamesUri (r : NodeRow) : Prop where
  offset : r.checkOffset = .ok ()
  kind : r.readKind = .ok .uri
  created : r.created.check = .ok ()

/-- Whether a row of a literal has its written form and its language. -/
def Spells (r : NodeRow) (n : Node) : Prop :=
  ∀ l, n.term = .literal l → l.content = r.lexical ∧ l.language.getD "" = r.language.getD ""

theorem toNode_eq_ok_iff {r : NodeRow} {kind : NodeKind}
    {datatype : Option UriResource} {n : Node} :
    r.toNode kind datatype = .ok n ↔
      r.readTerm kind datatype = .ok n.term ∧ r.created.check = .ok () ∧ n.id = r.id := by
  obtain ⟨id, term⟩ := n
  unfold toNode
  cases hterm : r.readTerm kind datatype with
  | error fault =>
      constructor
      · rintro ⟨⟩
      · rintro ⟨⟨⟩, -⟩
  | ok found =>
      cases hcheck : r.created.check with
      | error fault =>
          constructor
          · rintro ⟨⟩
          · rintro ⟨-, ⟨⟩, -⟩
      | ok u =>
          constructor
          · rintro ⟨⟩
            exact ⟨rfl, rfl, rfl⟩
          · rintro ⟨⟨⟩, -, ⟨⟩⟩
            rfl

theorem readTerm_of_resource {r : NodeRow} {kind : NodeKind} (h : kind.isLiteral = false)
    (datatype datatype' : Option UriResource) :
    r.readTerm kind datatype = r.readTerm kind datatype' := by
  cases kind <;> first | rfl | cases h

theorem readTerm_literal {r : NodeRow} {kind : NodeKind}
    {datatype : Option UriResource} {l : Literal}
    (h : r.readTerm kind datatype = .ok (.literal l)) :
    l.datatype = datatype ∧ l.value.Lowered := by
  cases kind with
  | uri | blank => cases h
  | string =>
      cases h
      exact ⟨rfl, LiteralValue.lowered_string _ _⟩
  | int | double | boolean | date =>
      obtain ⟨v, hv⟩ := literal_of_bind h
      cases hv
      exact ⟨rfl, rfl⟩

theorem conflicts_comm (a b : NodeRow) : a.conflicts b = b.conflicts a := by
  have resource_eq : a.kind = b.kind → a.isResource = b.isResource := fun h => by
    rw [isResource, isResource, h]
  unfold conflicts
  cases ha : a.isResource <;> cases hb : b.isResource
  · simp [Bool.beq_comm]
  · simp
    intro h
    rw [resource_eq h.symm, hb] at ha
    cases ha
  · simp
    intro h
    rw [resource_eq h, hb] at ha
    cases ha
  · simp [Bool.beq_comm]

end NodeRow

namespace Tables

/-- The datatype that a row refers to. -/
def datatypeOf (t : Tables) (r : NodeRow) : Option UriResource :=
  (r.datatype.bind t.nodeById?).map fun d => ⟨d.id, d.lexical⟩

/-- Whether a row is read as a node. -/
structure Shows (t : Tables) (r : NodeRow) (n : Node) : Prop where
  offset : r.checkOffset = .ok ()
  kind : r.readKind = .ok n.kind
  datatype : n.isLiteral = true → ∀ id, r.datatype = some id →
    ∃ d, t.nodeById? id = some d ∧ d.NamesUri
  node : r.toNode n.kind (t.datatypeOf r) = .ok n

/-- Whether a node is what one of the rows is read as. -/
def Knows (t : Tables) (n : Node) : Prop :=
  ∃ r ∈ t.nodes, t.Shows r n

variable {t t' : Tables} {r : NodeRow} {n n' : Node}

theorem Sound.keyed (h : t.Sound) : t.Keyed :=
  ⟨h.nodeIds, h.statementIds⟩

theorem nodeById?_mono (hnodes : ∀ r ∈ t.nodes, r ∈ t'.nodes) (hsound : t'.Sound) {id : Int}
    (h : t.nodeById? id = some r) : t'.nodeById? id = some r := by
  have hid : r.id = id := by simpa using List.find?_some h
  rw [← hid]
  exact hsound.keyed.nodeById?_eq (hnodes r (List.mem_of_find?_eq_some h))

namespace Shows

theorem id (h : t.Shows r n) : n.id = r.id :=
  (NodeRow.toNode_eq_ok_iff.mp h.node).2.2

theorem term (h : t.Shows r n) : r.readTerm n.kind (t.datatypeOf r) = .ok n.term :=
  (NodeRow.toNode_eq_ok_iff.mp h.node).1

theorem created (h : t.Shows r n) : r.created.check = .ok () :=
  (NodeRow.toNode_eq_ok_iff.mp h.node).2.1

theorem eq (h : t.Shows r n) (h' : t.Shows r n') : n = n' := by
  have hkind : n.kind = n'.kind := Except.ok.inj (h.kind.symm.trans h'.kind)
  have hnode := h.node
  rw [hkind, h'.node] at hnode
  exact (Except.ok.inj hnode).symm

theorem holds (h : t.Shows r n) : r.Holds n :=
  NodeRow.holds_of_toNode h.kind h.node

theorem mono (h : t.Shows r n) (hnodes : ∀ r ∈ t.nodes, r ∈ t'.nodes) (hsound : t'.Sound) :
    t'.Shows r n := by
  refine ⟨h.offset, h.kind, fun hliteral id hid => ?_, ?_⟩
  · obtain ⟨d, hd, huri⟩ := h.datatype hliteral id hid
    exact ⟨d, nodeById?_mono hnodes hsound hd, huri⟩
  · refine NodeRow.toNode_eq_ok_iff.mpr ⟨?_, h.created, h.id⟩
    cases hliteral : n.isLiteral with
    | false => rw [NodeRow.readTerm_of_resource hliteral _ (t.datatypeOf r), h.term]
    | true =>
        have hdatatype : t'.datatypeOf r = t.datatypeOf r := by
          cases hid : r.datatype with
          | none => simp [datatypeOf, hid]
          | some id =>
              obtain ⟨d, hd, -⟩ := h.datatype hliteral id hid
              simp [datatypeOf, hid, hd, nodeById?_mono hnodes hsound hd]
        rw [hdatatype, h.term]

theorem of_eq (h : t.Shows r n) (hnodes : t'.nodes = t.nodes) : t'.Shows r n := by
  have hfind : t'.nodeById? = t.nodeById? := by
    funext id
    rw [nodeById?, nodeById?, hnodes]
  refine ⟨h.offset, h.kind, ?_, ?_⟩
  · rw [hfind]
    exact h.datatype
  · rw [datatypeOf, hfind]
    exact h.node

theorem uri {id : Int} {uri : String} (h : t.Shows r ⟨id, .uri uri⟩) :
    r.NamesUri ∧ r.id = id ∧ r.kind = "uri" ∧ r.lexical = uri :=
  ⟨⟨h.offset, h.kind, h.created⟩, h.id.symm, h.holds.2⟩

end Shows

theorem shows_of_namesUri (h : r.NamesUri) : t.Shows r ⟨r.id, .uri r.lexical⟩ :=
  ⟨h.offset, h.kind, by rintro ⟨⟩, NodeRow.toNode_eq_ok_iff.mpr ⟨rfl, h.created, rfl⟩⟩

namespace Knows

theorem mono (h : t.Knows n) (hnodes : ∀ r ∈ t.nodes, r ∈ t'.nodes) (hsound : t'.Sound) :
    t'.Knows n := by
  obtain ⟨r, hr, hshows⟩ := h
  exact ⟨r, hnodes r hr, hshows.mono hnodes hsound⟩

theorem of_eq (h : t.Knows n) (hnodes : t'.nodes = t.nodes) : t'.Knows n := by
  obtain ⟨r, hr, hshows⟩ := h
  exact ⟨r, hnodes ▸ hr, hshows.of_eq hnodes⟩

theorem exists_row (h : t.Knows n) : ∃ d ∈ t.nodes, d.id = n.id := by
  obtain ⟨d, hd, hshows⟩ := h
  exact ⟨d, hd, hshows.id.symm⟩

theorem shows (h : t.Knows n) (hsound : t.Sound) :
    ∃ r, t.nodeById? n.id = some r ∧ t.Shows r n := by
  obtain ⟨r, hr, hshows⟩ := h
  refine ⟨r, ?_, hshows⟩
  rw [hshows.id]
  exact hsound.keyed.nodeById?_eq hr

theorem eq (h : t.Knows n) (h' : t.Knows n') (hsound : t.Sound)
    (hid : n.id = n'.id) : n = n' := by
  obtain ⟨r, hr, hshows⟩ := h.shows hsound
  obtain ⟨r', hr', hshows'⟩ := h'.shows hsound
  rw [hid, hr'] at hr
  obtain rfl := Option.some.inj hr
  exact hshows.eq hshows'

theorem holdsNode (h : t.Knows n) : t.HoldsNode n := by
  obtain ⟨r, hr, hshows⟩ := h
  exact ⟨r, hr, hshows.holds⟩

end Knows
end Tables

/-! Nodes that are read back as they were written -/

/-- Whether a term is a resource or a literal with a simple value, whose
language is in lower case. -/
def Term.Plain : Term → Prop
  | .uri _ | .blank _ => True
  | .literal l => l.value.Simple ∧ l.value.Lowered

namespace Tables

variable {t t' : Tables} {n : Node}

/-- Whether a node can be stored such that it is read back: it is plain, and
its datatype is known. -/
def Takes (t : Tables) (n : Node) : Prop :=
  n.term.Plain ∧ ∀ l, n.term = .literal l →
    ∃ datatype, l.datatype = some datatype ∧ t.Knows ⟨datatype.id, .uri datatype.uri⟩

theorem shows_ofNode (h : t.Takes n) (hnodes : ∀ r ∈ t.nodes, r ∈ t'.nodes) (hsound : t'.Sound)
    (id : Int) : t'.Shows (.ofNode id n) (n.withId id) ∧
    (NodeRow.ofNode id n).Spells (n.withId id) := by
  obtain ⟨hplain, hdatatype⟩ := h
  obtain ⟨id', term⟩ := n
  cases term with
  | uri uri => exact ⟨⟨rfl, rfl, by rintro ⟨⟩, rfl⟩, by rintro l ⟨⟩⟩
  | blank label => exact ⟨⟨rfl, rfl, by rintro ⟨⟩, rfl⟩, by rintro l ⟨⟩⟩
  | literal l =>
      obtain ⟨datatype, hl, hknows⟩ := hdatatype l rfl
      obtain ⟨value, _⟩ := l
      obtain rfl : _ = some datatype := hl
      obtain ⟨hsimple, hlowered⟩ := hplain
      obtain ⟨d, hd, hshows⟩ := (hknows.mono hnodes hsound).shows hsound
      obtain ⟨huri, hid, -, hlexical⟩ := hshows.uri
      have hdatatypeOf : ∀ row : NodeRow, row.datatype = some datatype.id →
          t'.datatypeOf row = some datatype := by
        intro row hrow
        simp [datatypeOf, hrow, hd, hid, hlexical]
      have hfound : ∀ id, some datatype.id = some id →
          ∃ d, t'.nodeById? id = some d ∧ d.NamesUri := by
        rintro id ⟨⟩
        exact ⟨d, hd, huri⟩
      cases value with
      | string content language =>
          refine ⟨⟨rfl, rfl, fun _ => hfound, ?_⟩, by rintro l ⟨⟩; exact ⟨rfl, rfl⟩⟩
          refine NodeRow.toNode_eq_ok_iff.mpr ⟨?_, rfl, rfl⟩
          rw [hdatatypeOf _ rfl]
          have hlanguage : language.map Text.lowerCase = language := hlowered
          show Except.ok (Term.literal ⟨.string content (language.map Text.lowerCase), _⟩) = _
          rw [hlanguage]
          rfl
      | int i =>
          refine ⟨⟨rfl, rfl, fun _ => hfound, ?_⟩, by rintro l ⟨⟩; exact ⟨rfl, rfl⟩⟩
          refine NodeRow.toNode_eq_ok_iff.mpr ⟨?_, rfl, rfl⟩
          rw [hdatatypeOf _ rfl]
          rfl
      | boolean b =>
          refine ⟨⟨rfl, rfl, fun _ => hfound, ?_⟩, by rintro l ⟨⟩; exact ⟨rfl, rfl⟩⟩
          refine NodeRow.toNode_eq_ok_iff.mpr ⟨?_, rfl, rfl⟩
          rw [hdatatypeOf _ rfl]
          cases b <;> rfl
      | double x => exact hsimple.elim
      | date m => exact hsimple.elim

end Tables

/-! Statements -/

/-- A statement without the mark that its id is new. -/
def Statement.plain (s : Statement) : Statement :=
  { s with isNew := false }

/-- The nodes in the slots of a statement, and the one that has made it. -/
def Statement.nodes (s : Statement) : List Node :=
  [s.subject, s.predicate, s.object] ++ s.context.toList ++ s.creator.toList

namespace Tables

/-- Whether all nodes of a statement are known and stand in slots that they may stand in. -/
structure Admits (t : Tables) (s : Statement) : Prop where
  subject : t.Knows s.subject
  predicate : t.Knows s.predicate
  object : t.Knows s.object
  context : ∃ c, s.context = some c ∧ t.Knows c
  creator : ∀ c, s.creator = some c → t.Knows c
  slots : checkSlots s.subject s.predicate s.context = .ok ()

/-- Whether a row is read as a statement, whether or not the id of that is new. -/
structure ShowsStatement (t : Tables) (r : StatementRow) (s : Statement) :
    Prop extends t.Admits s where
  id : s.id = r.id
  key : s.key = r.key
  creatorId : s.creator.map Node.id = r.creator
  deleted : s.deleted = !r.live
  timed : s.deletionTimed = r.deletedAt.isSome
  inferred : s.inferred = r.isInferred
  created : r.created.check = .ok ()
  deletedAt : r.deletedAt.forM Stamp.check = .ok ()

/-- Whether a statement is what one of the rows is read as. -/
def KnowsStatement (t : Tables) (s : Statement) : Prop :=
  ∃ r ∈ t.statements, t.ShowsStatement r s

variable {t t' : Tables} {r : StatementRow} {s s' : Statement}

theorem Admits.mono (h : t.Admits s) (hnodes : ∀ r ∈ t.nodes, r ∈ t'.nodes) (hsound : t'.Sound) :
    t'.Admits s := by
  obtain ⟨c, hc, hknows⟩ := h.context
  exact ⟨h.subject.mono hnodes hsound, h.predicate.mono hnodes hsound,
    h.object.mono hnodes hsound,
    ⟨c, hc, hknows.mono hnodes hsound⟩, fun c hc => (h.creator c hc).mono hnodes hsound, h.slots⟩

theorem Admits.knows (h : t.Admits s) : ∀ n ∈ s.nodes, t.Knows n := by
  obtain ⟨c, hc, hknows⟩ := h.context
  intro n hn
  simp only [Statement.nodes, hc, List.mem_append, List.mem_cons, List.not_mem_nil, or_false,
    Option.mem_toList, Option.some.injEq] at hn
  obtain (((rfl | rfl | rfl) | rfl) | hcreator) := hn
  · exact h.subject
  · exact h.predicate
  · exact h.object
  · exact hknows
  · exact h.creator n hcreator

theorem ShowsStatement.mono (h : t.ShowsStatement r s) (hnodes : ∀ r ∈ t.nodes, r ∈ t'.nodes)
    (hsound : t'.Sound) : t'.ShowsStatement r s :=
  { h with toAdmits := h.toAdmits.mono hnodes hsound }

theorem KnowsStatement.of_eq (h : t.KnowsStatement s) (hnodes : t'.nodes = t.nodes)
    (hstatements : t'.statements = t.statements) : t'.KnowsStatement s := by
  obtain ⟨r, hr, hshows⟩ := h
  obtain ⟨c, hc, hknows⟩ := hshows.context
  refine ⟨r, hstatements ▸ hr, { hshows with toAdmits := ⟨hshows.subject.of_eq hnodes,
    hshows.predicate.of_eq hnodes, hshows.object.of_eq hnodes, ⟨c, hc, hknows.of_eq hnodes⟩,
    fun c hc => (hshows.creator c hc).of_eq hnodes, hshows.slots⟩ }⟩

theorem ShowsStatement.plain_eq (h : t.ShowsStatement r s) (h' : t.ShowsStatement r s')
    (hsound : t.Sound) : s.plain = s'.plain := by
  have hkey : s.key = s'.key := h.key.trans h'.key.symm
  have hsubject := h.subject.eq h'.subject hsound (congrArg StatementKey.subject hkey)
  have hpredicate := h.predicate.eq h'.predicate hsound (congrArg StatementKey.predicate hkey)
  have hobject := h.object.eq h'.object hsound (congrArg StatementKey.object hkey)
  have hcontext : s.context = s'.context := by
    obtain ⟨c, hc, hknows⟩ := h.context
    obtain ⟨c', hc', hknows'⟩ := h'.context
    have hid := congrArg StatementKey.context hkey
    simp only [Statement.key, hc, hc', Option.map_some, Option.getD_some] at hid
    rw [hc, hc', hknows.eq hknows' hsound hid]
  have hcreator : s.creator = s'.creator := by
    have hid := h.creatorId.trans h'.creatorId.symm
    cases hc : s.creator with
    | none =>
        rw [hc] at hid
        exact (Option.map_eq_none_iff.mp hid.symm).symm
    | some c =>
        rw [hc] at hid
        obtain ⟨c', hc', hid'⟩ := Option.map_eq_some_iff.mp hid.symm
        rw [hc', (h.creator c hc).eq (h'.creator c' hc') hsound hid'.symm]
  simp only [Statement.plain, h.id, h'.id, hsubject, hpredicate, hobject, hcontext, hcreator,
    h.deleted, h'.deleted, h.timed, h'.timed, h.inferred, h'.inferred]

theorem ShowsStatement.of_plain (h : t.ShowsStatement r s) (hplain : s'.plain = s.plain) :
    t.ShowsStatement r s' := by
  obtain ⟨_, _, _, _, _, _, _, _, _, isNew⟩ := s
  obtain ⟨_, _, _, _, _, _, _, _, _, isNew'⟩ := s'
  simp only [Statement.plain, Statement.mk.injEq] at hplain
  obtain ⟨rfl, rfl, rfl, rfl, rfl, rfl, rfl, rfl, rfl, -⟩ := hplain
  exact { h with
    toAdmits := ⟨h.subject, h.predicate, h.object, h.context, h.creator, h.slots⟩ }

theorem shows_ofStatement (h : t.Admits s) (hdeleted : s.deleted = false)
    (htimed : s.deletionTimed = false) : t.ShowsStatement (.ofStatement s) s where
  toAdmits := h
  id := rfl
  key := rfl
  creatorId := rfl
  deleted := hdeleted
  timed := htimed
  inferred := by
    cases hinferred : s.inferred <;>
      simp [StatementRow.isInferred, StatementRow.ofStatement, hinferred]
  created := rfl
  deletedAt := rfl

theorem distinct_of_insertNode? {row : NodeRow}
    (h : ∀ r ∈ t.nodes, ∀ r' ∈ t.nodes, r.conflicts r' = true → r = r')
    (hinsert : t.insertNode? row = some t') :
    ∀ r ∈ t'.nodes, ∀ r' ∈ t'.nodes, r.conflicts r' = true → r = r' := by
  obtain ⟨rfl, hnew⟩ := insertNode?_eq_some hinsert
  intro r hr r' hr' hconflict
  rcases List.mem_append.mp hr with hr | hr <;> rcases List.mem_append.mp hr' with hr' | hr'
  · exact h r hr r' hr' hconflict
  · rw [List.mem_singleton.mp hr', NodeRow.conflicts_comm, (hnew r hr).2] at hconflict
    cases hconflict
  · rw [List.mem_singleton.mp hr, (hnew r' hr').2] at hconflict
    cases hconflict
  · rw [List.mem_singleton.mp hr, List.mem_singleton.mp hr']

/-- Whether every row can be read and is read as it was written, no two rows of nodes hold the
same term, and the nodes that rows of statements refer to are there. -/
structure Written (t : Tables) : Prop where
  shown : ∀ r ∈ t.nodes, ∃ n, t.Shows r n ∧ r.Spells n
  distinct : ∀ r ∈ t.nodes, ∀ r' ∈ t.nodes, r.conflicts r' = true → r = r'
  nonneg : ∀ r ∈ t.nodes, 0 ≤ r.id
  referenced : t.Referenced
  creators : ∀ r ∈ t.statements, ∀ id, r.creator = some id → ∃ d ∈ t.nodes, d.id = id

theorem written_empty : Written {} := by
  constructor <;> rintro r ⟨⟩

namespace Written

theorem of_eq (h : t.Written) (hnodes : t'.nodes = t.nodes)
    (hstatements : t'.statements = t.statements) :
    t'.Written := by
  refine ⟨?_, ?_, ?_, ?_, ?_⟩
  · rw [hnodes]
    intro r hr
    obtain ⟨n, hshows, hspells⟩ := h.shown r hr
    exact ⟨n, hshows.of_eq hnodes, hspells⟩
  · rw [hnodes]
    exact h.distinct
  · rw [hnodes]
    exact h.nonneg
  · rw [Referenced, hnodes, hstatements]
    exact h.referenced
  · rw [hnodes, hstatements]
    exact h.creators

theorem spells (h : t.Written) {r : NodeRow} {n : Node}
    (hr : r ∈ t.nodes) (hshows : t.Shows r n) :
    r.Spells n := by
  obtain ⟨m, hshows', hspells⟩ := h.shown r hr
  rwa [hshows.eq hshows']

theorem nonneg_of_knows (h : t.Written) {n : Node} (hn : t.Knows n) : 0 ≤ n.id := by
  obtain ⟨r, hr, hshows⟩ := hn
  rw [hshows.id]
  exact h.nonneg r hr

theorem insertNode (h : t.Written) {id : Int} {n : Node} (hid : 0 ≤ id) (htakes : t.Takes n)
    (hinsert : t.insertNode? (.ofNode id n) = some t') (hsound : t'.Sound) : t'.Written := by
  obtain ⟨rfl, -⟩ := insertNode?_eq_some hinsert
  have hnodes : ∀ r ∈ t.nodes, r ∈ t.nodes ++ [NodeRow.ofNode id n] :=
    fun r hr => List.mem_append_left _ hr
  refine ⟨?_, ?_, ?_, ?_, ?_⟩
  · intro r hr
    rcases List.mem_append.mp hr with hr | hr
    · obtain ⟨m, hshows, hspells⟩ := h.shown r hr
      exact ⟨m, hshows.mono hnodes hsound, hspells⟩
    · rw [List.mem_singleton.mp hr]
      exact ⟨_, shows_ofNode htakes hnodes hsound id⟩
  · exact distinct_of_insertNode? h.distinct hinsert
  · intro r hr
    rcases List.mem_append.mp hr with hr | hr
    · exact h.nonneg r hr
    · rw [List.mem_singleton.mp hr]
      unfold NodeRow.ofNode
      split <;> first | exact hid | (dsimp only; split <;> exact hid)
  · intro r hr hlive slot
    obtain ⟨d, hd, heq⟩ := h.referenced r hr hlive slot
    exact ⟨d, hnodes d hd, heq⟩
  · intro r hr creator hcreator
    obtain ⟨d, hd, heq⟩ := h.creators r hr creator hcreator
    exact ⟨d, hnodes d hd, heq⟩

theorem withStatement (h : t.Written) (hs : t.Admits s) :
    (t.withStatement (.ofStatement s)).Written := by
  refine ⟨fun r hr => ?_, h.distinct, h.nonneg, ?_, ?_⟩
  · obtain ⟨n, hshows, hspells⟩ := h.shown r hr
    exact ⟨n, hshows.of_eq rfl, hspells⟩
  · intro r hr hlive slot
    rcases List.mem_append.mp hr with hr | hr
    · exact h.referenced r hr hlive slot
    · obtain rfl := List.mem_singleton.mp hr
      obtain ⟨c, hc, hknows⟩ := hs.context
      cases slot with
      | subject => exact hs.subject.exists_row
      | predicate => exact hs.predicate.exists_row
      | object => exact hs.object.exists_row
      | context =>
          obtain ⟨d, hd, hid⟩ := hknows.exists_row
          refine ⟨d, hd, ?_⟩
          simp [StatementRow.slotId, StatementRow.ofStatement, Statement.key, hc, hid]
  · intro r hr id hcreator
    rcases List.mem_append.mp hr with hr | hr
    · exact h.creators r hr id hcreator
    · obtain rfl := List.mem_singleton.mp hr
      obtain ⟨c, hc, rfl⟩ := Option.map_eq_some_iff.mp hcreator
      exact (hs.creator c hc).exists_row

theorem withDeleted (h : t.Written) (ids : List Int) : (t.withDeleted ids).Written := by
  refine ⟨fun r hr => ?_, h.distinct, h.nonneg, ?_, ?_⟩
  · obtain ⟨n, hshows, hspells⟩ := h.shown r hr
    exact ⟨n, hshows.of_eq rfl, hspells⟩
  · intro r hr hlive
    exact h.referenced r (live_of_mem_withDeleted hr hlive).1 hlive
  · intro r hr id hcreator
    rcases mem_withDeleted_iff.mp hr with ⟨hr, -⟩ | ⟨r', hr', -, -, rfl⟩
    · exact h.creators r hr id hcreator
    · exact h.creators r' hr' id hcreator

theorem find?_eq (h : t.Written) {r : NodeRow} (hr : r ∈ t.nodes)
    {p : NodeRow → Bool} (hp : p r = true)
    (hconflict : ∀ r', p r' = true → r.conflicts r' = true) : t.nodes.find? p = some r := by
  obtain ⟨r', hr'⟩ := Option.isSome_iff_exists.mp (List.find?_isSome.mpr ⟨r, hr, hp⟩)
  rw [hr', h.distinct r hr r' (List.mem_of_find?_eq_some hr')
    (hconflict r' (List.find?_some hr'))]

theorem resource?_eq (h : t.Written) {r : NodeRow} (hr : r ∈ t.nodes)
    (hresource : r.isResource = true) :
    t.resource? r.kind r.lexical = some r := by
  refine h.find?_eq hr (by simp) fun r' hr' => ?_
  simp only [Bool.and_eq_true, beq_iff_eq] at hr'
  simp [NodeRow.conflicts, hresource, hr'.1, hr'.2]

theorem literal?_eq (h : t.Written) {r : NodeRow} (hr : r ∈ t.nodes)
    (hliteral : r.isResource = false)
    {language : Option String}
    (hlanguage : language.getD "" = r.language.getD "") {datatype : Int}
    (hdatatype : r.datatype = some datatype) :
    t.literal? r.lexical language (some datatype) = some r := by
  refine h.find?_eq hr (by simp [hliteral, hlanguage, hdatatype]) fun r' hr' => ?_
  simp only [Bool.and_eq_true, beq_iff_eq, Bool.not_eq_true'] at hr'
  obtain ⟨⟨⟨hliteral', hlexical⟩, hdatatype'⟩, hlanguage'⟩ := hr'
  simp [NodeRow.conflicts, hliteral, hliteral', hlexical, hdatatype,
    hdatatype', hlanguage', hlanguage]

theorem datatype_eq (h : t.Written) {r : NodeRow} {m : Node} (hshows : t.Shows r m) {l : Literal}
    (hterm : m.term = .literal l) {datatype : UriResource}
    (hknows : t.Knows ⟨datatype.id, .uri datatype.uri⟩)
    (huri : l.datatypeUri = some datatype.uri) :
    r.datatype = some datatype.id := by
  obtain ⟨d', hd', hshows'⟩ := hknows
  obtain ⟨-, hid', hkind', hlexical'⟩ := hshows'.uri
  have hliteral : m.isLiteral = true := by
    cases hvalue : l.value <;>
      simp [Node.isLiteral, Node.kind, hterm, hvalue, LiteralValue.kind, NodeKind.isLiteral]
  have hread : l.datatype = t.datatypeOf r :=
    (NodeRow.readTerm_literal (hterm ▸ hshows.term)).1
  rw [Literal.datatypeUri, hread] at huri
  cases hid : r.datatype with
  | none => simp [datatypeOf, hid] at huri
  | some id =>
      obtain ⟨d, hd, hnames⟩ := hshows.datatype hliteral id hid
      simp only [datatypeOf, hid, Option.bind_some, hd,
        Option.map_some, Option.some.injEq] at huri
      have hkind : d.kind = "uri" := (shows_of_namesUri (t := t) hnames).uri.2.2.1
      have hsame : d = d' := by
        refine h.distinct d (List.mem_of_find?_eq_some hd) d' hd' ?_
        simp [NodeRow.conflicts, NodeRow.isResource, hkind, hkind', huri, hlexical']
      have hd_id : d.id = id := by simpa using List.find?_some hd
      rw [← hd_id, hsame, hid']

theorem rowOf?_eq (h : t.Written) {n m : Node} (hn : t.Takes n) (hm : t.Knows m)
    (hkey : m.key = n.key) : ∃ r, t.rowOf? n = some r ∧ t.Shows r m := by
  obtain ⟨r, hr, hshows⟩ := hm
  refine ⟨r, ?_, hshows⟩
  obtain ⟨-, hterm⟩ := hshows.holds
  obtain ⟨id, term⟩ := n
  obtain ⟨id', term'⟩ := m
  cases term with
  | uri uri =>
      cases term' <;> simp only [Node.key, NodeKey.uri.injEq, reduceCtorEq] at hkey
      obtain ⟨hkind, rfl⟩ := hterm
      have hfind := h.resource?_eq hr (by simp [NodeRow.isResource, hkind])
      rwa [hkind, hkey] at hfind
  | blank label =>
      cases term' <;> simp only [Node.key, NodeKey.blank.injEq, reduceCtorEq] at hkey
      obtain ⟨hkind, rfl⟩ := hterm
      have hfind := h.resource?_eq hr (by simp [NodeRow.isResource, hkind])
      rwa [hkind, hkey] at hfind
  | literal l =>
      cases term' with
      | uri uri => cases hkey
      | blank label => cases hkey
      | literal l' =>
      obtain ⟨⟨-, hlowered⟩, hdatatype⟩ := hn
      obtain ⟨datatype, hl, hknows⟩ := hdatatype l rfl
      have hlowered' : l'.value.Lowered := (NodeRow.readTerm_literal hshows.term).2
      have hkey : l'.key = l.key := NodeKey.literal.inj hkey
      rw [Literal.key_of_lowered hlowered', Literal.key_of_lowered hlowered] at hkey
      obtain ⟨hcontent, hlanguage, huri⟩ := LiteralKey.mk.inj hkey
      have hrow := h.datatype_eq hshows rfl hknows (by rw [huri, Literal.datatypeUri, hl]; rfl)
      obtain ⟨hlexical, hspelt⟩ := h.spells hr hshows l' rfl
      have hfind := h.literal?_eq hr hterm (hlanguage ▸ hspelt) hrow
      rw [← hlexical, hcontent] at hfind
      have hnonneg : ¬datatype.id < 0 := by simpa using h.nonneg_of_knows hknows
      simp only [rowOf?, hl, if_neg hnonneg, hfind]

end Written
end Tables
end QuadStore
