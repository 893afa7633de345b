import QuadStore.Proofs.LegibleRows
import QuadStore.Proofs.Numerals
import QuadStore.Proofs.ToldResources

/-!
Tables in which the values of literals go with their datatypes. A row is read as the literal
that it was written for, but for numbers and moments, which may come back as others; so who
finds a text, a whole number or a truth value under its datatype finds just that, unless another
value has the same text there.
-/

namespace QuadStore

variable {W : LiteralValue → String → Prop}

/-! Values and their texts -/

namespace LiteralValue

variable {value value' : LiteralValue} {datatype : String}

theorem simple_iff : value.Simple ↔ value.kind ≠ .double ∧ value.kind ≠ .date := by
  cases value <;> simp [Simple, kind]

theorem Simple.of_kind (h : value.Simple) (hkind : value'.kind = value.kind) : value'.Simple := by
  rw [simple_iff] at h ⊢
  rwa [hkind]

theorem Simple.eq (h : value.Simple) (hkind : value'.kind = value.kind)
    (hcontent : value'.content (some datatype) = value.content (some datatype))
    (hlanguage : value'.language = value.language) : value' = value := by
  cases value with
  | string content language =>
      cases value' with
      | string content' language' =>
          obtain rfl : content' = content := hcontent
          obtain rfl : language' = language := hlanguage
          rfl
      | int | double | boolean | date => cases hkind
  | int i =>
      cases value' with
      | int j => exact congrArg LiteralValue.int (Text.intText_injective hcontent)
      | string | double | boolean | date => cases hkind
  | boolean b =>
      cases value' with
      | boolean b' =>
          cases b <;> cases b' <;> first | rfl | exact absurd hcontent (by simp [content])
      | string | int | double | date => cases hkind
  | double | date => cases h

/-- Whether a value is the only one that may be written with its text and its
language under a datatype. -/
def OwnsText (W : LiteralValue → String → Prop) (value : LiteralValue)
    (datatype : String) : Prop :=
  ∀ value', W value' datatype →
    value'.kind = value.kind ∧
        (value'.language.getD "" = value.language.getD "" → value'.language = value.language) ∨
      value'.Simple ∧ value'.content (some datatype) ≠ value.content (some datatype)

theorem OwnsText.eq (h : value.OwnsText W datatype) (hsimple : value.Simple)
    (hvalue' : W value' datatype)
    (hsame : value'.Simple → value'.content (some datatype) = value.content (some datatype) ∧
      value'.language.getD "" = value.language.getD "") : value' = value := by
  rcases h value' hvalue' with ⟨hkind, hlanguage⟩ | ⟨hsimple', hother⟩
  · obtain ⟨hcontent, hlanguage'⟩ := hsame (hsimple.of_kind hkind)
    exact hsimple.eq hkind hcontent (hlanguage hlanguage')
  · exact absurd (hsame hsimple').1 hother

end LiteralValue

/-- Whether a literal may be what another one is read back as: a simple value stays, and a number
or a moment is one still. -/
structure Literal.Restores (l l' : Literal) : Prop where
  kind : l.value.kind = l'.value.kind
  datatype : l.datatype = l'.datatype
  value : l'.value.Simple → l.value = l'.value

theorem Literal.Restores.refl (l : Literal) : l.Restores l :=
  ⟨rfl, rfl, fun _ => rfl⟩

theorem NodeRow.Records.restores {r : NodeRow} {n : Node} {l l' : Literal} (h : r.Records n)
    (hterm : n.term = .literal l') (hlowered : l'.value.Lowered)
    (hread : r.readTerm l'.value.kind l'.datatype = .ok (.literal l)) : l.Restores l' := by
  obtain ⟨id, _⟩ := n
  obtain rfl : _ = Term.literal l' := hterm
  have hrow := h.row
  obtain ⟨value, datatype⟩ := l'
  rw [hrow] at hread
  cases value with
  | string content language =>
      have hlowered : language.map Text.lowerCase = language := hlowered
      obtain ⟨rfl⟩ := Term.literal.inj (Except.ok.inj hread)
      refine ⟨rfl, rfl, fun _ => ?_⟩
      show LiteralValue.string content (language.map Text.lowerCase) = _
      rw [hlowered]
  | int i =>
      obtain ⟨rfl⟩ := Term.literal.inj (Except.ok.inj hread)
      exact .refl _
  | boolean b =>
      obtain ⟨rfl⟩ := Term.literal.inj (Except.ok.inj hread)
      refine ⟨rfl, rfl, fun _ => ?_⟩
      cases b <;> rfl
  | double | date =>
      obtain ⟨v, -, hl⟩ := exists_of_bind hread
      obtain ⟨rfl⟩ := Term.literal.inj hl
      exact ⟨rfl, rfl, by rintro ⟨⟩⟩

namespace Tables

variable {t t' : Tables} {r : NodeRow} {n n' : Node} {l l' : Literal}

/-- Whether a literal may be written: its language is in lower case, its datatype has a row, and
its value goes with that. -/
structure Suits (W : LiteralValue → String → Prop) (t : Tables) (l : Literal) : Prop where
  lowered : l.value.Lowered
  datatype : ∃ datatype, l.datatype = some datatype ∧ W l.value datatype.uri ∧
    t.HoldsNode ⟨datatype.id, .uri datatype.uri⟩

/-- Whether every row was written for a node, that of a literal for one whose value goes with its
datatype, and no two rows have the same id or hold the same node. -/
structure Typed (W : LiteralValue → String → Prop) (t : Tables) : Prop where
  ids : (t.nodes.map NodeRow.id).Nodup
  nonneg : ∀ r ∈ t.nodes, 0 ≤ r.id
  written : ∀ r ∈ t.nodes, ∃ n, r.Records n ∧ ∀ l, n.term = .literal l → t.Suits W l
  distinct : ∀ r ∈ t.nodes, ∀ r' ∈ t.nodes, r.conflicts r' = true → r = r'

/-- Whether a row was written for a value of a datatype, which it tells by its kind, its
text and its language. -/
structure WrittenFor (W : LiteralValue → String → Prop) (t : Tables)
    (r : NodeRow) (value : LiteralValue) (datatype : UriResource) : Prop where
  row : r ∈ t.nodes
  lowered : value.Lowered
  fits : W value datatype.uri
  held : t.HoldsNode ⟨datatype.id, .uri datatype.uri⟩
  literal : r.isResource = false
  kind : r.readKind = .ok value.kind
  lexical : r.lexical = value.content (some datatype.uri)
  language : r.language = value.language
  column : r.datatype = some datatype.id

/-- Whether a node is what a row may be read as. -/
def Reflects (W : LiteralValue → String → Prop) (t : Tables) (n : Node) : Prop :=
  ∃ r ∈ t.nodes, r.Holds n ∧ ∀ l, n.term = .literal l →
    ∃ value datatype, t.WrittenFor W r value datatype ∧ l.Restores ⟨value, some datatype⟩

/-- Whether a value has a row under a datatype. -/
def HoldsValue (W : LiteralValue → String → Prop) (t : Tables) (value : LiteralValue)
    (datatype : String) : Prop :=
  ∃ r d, t.WrittenFor W r value d ∧ d.uri = datatype

theorem Suits.mono (h : t.Suits W l) (hnodes : ∀ r ∈ t.nodes, r ∈ t'.nodes) : t'.Suits W l := by
  obtain ⟨datatype, hl, hvalue, hholds⟩ := h.datatype
  exact ⟨h.lowered, datatype, hl, hvalue, hholds.mono hnodes⟩

theorem WrittenFor.mono {value : LiteralValue} {datatype : UriResource}
    (h : t.WrittenFor W r value datatype) (hnodes : ∀ r ∈ t.nodes, r ∈ t'.nodes) :
    t'.WrittenFor W r value datatype :=
  { h with row := hnodes r h.row, held := h.held.mono hnodes }

theorem HoldsValue.mono {value : LiteralValue} {datatype : String}
    (h : t.HoldsValue W value datatype)
    (hnodes : ∀ r ∈ t.nodes, r ∈ t'.nodes) : t'.HoldsValue W value datatype := by
  obtain ⟨r, d, hwritten, hd⟩ := h
  exact ⟨r, d, hwritten.mono hnodes, hd⟩

theorem writtenFor_of_records (hr : r ∈ t.nodes) (hrow : r.Records n)
    (hterm : n.term = .literal l) (hsuits : t.Suits W l) :
    ∃ datatype, l.datatype = some datatype ∧ t.WrittenFor W r l.value datatype := by
  obtain ⟨hlowered, datatype, hl, hvalue, hheld⟩ := hsuits
  obtain ⟨hliteral, hlexical, hlanguage, hcolumn⟩ := hrow.literal hterm
  rw [Literal.content, Literal.datatypeUri, hl] at hlexical
  rw [hl] at hcolumn
  refine ⟨datatype, hl, hr, hlowered, hvalue, hheld, hliteral, ?_, hlexical, hlanguage, hcolumn⟩
  rw [hrow.readKind, Node.kind, hterm]

theorem typed_empty : Typed W {} := by
  constructor <;> simp

namespace Reflects

theorem holdsNode (h : t.Reflects W n) : t.HoldsNode n := by
  obtain ⟨r, hr, hholds, -⟩ := h
  exact ⟨r, hr, hholds⟩

theorem mono (h : t.Reflects W n) (hnodes : ∀ r ∈ t.nodes, r ∈ t'.nodes) : t'.Reflects W n := by
  obtain ⟨r, hr, hholds, hliteral⟩ := h
  refine ⟨r, hnodes r hr, hholds, fun l hterm => ?_⟩
  obtain ⟨value, datatype, hwritten, hrestores⟩ := hliteral l hterm
  exact ⟨value, datatype, hwritten.mono hnodes, hrestores⟩

end Reflects

theorem reflects_of_records (hr : r ∈ t.nodes) (hrow : r.Records n)
    (hsuits : ∀ l, n.term = .literal l → t.Suits W l) : t.Reflects W n := by
  refine ⟨r, hr, hrow.holds, fun l hterm => ?_⟩
  obtain ⟨datatype, hl, hwritten⟩ := writtenFor_of_records hr hrow hterm (hsuits l hterm)
  obtain ⟨value, _⟩ := l
  obtain rfl : _ = some datatype := hl
  exact ⟨value, datatype, hwritten, .refl _⟩

namespace Typed

theorem of_eq (h : t.Typed W) (hnodes : t'.nodes = t.nodes) : t'.Typed W := by
  refine ⟨hnodes ▸ h.ids, hnodes ▸ h.nonneg, fun r hr => ?_, hnodes ▸ h.distinct⟩
  obtain ⟨n, hrow, hsuits⟩ := h.written r (hnodes ▸ hr)
  exact ⟨n, hrow, fun l hterm => (hsuits l hterm).mono fun r hr => hnodes ▸ hr⟩

theorem sound (h : t.Typed W) : Sound { nodes := t.nodes } := by
  refine ⟨h.ids, fun r hr r' hr' hresource hkind hlexical => ?_, .nil, by simp, by simp⟩
  refine h.distinct r hr r' hr' ?_
  rw [NodeRow.conflicts, if_pos hresource, hkind, hlexical, beq_self_eq_true, beq_self_eq_true]
  rfl

theorem tells (h : t.Typed W) : t.Tells := by
  refine ⟨h.ids, h.sound.resources, fun r hr _ => ?_⟩
  obtain ⟨n, hrow, -⟩ := h.written r hr
  exact ⟨hrow.checkOffset, hrow.created⟩

theorem recorded (h : t.Typed W) : t.Recorded fun _ => True := by
  refine ⟨fun r hr => ?_, h.distinct⟩
  obtain ⟨n, hrow, hsuits⟩ := h.written r hr
  refine ⟨n, hrow, fun l hterm => ⟨trivial, ?_⟩⟩
  obtain ⟨datatype, hl, -, hholds⟩ := (hsuits l hterm).datatype
  exact ⟨datatype, hl, hholds⟩

theorem uri_eq (h : t.Typed W) {id : Int} {uri uri' : String} (hheld : t.HoldsNode ⟨id, .uri uri⟩)
    (hheld' : t.HoldsNode ⟨id, .uri uri'⟩) : uri = uri' :=
  HoldsNode.uri_eq (t := { nodes := t.nodes }) hheld hheld' h.sound

theorem id_eq (h : t.Typed W) {id id' : Int} {uri : String} (hheld : t.HoldsNode ⟨id, .uri uri⟩)
    (hheld' : t.HoldsNode ⟨id', .uri uri⟩) : id = id' :=
  HoldsNode.id_eq (t := { nodes := t.nodes }) hheld hheld' h.sound

theorem nonneg_of_holdsNode (h : t.Typed W) (hn : t.HoldsNode n) : 0 ≤ n.id := by
  obtain ⟨r, hr, hid, -⟩ := hn
  exact hid ▸ h.nonneg r hr

theorem insertNode (h : t.Typed W) {id : Int} (hid : 0 ≤ id)
    (hsuits : ∀ l, n.term = .literal l → t.Suits W l)
    (hinsert : t.insertNode? (.ofNode id n) = some t') : t'.Typed W := by
  have hfits : t.Fits (fun _ => True) n := by
    intro l hterm
    obtain ⟨datatype, hl, -, hholds⟩ := (hsuits l hterm).datatype
    exact ⟨trivial, datatype, hl, hholds⟩
  have hdistinct := (h.recorded.insertNode hfits hinsert).distinct
  have hids := (h.tells.insertNode hinsert).ids
  obtain ⟨rfl, -⟩ := insertNode?_eq_some hinsert
  have hnodes : ∀ r ∈ t.nodes, r ∈ t.nodes ++ [NodeRow.ofNode id n] :=
    fun r hr => List.mem_append_left _ hr
  refine ⟨hids, fun r hr => ?_, fun r hr => ?_, hdistinct⟩
  · rcases List.mem_append.mp hr with hr | hr
    · exact h.nonneg r hr
    · rw [List.mem_singleton.mp hr, (Action.holds_ofNode id n).1]
      exact hid
  · rcases List.mem_append.mp hr with hr | hr
    · obtain ⟨m, hrow, hm⟩ := h.written r hr
      exact ⟨m, hrow, fun l hterm => (hm l hterm).mono hnodes⟩
    · rw [List.mem_singleton.mp hr]
      exact ⟨n.withId id, NodeRow.records_ofNode id n,
        fun l hterm => (hsuits l hterm).mono hnodes⟩

/-- A row that is no resource was written for a literal. -/
theorem literal (h : t.Typed W) (hr : r ∈ t.nodes) (hliteral : r.isResource = false) :
    ∃ n value datatype, r.Records n ∧ n.term = .literal ⟨value, some datatype⟩ ∧
      t.WrittenFor W r value datatype := by
  obtain ⟨n, hrow, hsuits⟩ := h.written r hr
  have hholds := hrow.holds.2
  cases hterm : n.term with
  | literal l =>
      obtain ⟨datatype, hl, hwritten⟩ := writtenFor_of_records hr hrow hterm (hsuits l hterm)
      obtain ⟨value, _⟩ := l
      obtain rfl : _ = some datatype := hl
      exact ⟨n, value, datatype, hrow, hterm, hwritten⟩
  | uri uri | blank label =>
      rw [hterm] at hholds
      simp [NodeRow.isResource, hholds.1] at hliteral

theorem reflects_of_toNode (h : t.Typed W) (hr : r ∈ t.nodes) {kind : NodeKind}
    (hkind : r.readKind = .ok kind) {datatype : Option UriResource}
    (hdatatype : kind.isLiteral = true → ∀ id, r.datatype = some id →
      ∃ uri, datatype = some ⟨id, uri⟩ ∧ t.HoldsNode ⟨id, .uri uri⟩)
    (hnode : r.toNode kind datatype = .ok n) : t.Reflects W n := by
  have hholds := NodeRow.holds_of_toNode hkind hnode
  refine ⟨r, hr, hholds, fun l hterm => ?_⟩
  have hliteral : r.isResource = false := by
    have hrow := hholds.2
    rwa [hterm] at hrow
  obtain ⟨m, value, datatype', hrow, hm, hwritten⟩ := h.literal hr hliteral
  obtain rfl : kind = value.kind := Except.ok.inj (hkind.symm.trans hwritten.kind)
  obtain ⟨uri, rfl, hheld⟩ := hdatatype (by cases value <;> rfl) _ hwritten.column
  obtain rfl := h.uri_eq hheld hwritten.held
  have hread := (NodeRow.toNode_eq_ok_iff.mp hnode).1
  rw [hterm] at hread
  exact ⟨value, _, hwritten, hrow.restores hm hwritten.lowered hread⟩

theorem rowOf?_literal {id : Int} {value : LiteralValue} {datatype : UriResource}
    (h : t.rowOf? ⟨id, .literal ⟨value, some datatype⟩⟩ = some r) :
    r ∈ t.nodes ∧ r.isResource = false ∧ r.lexical = value.content (some datatype.uri) ∧
      r.datatype.getD (-1) = datatype.id ∧ r.language.getD "" = value.language.getD "" := by
  simp only [rowOf?] at h
  split at h
  · cases h
  have hspec := List.find?_some h
  simp only [Bool.and_eq_true, beq_iff_eq, Bool.not_eq_true', Option.getD_some] at hspec
  obtain ⟨⟨⟨hliteral, hlexical⟩, hid⟩, hlanguage⟩ := hspec
  exact ⟨List.mem_of_find?_eq_some h, hliteral, hlexical, hid, hlanguage⟩

theorem insertNode?_of_new (h : t.Typed W) {id : Int} (hid : id ∉ t.nodes.map NodeRow.id)
    (hsuits : ∀ l, n.term = .literal l → t.Suits W l) (hrow : t.rowOf? n = none) :
    t.insertNode? (.ofNode id n) = some { t with nodes := t.nodes ++ [.ofNode id n] } := by
  obtain ⟨id', term⟩ := n
  cases term with
  | uri | blank => rw [insertNode?_of_rowOf?_eq_none rfl hrow, if_neg hid]
  | literal l =>
      obtain ⟨datatype, hl, -, hheld⟩ := (hsuits l rfl).datatype
      obtain ⟨value, _⟩ := l
      obtain rfl : _ = some datatype := hl
      have hnonneg : ¬datatype.id < 0 := not_lt.mpr (h.nonneg_of_holdsNode hheld)
      simp only [rowOf?, if_neg hnonneg] at hrow
      obtain ⟨hliteral, hlexical, hlanguage, hcolumn⟩ :=
        (NodeRow.records_ofNode id ⟨id', .literal ⟨value, some datatype⟩⟩).literal rfl
      -- A row in the way would have been found: the unique index compares
      -- what the lookup compares.
      refine if_neg ?_
      rw [List.any_eq_true]
      rintro ⟨r, hr, hclash⟩
      rw [Bool.or_eq_true, beq_iff_eq, (Action.holds_ofNode _ _).1] at hclash
      rcases hclash with htaken | hconflict
      · exact hid (List.mem_map.mpr ⟨r, hr, htaken⟩)
      · rw [NodeRow.conflicts, if_neg (by simp [hliteral]), hlexical,
          hlanguage, hcolumn] at hconflict
        refine List.find?_eq_none.mp hrow r hr ?_
        simp only [Bool.and_eq_true, beq_iff_eq] at hconflict ⊢
        obtain ⟨⟨⟨hr_literal, hr_lexical⟩, hr_datatype⟩, hr_language⟩ := hconflict
        exact ⟨⟨⟨hr_literal, hr_lexical.symm⟩, hr_datatype.symm⟩, hr_language.symm⟩

/-! Simple literals -/

section

variable {value value' written : LiteralValue} {datatype datatype' : UriResource}

section

variable (h : t.Typed W) (hheld : t.HoldsNode ⟨datatype.id, .uri datatype.uri⟩)
variable (howns : value.OwnsText W datatype.uri) (hsimple : value.Simple)

include h hheld howns hsimple

theorem eq_of_written (hwritten : t.WrittenFor W r written datatype')
    (hrestores : l.Restores ⟨written, some datatype'⟩) (hid : datatype'.id = datatype.id)
    (hsame : written.Simple → written.content (some datatype.uri) =
      value.content (some datatype.uri) ∧
      written.language.getD "" = value.language.getD "") : l = ⟨value, some datatype⟩ := by
  obtain ⟨id', uri'⟩ := datatype'
  obtain rfl : id' = datatype.id := hid
  obtain rfl := h.uri_eq hwritten.held hheld
  -- Now both values are under one datatype, where no other value may have
  -- the text that is looked for.
  have hvalue : written = value := howns.eq hsimple hwritten.fits hsame
  subst hvalue
  obtain ⟨value, _⟩ := l
  obtain rfl : _ = some datatype := hrestores.datatype
  obtain rfl : value = written := hrestores.value hsimple
  rfl

theorem eq_of_rowOf? {id : Int} (hrow : t.rowOf? ⟨id, .literal ⟨value, some datatype⟩⟩ = some r)
    (hwritten : t.WrittenFor W r written datatype')
    (hrestores : l.Restores ⟨written, some datatype'⟩) :
    l = ⟨value, some datatype⟩ := by
  obtain ⟨-, -, hlexical, hdatatype, hlanguage⟩ := rowOf?_literal hrow
  rw [hwritten.column, Option.getD_some] at hdatatype
  have huri : datatype'.uri = datatype.uri := h.uri_eq hwritten.held (hdatatype ▸ hheld)
  refine h.eq_of_written hheld howns hsimple hwritten hrestores hdatatype
    fun _ => ⟨?_, hwritten.language ▸ hlanguage⟩
  rw [← hlexical, hwritten.lexical, huri]

theorem records_of_rowOf? {id : Int}
    (hrow : t.rowOf? ⟨id, .literal ⟨value, some datatype⟩⟩ = some r) :
    ∃ n, r.Records n ∧ n.term = .literal ⟨value, some datatype⟩ := by
  obtain ⟨hr, hliteral, -⟩ := rowOf?_literal hrow
  obtain ⟨n, written, datatype', hrecords, hterm, hwritten⟩ := h.literal hr hliteral
  refine ⟨n, hrecords, hterm.trans (congrArg Term.literal ?_)⟩
  exact h.eq_of_rowOf? hheld howns hsimple hrow hwritten (.refl _)

theorem term_of_rowOf? (hn : t.Reflects W n) {id : Int}
    (hrow : t.rowOf? ⟨id, .literal ⟨value, some datatype⟩⟩ = some r) (hid : n.id = r.id) :
    n.term = .literal ⟨value, some datatype⟩ := by
  obtain ⟨hr, hliteral, -⟩ := rowOf?_literal hrow
  obtain ⟨r', hr', hholds, hread⟩ := hn
  obtain rfl : r' = r := List.inj_on_of_nodup_map h.ids hr' hr (hholds.1.trans hid)
  obtain ⟨id', term⟩ := n
  cases term with
  | uri | blank => simp [NodeRow.isResource, hholds.2.1] at hliteral
  | literal l =>
      obtain ⟨written, datatype', hwritten, hrestores⟩ := hread l rfl
      exact congrArg Term.literal (h.eq_of_rowOf? hheld howns hsimple hrow hwritten hrestores)

theorem term_of_key (hn : t.Reflects W n)
    (hkey : n.literalKey? = some (Literal.key ⟨value, some datatype⟩))
    (hlowered : value.Lowered) : n.term = .literal ⟨value, some datatype⟩ := by
  obtain ⟨id, term⟩ := n
  cases term with
  | uri | blank => cases hkey
  | literal l =>
      have hkey : l.key = Literal.key ⟨value, some datatype⟩ := Option.some.inj hkey
      obtain ⟨r, hr, hholds, hread⟩ := hn
      obtain ⟨written, datatype', hwritten, hrestores⟩ := hread l rfl
      have hdatatype : l.datatypeUri = some datatype'.uri :=
        congrArg (Option.map UriResource.uri) hrestores.datatype
      have huri : datatype'.uri = datatype.uri :=
        Option.some.inj (hdatatype.symm.trans (congrArg LiteralKey.datatype hkey))
      have hid : datatype'.id = datatype.id := h.id_eq (huri ▸ hwritten.held) hheld
      refine congrArg Term.literal (h.eq_of_written hheld howns hsimple hwritten hrestores hid
        fun hwritten_simple => ?_)
      obtain ⟨read, _⟩ := l
      obtain rfl : read = written := hrestores.value hwritten_simple
      have hcontent := congrArg LiteralKey.content hkey
      have hlanguage : read.language.map Text.lowerCase = value.language.map Text.lowerCase :=
        congrArg LiteralKey.language hkey
      rw [hwritten.lowered, hlowered] at hlanguage
      refine ⟨?_, by rw [hlanguage]⟩
      rw [← huri, ← hdatatype]
      refine hcontent.trans ?_
      rw [hdatatype, huri]
      rfl

end

theorem exists_written (hn : t.Reflects W n) (hterm : n.term = .literal ⟨value, some datatype⟩)
    (hsimple : value.Simple) : ∃ r, r.id = n.id ∧ t.WrittenFor W r value datatype := by
  obtain ⟨r, hr, hholds, hread⟩ := hn
  obtain ⟨written, datatype', hwritten, hrestores⟩ := hread _ hterm
  obtain rfl : datatype = datatype' := Option.some.inj hrestores.datatype
  obtain rfl : value = written := hrestores.value (hsimple.of_kind hrestores.kind.symm)
  exact ⟨r, hholds.1, hwritten⟩

theorem holdsValue_of_reflects (hn : t.Reflects W n)
    (hterm : n.term = .literal ⟨value, some datatype⟩)
    (hsimple : value.Simple) : t.HoldsValue W value datatype.uri := by
  obtain ⟨r, -, hwritten⟩ := exists_written hn hterm hsimple
  exact ⟨r, datatype, hwritten, rfl⟩

theorem rowOf?_ne_none (h : t.Typed W) (hheld : t.HoldsNode ⟨datatype.id, .uri datatype.uri⟩)
    (hstored : t.HoldsValue W value datatype.uri) (id : Int) :
    t.rowOf? ⟨id, .literal ⟨value, some datatype⟩⟩ ≠ none := by
  obtain ⟨r, ⟨id', _⟩, hwritten, rfl⟩ := hstored
  obtain rfl : id' = datatype.id := h.id_eq hwritten.held hheld
  have hnonneg : ¬datatype.id < 0 := not_lt.mpr (h.nonneg_of_holdsNode hheld)
  simp only [rowOf?]
  rw [if_neg hnonneg]
  intro hnone
  have hmissing := List.find?_eq_none.mp hnone r hwritten.row
  simp [hwritten.literal, Literal.content, Literal.language,
    Literal.datatypeUri, hwritten.lexical, hwritten.language, hwritten.column] at hmissing

theorem id_eq_iff (h : t.Typed W) (hn : t.Reflects W n) (hn' : t.Reflects W n')
    (hterm : n.term = .literal ⟨value, some datatype⟩) (hsimple : value.Simple)
    (hterm' : n'.term = .literal ⟨value', some datatype'⟩) (hsimple' : value'.Simple) :
    n.id = n'.id ↔ value = value' ∧ datatype.uri = datatype'.uri := by
  obtain ⟨r, hr, hwritten⟩ := exists_written hn hterm hsimple
  obtain ⟨r', hr', hwritten'⟩ := exists_written hn' hterm' hsimple'
  rw [← hr, ← hr']
  constructor
  · intro hid
    obtain rfl := List.inj_on_of_nodup_map h.ids hwritten.row hwritten'.row hid
    have hdatatype : datatype.id = datatype'.id :=
      Option.some.inj (hwritten.column.symm.trans hwritten'.column)
    have huri : datatype.uri = datatype'.uri :=
      h.uri_eq hwritten.held (hdatatype ▸ hwritten'.held)
    have hkind : value.kind = value'.kind :=
      Except.ok.inj (hwritten.kind.symm.trans hwritten'.kind)
    have hcontent : value.content (some datatype.uri) = value'.content (some datatype.uri) := by
      rw [← hwritten.lexical, hwritten'.lexical, huri]
    have hlanguage : value.language = value'.language := by
      rw [← hwritten.language, hwritten'.language]
    exact ⟨hsimple'.eq hkind hcontent hlanguage, huri⟩
  · rintro ⟨rfl, huri⟩
    have hdatatype : datatype.id = datatype'.id := h.id_eq (huri ▸ hwritten.held) hwritten'.held
    refine congrArg NodeRow.id (h.distinct r hwritten.row r' hwritten'.row ?_)
    simp [NodeRow.conflicts, hwritten.literal, hwritten'.literal,
      hwritten.lexical, hwritten'.lexical, huri,
      hwritten.language, hwritten'.language, hwritten.column, hwritten'.column, hdatatype]

end

end Typed

end Tables
end QuadStore
