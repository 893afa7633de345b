import QuadStore.Proofs.Identification
import QuadStore.Proofs.MomentTexts
import QuadStore.Proofs.WrittenTables

namespace QuadStore

/-- The key of a literal with a value of a datatype. -/
def LiteralValue.key (value : LiteralValue) (datatype : String) : LiteralKey :=
  .make (value.content (some datatype)) value.language (some datatype)

theorem Literal.key_of_datatype {l : Literal} {datatype : UriResource}
    (h : l.datatype = some datatype) :
    l.key = l.value.key datatype.uri := by
  obtain ⟨value, _⟩ := l
  obtain rfl : _ = some datatype := h
  rfl

/-! Literals that are asked for -/

namespace LiteralValue

/-- Whether a value is a floating point number that is no number. -/
def isNaN : LiteralValue → Bool
  | .double x => x.isNaN
  | _ => false

/-- A value as it is kept: its language is written in lower case. -/
def lowered : LiteralValue → LiteralValue
  | .string content language => .string content (language.map Text.lowerCase)
  | value => value

/-- The value and the datatype that a text of some datatype stands for. One that cannot
be read is a mere text. -/
def ofText (content datatype : String) : LiteralValue × String :=
  match read datatype content with
  | some value => (value, datatype)
  | none => (.string content none, Vocabulary.xsdString)

end LiteralValue

/-- The value and the datatype that a literal stands for. One without a datatype
has the one that fits. -/
def Literal.asked (l : Literal) : LiteralValue × String :=
  (l.value, l.datatypeUri.getD l.value.defaultDatatype)

/-- The value that has to be written for a node, if it is a literal that is not stored yet. -/
def Node.newValue? (n : Node) : Option LiteralValue :=
  if n.isPersisted then none else n.literal?.map Literal.value

theorem Node.term_of_literal? {n : Node} {l : Literal} (h : n.literal? = some l) :
    n.term = .literal l := by
  obtain ⟨id, term⟩ := n
  cases term with
  | literal l' => exact congrArg Term.literal (Option.some.inj h)
  | uri uri | blank label => cases h

/-! Values that come back from their columns -/

theorem Binary64.eq_of_stored {x y : Binary64} (hzero : x.isZero = true → x.negative = false)
    (h : x.stored = some y) : y = x := by
  unfold Binary64.stored at h
  split at h
  · cases h
  · split at h
    · rename_i hx
      obtain ⟨negative, magnitude, hlt⟩ := x
      obtain rfl : negative = false := hzero hx
      obtain rfl : magnitude = 0 := by simpa [isZero] using hx
      rw [← Option.some.inj h]
      rfl
    · exact (Option.some.inj h).symm

namespace LiteralValue

/-- Whether a value is the same when it is read back from its row, as far as it can be read. The
column of numbers keeps no sign of zero, rows do not tell an empty language from none, and a leap
second has to follow the last second of a minute. -/
def Lasts : LiteralValue → Prop
  | .string _ language => language.map Text.lowerCase = language ∧ language ≠ some ""
  | .int _ | .boolean _ => True
  | .double x => x.isZero = true → x.negative = false
  | .date m => m.nanos < 1000000000 ∨ m.seconds % 60 = 59

instance : DecidablePred Lasts
  | .string _ language =>
      inferInstanceAs (Decidable (language.map Text.lowerCase = language ∧ language ≠ some ""))
  | .int _ | .boolean _ => inferInstanceAs (Decidable True)
  | .double x => inferInstanceAs (Decidable (x.isZero = true → x.negative = false))
  | .date m => inferInstanceAs (Decidable (m.nanos < 1000000000 ∨ m.seconds % 60 = 59))

theorem Lasts.lowered {value : LiteralValue} (h : value.Lasts) : value.Lowered := by
  cases value with
  | string content language => exact h.1
  | int | boolean | double | date => rfl

theorem Lasts.language_ne {value : LiteralValue} (h : value.Lasts) :
    value.language ≠ some "" := by
  cases value with
  | string content language => exact h.2
  | int | boolean | double | date => simp [language]

/-- Conditions of lasting values that texts satisfy when they last. -/
class Lasting (V : LiteralValue → Prop) : Prop where
  lasts : ∀ {value}, V value → value.Lasts
  text : ∀ {content language}, (LiteralValue.string content language).Lasts →
    V (.string content language)

instance : Lasting Lasts :=
  ⟨id, id⟩

end LiteralValue

namespace NodeRow

variable {r : NodeRow} {n : Node} {l : Literal} {kind : NodeKind} {datatype : Option UriResource}

/-- Whether a row is the one that a node was written as, at some time that can be read. -/
structure Records (r : NodeRow) (n : Node) : Prop where
  row : r = { ofNode n.id n with created := r.created }
  created : r.created.check = .ok ()

theorem records_ofNode (id : Int) (n : Node) : (ofNode id n).Records (n.withId id) := by
  refine ⟨?_, ?_⟩ <;> obtain ⟨id', term⟩ := n <;> cases term with
  | uri uri => rfl
  | blank label => rfl
  | literal l =>
      obtain ⟨value, datatype⟩ := l
      cases value <;> rfl

namespace Records

theorem holds (h : r.Records n) : r.Holds n := by
  rw [h.row]
  exact Action.holds_ofNode n.id n

theorem id (h : r.Records n) : r.id = n.id :=
  h.holds.1

theorem kind_eq (h : r.Records n) : r.kind = n.kind.name := by
  rw [h.row]
  obtain ⟨id, term⟩ := n
  cases term with
  | uri uri => rfl
  | blank label => rfl
  | literal l =>
      obtain ⟨value, datatype⟩ := l
      cases value <;> rfl

theorem readKind (h : r.Records n) : r.readKind = .ok n.kind := by
  rw [NodeRow.readKind, h.kind_eq, NodeKind.ofName?_name]
  rfl

theorem literal (h : r.Records n) (hterm : n.term = .literal l) :
    r.isResource = false ∧ r.lexical = l.content ∧ r.language = l.language ∧
      r.datatype = l.datatype.map UriResource.id := by
  have hholds := h.holds
  obtain ⟨id, term⟩ := n
  obtain rfl : term = .literal l := hterm
  refine ⟨hholds.2, ?_⟩
  rw [h.row]
  obtain ⟨value, datatype⟩ := l
  cases value <;> exact ⟨rfl, rfl, rfl⟩

end Records

theorem require_eq_ok {α : Type} {column : String} {value : Option α} {v : α}
    (h : r.require column value = .ok v) : value = some v := by
  cases value with
  | none => cases h
  | some u => exact congrArg some (Except.ok.inj h)

theorem readMoment_eq {m m' : Moment} (hlasts : (LiteralValue.date m).Lasts)
    (htime : r.time = some m.columnText) (hoffset : r.offset = some m.offset)
    (h : r.readMoment = .ok m') : m' = m := by
  unfold readMoment at h
  rw [htime, hoffset] at h
  simp only [require, pure_bind, Option.getD_some] at h
  rw [if_neg (not_le.mpr m.offset_lt)] at h
  cases hfound : Moment.readTimestamp m.columnText with
  | error cause =>
      rw [hfound] at h
      cases h
  | ok m₁ =>
      rw [hfound] at h
      obtain rfl := Moment.eq_toUtc_of_readTimestamp hlasts hfound
      have hwith : m.toUtc.withOffset? m.offset = some m := dif_pos ⟨m.nanos_lt, m.offset_lt⟩
      exact Option.some.inj ((require_eq_ok h).symm.trans hwith)

theorem exists_of_bind {α : Type} {x : Except DataFault α} {f : α → Literal} {term : Term}
    (h : (do pure (.literal (f (← x)))) = Except.ok term) :
    ∃ v, x = .ok v ∧ term = .literal (f v) := by
  cases x with
  | error fault => cases h
  | ok v => exact ⟨v, rfl, (Except.ok.inj h).symm⟩

theorem readTerm_literal_eq (h : r.Records n)
    (hterm : n.term = .literal l) (hlasts : l.value.Lasts)
    {term : Term} (hread : r.readTerm l.value.kind datatype = .ok term) :
    term = .literal ⟨l.value, datatype⟩ := by
  obtain ⟨id, _⟩ := n
  obtain rfl : _ = Term.literal l := hterm
  have hrow := h.row
  obtain ⟨value, _⟩ := l
  rw [hrow] at hread
  cases value with
  | string content language =>
      have hlowered : language.map Text.lowerCase = language := hlasts.1
      rw [← Except.ok.inj hread]
      show Term.literal ⟨.string content (language.map Text.lowerCase), datatype⟩ = _
      rw [hlowered]
  | int i => exact (Except.ok.inj hread).symm
  | boolean b =>
      rw [← Except.ok.inj hread]
      cases b <;> rfl
  | double x =>
      obtain ⟨y, hy, rfl⟩ := exists_of_bind hread
      rw [Binary64.eq_of_stored hlasts (require_eq_ok hy)]
  | date m =>
      obtain ⟨m', hm, rfl⟩ := exists_of_bind hread
      rw [readMoment_eq hlasts rfl rfl hm]

end NodeRow

namespace Tables

variable {V : LiteralValue → Prop} {t t' : Tables} {r r' : NodeRow} {n n' : Node} {l l' : Literal}

/-- The key that the row of a literal tells. -/
def literalKey (t : Tables) (r : NodeRow) : LiteralKey :=
  ⟨r.lexical, r.language, (t.datatypeOf r).map UriResource.uri⟩

/-- Whether a node has a row, which tells its key if it is a literal. -/
def Identifies (t : Tables) (n : Node) : Prop :=
  ∃ r ∈ t.nodes, r.Holds n ∧ ∀ l, n.term = .literal l → l.key = t.literalKey r

/-- Whether a node may be written: the value of a literal satisfies a condition, and
its datatype has a row. -/
def Fits (V : LiteralValue → Prop) (t : Tables) (n : Node) : Prop :=
  ∀ l, n.term = .literal l → V l.value ∧ ∃ datatype, l.datatype = some datatype ∧
    t.HoldsNode ⟨datatype.id, .uri datatype.uri⟩

/-- Whether every row was written for a node that may be written, and no two
rows hold the same one. -/
structure Recorded (V : LiteralValue → Prop) (t : Tables) : Prop where
  recorded : ∀ r ∈ t.nodes, ∃ n, r.Records n ∧ t.Fits V n
  distinct : ∀ r ∈ t.nodes, ∀ r' ∈ t.nodes, r.conflicts r' = true → r = r'

theorem recorded_empty : Recorded V {} := by
  constructor <;> rintro r ⟨⟩

theorem Recorded.imp {V' : LiteralValue → Prop} (h : t.Recorded V)
    (hV : ∀ value, V value → V' value) :
    t.Recorded V' := by
  refine ⟨fun r hr => ?_, h.distinct⟩
  obtain ⟨n, hrow, hfits⟩ := h.recorded r hr
  exact ⟨n, hrow, fun l hterm => (hfits l hterm).imp_left (hV _)⟩

theorem Fits.mono (h : t.Fits V n) (hnodes : ∀ r ∈ t.nodes, r ∈ t'.nodes) : t'.Fits V n := by
  intro l hterm
  obtain ⟨hvalue, datatype, hl, hholds⟩ := h l hterm
  exact ⟨hvalue, datatype, hl, hholds.mono hnodes⟩

theorem HoldsNode.nodeById? (h : t.HoldsNode n) (hnodes : ∀ r ∈ t.nodes, r ∈ t'.nodes)
    (hsound : t'.Sound) : ∃ d, t.nodeById? n.id = some d ∧ d.Holds n := by
  obtain ⟨d, hd, hholds⟩ := h
  refine ⟨d, ?_, hholds⟩
  cases hfind : t.nodeById? n.id with
  | none =>
      have hnone := List.find?_eq_none.mp hfind d hd
      simp [hholds.1] at hnone
  | some d' =>
      have hid : d'.id = n.id := by simpa using List.find?_some hfind
      rw [List.inj_on_of_nodup_map hsound.nodeIds (hnodes d' (List.mem_of_find?_eq_some hfind))
        (hnodes d hd) (hid.trans hholds.1.symm)]

theorem HoldsNode.uri_eq {id : Int} {uri uri' : String} (h : t.HoldsNode ⟨id, .uri uri⟩)
    (h' : t.HoldsNode ⟨id, .uri uri'⟩) (hsound : t.Sound) : uri = uri' := by
  obtain ⟨d, hd, -, -, huri⟩ := h.nodeById? (fun _ hr => hr) hsound
  obtain ⟨d', hd', -, -, huri'⟩ := h'.nodeById? (fun _ hr => hr) hsound
  obtain rfl : d = d' := Option.some.inj (hd.symm.trans hd')
  exact huri.symm.trans huri'

theorem HoldsNode.id_eq {id id' : Int} {uri : String} (h : t.HoldsNode ⟨id, .uri uri⟩)
    (h' : t.HoldsNode ⟨id', .uri uri⟩) (hsound : t.Sound) : id = id' := by
  obtain ⟨d, hd, hid, hkind, huri⟩ := h
  obtain ⟨d', hd', hid', hkind', huri'⟩ := h'
  have hsame := hsound.resources d hd d' hd' (by simp [NodeRow.isResource, hkind])
    (hkind.trans hkind'.symm) (huri.trans huri'.symm)
  exact hid.symm.trans ((congrArg NodeRow.id hsame).trans hid')

theorem datatypeOf_eq (hnodes : ∀ r ∈ t.nodes, r ∈ t'.nodes) (hsound : t'.Sound)
    {datatype : UriResource} (hholds : t.HoldsNode ⟨datatype.id, .uri datatype.uri⟩)
    (hrow : r.datatype = some datatype.id) : t.datatypeOf r = some datatype := by
  obtain ⟨d, hd, hid, -, huri⟩ := hholds.nodeById? hnodes hsound
  have hid : d.id = datatype.id := hid
  have huri : d.lexical = datatype.uri := huri
  have hd : t.nodeById? datatype.id = some d := hd
  simp [datatypeOf, hrow, hd, hid, huri]

theorem Identifies.of_eq (h : t.Identifies n) (hnodes : t'.nodes = t.nodes) :
    t'.Identifies n := by
  have hfind : t'.nodeById? = t.nodeById? := by
    funext id
    rw [nodeById?, Tables.nodeById?, hnodes]
  obtain ⟨r, hr, hholds, hkey⟩ := h
  refine ⟨r, hnodes ▸ hr, hholds, ?_⟩
  rw [literalKey, datatypeOf, hfind]
  exact hkey

theorem Identifies.holdsNode (h : t.Identifies n) : t.HoldsNode n := by
  obtain ⟨r, hr, hholds, -⟩ := h
  exact ⟨r, hr, hholds⟩

theorem Recorded.of_eq (h : t.Recorded V) (hnodes : t'.nodes = t.nodes) : t'.Recorded V := by
  constructor
  · rw [hnodes]
    intro r hr
    obtain ⟨n, hrow, hfits⟩ := h.recorded r hr
    exact ⟨n, hrow, hfits.mono fun r hr => hnodes ▸ hr⟩
  · rw [hnodes]
    exact h.distinct

section

variable [LiteralValue.Lasting V]

theorem literalKey_of_records (hsound : t.Sound) (hrow : r.Records n) (hfits : t.Fits V n)
    (hterm : n.term = .literal l) : l.key = t.literalKey r := by
  obtain ⟨hvalue, datatype, hl, hholds⟩ := hfits l hterm
  obtain ⟨-, hlexical, hlanguage, hdatatype⟩ := hrow.literal hterm
  rw [hl] at hdatatype
  have hlowered : l.language.map Text.lowerCase = l.language :=
    (LiteralValue.Lasting.lasts hvalue).lowered
  rw [literalKey, datatypeOf_eq (fun _ hr => hr) hsound hholds hdatatype, hlexical, hlanguage,
    Literal.key, LiteralKey.make, hlowered, Literal.datatypeUri, hl]

theorem identifies_of_records (hsound : t.Sound) (hr : r ∈ t.nodes) (hrow : r.Records n)
    (hfits : t.Fits V n) : t.Identifies n :=
  ⟨r, hr, hrow.holds, fun _ => literalKey_of_records hsound hrow hfits⟩

namespace Recorded

omit [LiteralValue.Lasting V] in
/-- A row that is no resource was written for a literal. -/
theorem literal (h : t.Recorded V) (hr : r ∈ t.nodes) (hliteral : r.isResource = false) :
    ∃ n l, r.Records n ∧ t.Fits V n ∧ n.term = .literal l := by
  obtain ⟨n, hrow, hfits⟩ := h.recorded r hr
  refine ⟨n, ?_⟩
  have hterm := hrow.holds.2
  cases hn : n.term with
  | uri uri =>
      rw [hn] at hterm
      simp [NodeRow.isResource, hterm.1] at hliteral
  | blank label =>
      rw [hn] at hterm
      simp [NodeRow.isResource, hterm.1] at hliteral
  | literal l => exact ⟨l, hrow, hfits, rfl⟩

theorem columns (h : t.Recorded V) (hr : r ∈ t.nodes) (hliteral : r.isResource = false) :
    r.language ≠ some "" ∧ ∃ datatype : UriResource, r.datatype = some datatype.id ∧
      t.HoldsNode ⟨datatype.id, .uri datatype.uri⟩ := by
  obtain ⟨n, l, hrow, hfits, hterm⟩ := h.literal hr hliteral
  obtain ⟨hvalue, datatype, hl, hholds⟩ := hfits l hterm
  obtain ⟨-, -, hlanguage, hdatatype⟩ := hrow.literal hterm
  rw [hl] at hdatatype
  exact ⟨hlanguage ▸ (LiteralValue.Lasting.lasts hvalue).language_ne, datatype, hdatatype, hholds⟩

theorem literalKey_mono (h : t.Recorded V) (hr : r ∈ t.nodes) (hliteral : r.isResource = false)
    (hnodes : ∀ r ∈ t.nodes, r ∈ t'.nodes) (hsound : t'.Sound) :
    t'.literalKey r = t.literalKey r := by
  obtain ⟨-, datatype, hdatatype, hholds⟩ := h.columns hr hliteral
  rw [literalKey, literalKey, datatypeOf_eq hnodes hsound hholds hdatatype,
    datatypeOf_eq (fun _ hr => hr) hsound (hholds.mono hnodes) hdatatype]

theorem identifies_mono (h : t.Recorded V) (hn : t.Identifies n)
    (hnodes : ∀ r ∈ t.nodes, r ∈ t'.nodes) (hsound : t'.Sound) : t'.Identifies n := by
  obtain ⟨r, hr, hholds, hkey⟩ := hn
  refine ⟨r, hnodes r hr, hholds, fun l hterm => ?_⟩
  have hliteral : r.isResource = false := by
    have hrow := hholds.2
    rwa [hterm] at hrow
  rw [h.literalKey_mono hr hliteral hnodes hsound, hkey l hterm]

omit [LiteralValue.Lasting V] in
theorem insertNode (h : t.Recorded V) {id : Int} (hfits : t.Fits V n)
    (hinsert : t.insertNode? (.ofNode id n) = some t') : t'.Recorded V := by
  obtain ⟨rfl, -⟩ := insertNode?_eq_some hinsert
  have hnodes : ∀ r ∈ t.nodes, r ∈ t.nodes ++ [NodeRow.ofNode id n] :=
    fun r hr => List.mem_append_left _ hr
  constructor
  · intro r hr
    rcases List.mem_append.mp hr with hr | hr
    · obtain ⟨m, hrow, hm⟩ := h.recorded r hr
      exact ⟨m, hrow, hm.mono hnodes⟩
    · rw [List.mem_singleton.mp hr]
      exact ⟨n.withId id, NodeRow.records_ofNode id n, Fits.mono (n := n.withId id) hfits hnodes⟩
  · exact distinct_of_insertNode? h.distinct hinsert

theorem identifies_of_rowOf? (h : t.Recorded V) (hsound : t.Sound) (hfits : t.Fits V n)
    (hrow : t.rowOf? n = some r) : t.Identifies (n.withId r.id) := by
  obtain ⟨hr, hholds⟩ := rowOf?_eq_some hrow
  refine ⟨r, hr, hholds, fun l hterm => ?_⟩
  obtain ⟨id, _⟩ := n
  obtain rfl : _ = Term.literal l := hterm
  obtain ⟨hvalue, datatype, hl, hdatatype⟩ := hfits l rfl
  have hlasts := LiteralValue.Lasting.lasts hvalue
  have hlowered : l.language.map Text.lowerCase = l.language := hlasts.lowered
  simp only [rowOf?, hl] at hrow
  split at hrow
  · cases hrow
  have hspec := List.find?_some hrow
  simp only [Bool.and_eq_true, beq_iff_eq, Bool.not_eq_true', Option.getD_some] at hspec
  obtain ⟨⟨⟨hliteral, hlexical⟩, hid⟩, hlanguage⟩ := hspec
  obtain ⟨hne, datatype', hcolumn, -⟩ := h.columns hr hliteral
  rw [hcolumn, Option.getD_some] at hid
  have hsame : r.language = l.language := by
    have hne' : l.language ≠ some "" := hlasts.language_ne
    revert hlanguage hne hne'
    cases r.language <;> cases l.language <;> simp +contextual [eq_comm]
  rw [literalKey, datatypeOf_eq (fun _ hr => hr) hsound hdatatype (hid ▸ hcolumn),
    hlexical, hsame, Literal.key, LiteralKey.make, hlowered, Literal.datatypeUri, hl]

theorem identifies_of_toNode (h : t.Recorded V) (hsound : t.Sound)
    (hr : r ∈ t.nodes) {kind : NodeKind}
    (hkind : r.readKind = .ok kind) {datatype : Option UriResource}
    (hdatatype : kind.isLiteral = true → ∀ id, r.datatype = some id →
      ∃ uri, datatype = some ⟨id, uri⟩ ∧ t.HoldsNode ⟨id, .uri uri⟩)
    (hnode : r.toNode kind datatype = .ok n) : t.Identifies n := by
  have hholds := NodeRow.holds_of_toNode hkind hnode
  refine ⟨r, hr, hholds, fun l hterm => ?_⟩
  have hliteral : r.isResource = false := by
    have hrow := hholds.2
    rwa [hterm] at hrow
  obtain ⟨m, l', hrow, hfits, hm⟩ := h.literal hr hliteral
  obtain ⟨hvalue, datatype', hl', hheld⟩ := hfits l' hm
  have hkind' : kind = l'.value.kind := by
    rw [← Except.ok.inj (hrow.readKind.symm.trans hkind), Node.kind, hm]
  subst hkind'
  have hread := (NodeRow.toNode_eq_ok_iff.mp hnode).1
  rw [hterm] at hread
  obtain ⟨rfl⟩ := Term.literal.inj
    (NodeRow.readTerm_literal_eq hrow hm (LiteralValue.Lasting.lasts hvalue) hread)
  obtain ⟨-, -, -, hcolumn⟩ := hrow.literal hm
  rw [hl'] at hcolumn
  obtain ⟨uri, rfl, hheld'⟩ := hdatatype (by cases l'.value <;> rfl) _ hcolumn
  rw [← literalKey_of_records hsound hrow hfits hm, hheld'.uri_eq hheld hsound]
  obtain ⟨value, _⟩ := l'
  obtain rfl : _ = some datatype' := hl'
  rfl

theorem row_eq (h : t.Recorded V) (hsound : t.Sound) (hr : r ∈ t.nodes) (hr' : r' ∈ t.nodes)
    (hliteral : r.isResource = false) (hliteral' : r'.isResource = false)
    (hkey : t.literalKey r = t.literalKey r') : r = r' := by
  obtain ⟨-, datatype, hcolumn, hheld⟩ := h.columns hr hliteral
  obtain ⟨-, datatype', hcolumn', hheld'⟩ := h.columns hr' hliteral'
  rw [literalKey, literalKey, datatypeOf_eq (fun _ hr => hr) hsound hheld hcolumn,
    datatypeOf_eq (fun _ hr => hr) hsound hheld' hcolumn'] at hkey
  simp only [Option.map_some, LiteralKey.mk.injEq, Option.some.injEq] at hkey
  obtain ⟨hlexical, hlanguage, huri⟩ := hkey
  have hid : datatype.id = datatype'.id := hheld.id_eq (huri ▸ hheld') hsound
  refine h.distinct r hr r' hr' ?_
  simp [NodeRow.conflicts, hliteral, hliteral', hlexical, hlanguage, hcolumn, hcolumn', hid]

theorem id_eq_iff (h : t.Recorded V) (hsound : t.Sound) (hn : t.Identifies n)
    (hn' : t.Identifies n') : n.id = n'.id ↔ n.key = n'.key := by
  obtain ⟨r, hr, hholds, hkey⟩ := hn
  obtain ⟨r', hr', hholds', hkey'⟩ := hn'
  have hrow : n.id = n'.id → r = r' := fun hid =>
    List.inj_on_of_nodup_map hsound.nodeIds hr hr' (hholds.1.trans (hid.trans hholds'.1.symm))
  obtain ⟨id, term⟩ := n
  obtain ⟨id', term'⟩ := n'
  have hterm := hholds.2
  have hterm' := hholds'.2
  refine ⟨fun hid => ?_, fun hsame => ?_⟩
  · obtain rfl := hrow hid
    cases term <;> cases term' <;> simp_all [Node.key, NodeRow.isResource]
  · suffices r = r' from hholds.1.symm.trans ((congrArg NodeRow.id this).trans hholds'.1)
    cases term <;> cases term' <;> simp only [Node.key, NodeKey.uri.injEq, NodeKey.blank.injEq,
      NodeKey.literal.injEq, reduceCtorEq] at hsame
    · exact hsound.resources r hr r' hr' (by simp [NodeRow.isResource, hterm.1])
        (hterm.1.trans hterm'.1.symm) (hterm.2.trans (hsame.trans hterm'.2.symm))
    · exact hsound.resources r hr r' hr' (by simp [NodeRow.isResource, hterm.1])
        (hterm.1.trans hterm'.1.symm) (hterm.2.trans (hsame.trans hterm'.2.symm))
    · refine h.row_eq hsound hr hr' hterm hterm' ?_
      rw [← hkey _ rfl, ← hkey' _ rfl, hsame]

theorem key_eq_asked (h : t.Recorded V) (hsound : t.Sound) (hn : t.Identifies n)
    (hterm : n.term = .literal l) : l.key = l.asked.1.key l.asked.2 := by
  obtain ⟨r, hr, hholds, hkey⟩ := hn
  have hliteral : r.isResource = false := by
    have hrow := hholds.2
    rwa [hterm] at hrow
  obtain ⟨-, datatype, hcolumn, hheld⟩ := h.columns hr hliteral
  have huri : l.datatypeUri = some datatype.uri := by
    have hdatatype := congrArg LiteralKey.datatype (hkey l hterm)
    rwa [literalKey, datatypeOf_eq (fun _ hr => hr) hsound hheld hcolumn] at hdatatype
  rw [Literal.asked, huri, Literal.key, Literal.content, huri]
  rfl

end Recorded
end
end Tables
end QuadStore
