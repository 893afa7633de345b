import QuadStore.Proofs.LegibleNodes

namespace QuadStore

variable {V : LiteralValue → Prop} {w w' : Workspace}

namespace LiteralValue

/-- What is stored for a value of a datatype: what is no number is stored as a text. -/
def kept (value : LiteralValue) (datatype : String) : LiteralValue × String :=
  match value with
  | .double x =>
      if x.isNaN then (.string x.text none, Vocabulary.xsdString) else (value, datatype)
  | _ => (value, datatype)

theorem kept_of_number {value : LiteralValue} (h : value.isNaN = false) (datatype : String) :
    value.kept datatype = (value, datatype) := by
  cases value with
  | double x =>
      have hx : ¬x.isNaN = true := ne_true_of_eq_false h
      exact if_neg hx
  | string | int | boolean | date => rfl

theorem kept_of_isNaN {value : LiteralValue} (h : value.isNaN = true) (datatype : String) :
    value.kept datatype =
      (.string (value.content (some datatype)) none, Vocabulary.xsdString) := by
  cases value with
  | double x => exact if_pos h
  | string | int | boolean | date => cases h

end LiteralValue

namespace Tables

variable {t t' : Tables} {literal literal' : LiteralValue × String}
  {n m : Node} {key : LiteralKey}

/-- Whether there is a row that tells a key, whose datatype has a row. -/
def HoldsLiteral (t : Tables) (key : LiteralKey) : Prop :=
  ∃ r ∈ t.nodes, r.isResource = false ∧ r.lexical = key.content ∧ r.language = key.language ∧
    ∃ datatype : UriResource, r.datatype = some datatype.id ∧ key.datatype = some datatype.uri ∧
      t.HoldsNode ⟨datatype.id, .uri datatype.uri⟩

/-- Whether a literal is stored: its datatype has a row, and what is stored for it has one. -/
structure Stores (t : Tables) (literal : LiteralValue × String) : Prop where
  datatype : ∃ id, t.HoldsNode ⟨id, .uri literal.2⟩
  held : t.HoldsLiteral ((literal.1.kept literal.2).1.key (literal.1.kept literal.2).2)

theorem HoldsLiteral.mono (h : t.HoldsLiteral key) (hnodes : ∀ r ∈ t.nodes, r ∈ t'.nodes) :
    t'.HoldsLiteral key := by
  obtain ⟨r, hr, hliteral, hlexical, hlanguage, datatype, hcolumn, hkey, hheld⟩ := h
  exact ⟨r, hnodes r hr, hliteral, hlexical, hlanguage, datatype,
    hcolumn, hkey, hheld.mono hnodes⟩

theorem Stores.mono (h : t.Stores literal) (hnodes : ∀ r ∈ t.nodes, r ∈ t'.nodes) :
    t'.Stores literal := by
  obtain ⟨⟨id, hdatatype⟩, hheld⟩ := h
  exact ⟨⟨id, hdatatype.mono hnodes⟩, hheld.mono hnodes⟩

theorem Stores.of_key (h : t.Stores literal)
    (hkey : literal'.1.key literal'.2 = literal.1.key literal.2)
    (hnumber : literal'.1.isNaN = literal.1.isNaN) : t.Stores literal' := by
  obtain ⟨value, datatype⟩ := literal
  obtain ⟨value', datatype'⟩ := literal'
  dsimp only at hkey hnumber
  obtain rfl : datatype' = datatype := Option.some.inj (congrArg LiteralKey.datatype hkey)
  have hcontent : value'.content (some datatype') = value.content (some datatype') :=
    congrArg LiteralKey.content hkey
  refine ⟨h.datatype, ?_⟩
  have hheld := h.held
  dsimp only at hheld ⊢
  cases hnan : value.isNaN with
  | false =>
      rw [LiteralValue.kept_of_number hnan] at hheld
      rw [LiteralValue.kept_of_number (hnumber.trans hnan), hkey]
      exact hheld
  | true =>
      rw [LiteralValue.kept_of_isNaN hnan] at hheld
      rw [LiteralValue.kept_of_isNaN (hnumber.trans hnan), hcontent]
      exact hheld

theorem Recorded.holdsLiteral [LiteralValue.Lasting V] (h : t.Recorded V) (hsound : t.Sound)
    (hm : t.Identifies m) (hkey : m.key = .literal key) : t.HoldsLiteral key := by
  obtain ⟨r, hr, hholds, hrow⟩ := hm
  obtain ⟨id, term⟩ := m
  cases term with
  | uri uri | blank label => cases hkey
  | literal l =>
      have hliteral : r.isResource = false := hholds.2
      obtain ⟨-, datatype, hcolumn, hheld⟩ := h.columns hr hliteral
      have hkey : t.literalKey r = key := (hrow l rfl).symm.trans (NodeKey.literal.inj hkey)
      rw [literalKey, datatypeOf_eq (fun _ hr => hr) hsound hheld hcolumn] at hkey
      exact ⟨r, hr, hliteral, congrArg LiteralKey.content hkey,
        congrArg LiteralKey.language hkey, datatype,
        hcolumn, (congrArg LiteralKey.datatype hkey).symm, hheld⟩

theorem HoldsLiteral.exists_datatype {value : LiteralValue} {datatype : String}
    (h : t.HoldsLiteral (value.key datatype)) : ∃ id, t.HoldsNode ⟨id, .uri datatype⟩ := by
  obtain ⟨r, -, -, -, -, ⟨id, uri⟩, -, huri, hheld⟩ := h
  obtain rfl : datatype = uri := Option.some.inj huri
  exact ⟨id, hheld⟩

/-- A literal is found when there is a row that tells its key. -/
theorem HoldsLiteral.rowOf?_ne_none {value : LiteralValue} {datatype : UriResource}
    (h : t.HoldsLiteral (value.key datatype.uri)) (hnodes : t.LegibleNodes) (hsound : t.Sound)
    (hlowered : value.Lowered)
    (hdatatype : t.HoldsNode ⟨datatype.id, .uri datatype.uri⟩) (id : Int) :
    t.rowOf? ⟨id, .literal ⟨value, some datatype⟩⟩ ≠ none := by
  obtain ⟨r, hr, hliteral, hlexical, hlanguage, datatype', hcolumn, huri, hheld⟩ := h
  have huri : datatype.uri = datatype'.uri := Option.some.inj huri
  have hid : datatype.id = datatype'.id := hdatatype.id_eq (huri ▸ hheld) hsound
  have hnonneg : ¬datatype.id < 0 := not_lt.mpr (hnodes.datatypes r hr _ (hid ▸ hcolumn))
  have hlexical : r.lexical = value.content (some datatype.uri) := hlexical
  have hlanguage : r.language = value.language := hlanguage.trans hlowered
  simp only [rowOf?]
  rw [if_neg hnonneg]
  intro hnone
  have hmissing := List.find?_eq_none.mp hnone r hr
  simp [hliteral, Literal.content, Literal.language, Literal.datatypeUri,
    hlexical, hlanguage, hcolumn, hid] at hmissing

end Tables

namespace Action

variable {t : Tables} {n m : Node} {literal : LiteralValue × String}

section

variable (hnodes : t.LegibleNodes) (hsound : t.Sound)

include hnodes hsound

theorem loadOrStore_delivers (hrow : t.rowOf? n ≠ none) :
    Delivers (Workspace.Sees t) (loadOrStore n) fun _ => True := by
  intro w hw
  obtain ⟨r, hr⟩ := Option.ne_none_iff_exists'.mp hrow
  have hload : loadNode n w = nodeOfRow? (some r) w := by rw [loadNode_eq_rowOf?, hw.view, hr]
  obtain ⟨m, w₁, hop, hw₁, hm⟩ :=
    nodeOfRow_delivers hnodes.recorded hsound (Tables.rowOf?_eq_some hr).1 w hw
  have hfound : loadNode n w = .ok (some m) w₁ := by
    rw [hload, nodeOfRow?, bind_of_ok hop]
    rfl
  unfold loadOrStore
  rw [bind_of_ok hfound]
  exact (cacheNode_delivers hm.1).bind (fun _ _ => .pure trivial) w₁ hw₁

theorem createUri_delivers {uri : String} {id : Int} (h : t.HoldsNode ⟨id, .uri uri⟩) :
    Delivers (Workspace.Sees t) (createUri uri) fun n => n = ⟨id, .uri uri⟩ := by
  have hsucceeds : Delivers (Workspace.Sees t) (createUri uri) fun _ => True := by
    intro w hw
    unfold createUri
    rw [bind_of_ok (a := (get : Action Workspace)) (s := w) rfl]
    cases w.store.caches.uri.get? uri with
    | some n => exact ⟨n, w, rfl, hw, trivial⟩
    | none =>
        refine loadOrStore_delivers hnodes hsound (fun hnone => ?_) w hw
        obtain ⟨r, hr, -, hkind, hlexical⟩ := h
        exact List.find?_eq_none.mp hnone r hr (by simp [hkind, hlexical])
  intro w hw
  obtain ⟨⟨id', term⟩, w', hop, hw', -⟩ := hsucceeds w hw
  obtain ⟨rfl, hheld⟩ := createUri_eq_ok hw.good hop
  obtain rfl : id' = id := Tables.HoldsNode.id_eq (hw'.view ▸ hheld) h hsound
  exact ⟨_, w', hop, hw', rfl⟩

theorem createDatatype_delivers {uri : String} {id : Int} (h : t.HoldsNode ⟨id, .uri uri⟩) :
    Delivers (Workspace.Sees t) (createDatatype uri) (· = ⟨id, uri⟩) := by
  refine (createUri_delivers hnodes hsound h).bind fun n hn => ?_
  subst hn
  exact .pure rfl

theorem resolveValue_delivers {value : LiteralValue} {datatype : UriResource}
    (hlowered : value.Lowered)
    (h : t.HoldsLiteral (value.key datatype.uri))
    (hdatatype : t.HoldsNode ⟨datatype.id, .uri datatype.uri⟩) :
    Delivers (Workspace.Sees t) (resolveValue value datatype) fun _ => True := by
  intro w hw
  unfold resolveValue
  rw [bind_of_ok (a := (get : Action Workspace)) (s := w) rfl]
  cases w.store.caches.literal.get? (Literal.key ⟨value, some datatype⟩) with
  | some n => exact ⟨n, w, rfl, hw, trivial⟩
  | none =>
      exact loadOrStore_delivers hnodes hsound
        (h.rowOf?_ne_none hnodes hsound hlowered hdatatype transientId) w hw

theorem request_delivers (hlowered : literal.1.Lowered) (h : t.Stores literal) :
    Delivers (Workspace.Sees t) (request literal) fun _ => True := by
  obtain ⟨value, datatype⟩ := literal
  obtain ⟨⟨id, hdatatype⟩, hheld⟩ := h
  refine (createDatatype_delivers hnodes hsound hdatatype).bind fun d hd => ?_
  subst hd
  have number (hnumber : value.isNaN = false) :
      Delivers (Workspace.Sees t) (resolveValue value ⟨id, datatype⟩) fun _ => True := by
    rw [LiteralValue.kept_of_number hnumber] at hheld
    exact resolveValue_delivers hnodes hsound hlowered hheld hdatatype
  cases value with
  | string | int | boolean | date => exact number rfl
  | double x =>
      unfold resolveLiteral
      dsimp only
      split
      · rename_i hx
        have hnan : (LiteralValue.double x).isNaN = true := hx
        rw [LiteralValue.kept_of_isNaN hnan] at hheld
        obtain ⟨id', htext⟩ := hheld.exists_datatype
        refine (createDatatype_delivers hnodes hsound htext).bind fun d hd => ?_
        subst hd
        exact resolveValue_delivers hnodes hsound rfl hheld htext
      · rename_i hx
        exact number (eq_false_of_ne_true hx)

end

section

variable [LiteralValue.Lasting V]

theorem stores_of_hasKey (hgood : w.Good) (h : w.Recorded V) {value : LiteralValue}
    (hnumber : value.isNaN = false) {datatype : String} (hm : HasKey value datatype m w) :
    w.view.Stores (value, datatype) := by
  have hheld := h.view.holdsLiteral hgood.sound hm.1 (hm.2 hnumber)
  refine ⟨hheld.exists_datatype, ?_⟩
  rwa [LiteralValue.kept_of_number hnumber]

theorem request_ends (hgood : w.Good) (h : w.Recorded V) (hvalue : V literal.1) :
    Ends V w (fun _ w' => w'.view.Stores literal) (request literal w) := by
  obtain ⟨value, datatype⟩ := literal
  refine (createDatatype_ends hgood h datatype).bind ?_
  rintro ⟨id, _⟩ w₁ h₁ ⟨hdatatype, rfl⟩
  have number (hnumber : value.isNaN = false) :
      Ends V w₁ (fun _ w' => w'.view.Stores (value, _)) (resolveValue value ⟨id, _⟩ w₁) :=
    (resolveValue_ends h₁.good h₁.recorded hvalue hdatatype).imp fun m w₂ h₂ hm =>
      stores_of_hasKey h₂.good h₂.recorded hnumber hm
  cases value with
  | string | int | boolean | date => exact number rfl
  | double x =>
      unfold resolveLiteral
      dsimp only
      split
      · rename_i hx
        refine (createString_ends h₁.good h₁.recorded (lasting_text _)).imp fun m w₂ h₂ hm => ?_
        refine ⟨⟨id, hdatatype.mono h₂.works.nodes⟩, ?_⟩
        have hnan : (LiteralValue.double x).isNaN = true := hx
        rw [LiteralValue.kept_of_isNaN hnan]
        exact h₂.recorded.view.holdsLiteral h₂.good.sound hm.1 (hm.2 rfl)
      · rename_i hx
        exact number (eq_false_of_ne_true hx)

theorem convert_stores {l : Literal} (hgood : w.Good) (h : w.Recorded V)
    (hterm : n.term = .literal l) (hvalue : ∀ value ∈ n.newValue?, V value)
    (hknown : n.isPersisted = true → w.view.Identifies n ∧ l.value.isNaN = false) :
    Ends V w (fun _ w' => w'.view.Stores l.asked) (convert n w) := by
  cases hnew : n.isPersisted with
  | true =>
      obtain ⟨hn, hnumber⟩ := hknown hnew
      unfold convert
      rw [if_pos hnew]
      refine .pure hgood h (stores_of_hasKey (m := n) hgood h hnumber ⟨hn, fun _ => ?_⟩)
      rw [Node.key, hterm]
      exact congrArg NodeKey.literal (h.view.key_eq_asked hgood.sound hn hterm)
  | false =>
      rw [convert_eq_request hnew hterm]
      exact request_ends hgood h
        (hvalue l.value (by simp [Node.newValue?, hnew, Node.literal?, hterm]))

theorem createStatement_stores {subject predicate object : Node}
    {context : Option Node} {l : Literal} {s : Statement} (hgood : w.Good) (h : w.Recorded V)
    (hvalues : ∀ n ∈ [subject, predicate, object] ++ context.toList,
      ∀ value ∈ n.newValue?, V value) (hterm : object.term = .literal l)
    (hknown : object.isPersisted = true → w.view.Identifies object ∧ l.value.isNaN = false)
    (hop : createStatement subject predicate object context w = .ok s w') :
    w'.view.Stores l.asked := by
  obtain ⟨_, w₁, hcheck, hop⟩ := bind_eq_ok_iff.mp hop
  obtain ⟨-, rfl⟩ := ofStatement_eq_ok_iff.mp hcheck
  obtain ⟨s', w₁, hs, hop⟩ := bind_eq_ok_iff.mp hop
  obtain ⟨p', w₂, hp, hop⟩ := bind_eq_ok_iff.mp hop
  obtain ⟨o', w₃, ho, hop⟩ := bind_eq_ok_iff.mp hop
  have h₁ := (convert_recording (hvalues subject (by simp))).ok hs hgood h
  have h₂ :=
    h₁.trans ((convert_recording (hvalues predicate (by simp))).ok hp h₁.good h₁.recorded)
  obtain ⟨-, hstores⟩ :=
    (convert_stores h₂.good h₂.recorded hterm (hvalues object (by simp)) fun hnew =>
      ⟨h₂.identifies h (hknown hnew).1, (hknown hnew).2⟩).of_ok ho
  have hidentify : ∀ c, Keeps Quiet (do
      identifyShared (← ofStatement (Statement.make s' p' o' (some c))) : Action Statement) := by
    intro c
    exact (keeps_ofStatement _).bind fun _ => identifyShared_quiet _
  have hquiet : Quiet w₃ w' := by
    cases context with
    | some c => exact ((convert_silent c).quiet.bind hidentify).ok hop
    | none => exact (keeps_get.bind fun _ => (createUri_silent _).quiet.bind hidentify).ok hop
  exact hstores.mono hquiet.nodes

end

end Action

namespace Transaction

variable [LiteralValue.Lasting V] {x y : Scope} {t : Statement} {subject predicate object : Node}
variable {context : Option Node} {l : Literal}

theorem addMade_stores (mark : Statement → Statement)
    (hgood : x.work.Good) (h : x.work.Recorded V)
    (hvalues : ∀ n ∈ [subject, predicate, object] ++ context.toList,
      ∀ value ∈ n.newValue?, V value) (hterm : object.term = .literal l)
    (hknown : object.isPersisted = true → x.work.view.Identifies object ∧ l.value.isNaN = false)
    (hop : addMade subject predicate object context mark x = .ok t y) :
    y.work.view.Stores l.asked := by
  obtain ⟨t₁, x₁, hwork, hop⟩ := bind_eq_ok_iff.mp hop
  obtain ⟨w, hcreate, rfl⟩ := work_eq_ok_iff.mp hwork
  have hstores := Action.createStatement_stores hgood h hvalues hterm hknown hcreate
  obtain ⟨added, -, -, -, hstore, -⟩ := store_eq_ok hop
  exact hstores.mono ((Action.storeStatement_works (mark t₁)).ok hstore).nodes

theorem add_stores (hgood : x.work.Good) (h : x.work.Recorded V)
    (hvalues : ∀ n ∈ [subject, predicate, object] ++ context.toList,
      ∀ value ∈ n.newValue?, V value) (hterm : object.term = .literal l)
    (hknown : object.isPersisted = true → x.work.view.Identifies object ∧ l.value.isNaN = false)
    (hop : add subject predicate object context x = .ok t y) : y.work.view.Stores l.asked :=
  addMade_stores (fun t => t) hgood h hvalues hterm hknown (whileOpen_eq_ok_iff.mp hop).2

theorem addInferred_stores (hgood : x.work.Good) (h : x.work.Recorded V)
    (hvalues : ∀ n ∈ [subject, predicate, object] ++ context.toList,
      ∀ value ∈ n.newValue?, V value) (hterm : object.term = .literal l)
    (hknown : object.isPersisted = true → x.work.view.Identifies object ∧ l.value.isNaN = false)
    (hop : addInferred subject predicate object context x = .ok t y) :
    y.work.view.Stores l.asked := by
  obtain ⟨-, hop⟩ := whileOpen_eq_ok_iff.mp hop
  cases context with
  | some c =>
      exact addMade_stores (fun t => { t with inferred := true }) hgood h hvalues hterm hknown hop
  | none =>
      obtain ⟨c, x₁, hwork, hop⟩ := bind_eq_ok_iff.mp hop
      obtain ⟨w, hcreate, rfl⟩ := work_eq_ok_iff.mp hwork
      have hkept := (Action.keeps_get.bind fun _ =>
        Action.createUri_recording _).ok hcreate hgood h
      have hcontext : c.term = _ := (Action.createUri_eq_ok hgood hcreate).1
      refine addMade_stores (fun t => { t with inferred := true })
        hkept.good hkept.recorded ?_ hterm
        (fun hnew => ⟨hkept.identifies h (hknown hnew).1, (hknown hnew).2⟩) hop
      intro n hn value hvalue
      rcases List.mem_append.mp hn with hn | hn
      · exact hvalues n (List.mem_append_left _ hn) value hvalue
      · obtain rfl : n = c := by simpa using hn
        simp [Node.newValue?, Node.literal?, hcontext] at hvalue

end Transaction
end QuadStore
