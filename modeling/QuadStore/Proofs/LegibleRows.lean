import QuadStore.Proofs.KnownNodes
import QuadStore.Proofs.RecordedTables

namespace QuadStore

namespace LiteralValue

/-- Whether the year of a moment has four digits in universal time. Of other
values nothing is asked. -/
def InYears : LiteralValue → Prop
  | .date m => m.InYears
  | _ => True

instance : DecidablePred InYears
  | .string _ _ | .int _ | .double _ | .boolean _ => inferInstanceAs (Decidable True)
  | .date m => inferInstanceAs (Decidable m.InYears)

/-- Whether the row of a value can be read: the value is not a number that is none, and the year
of a moment has four digits. -/
def Legible (value : LiteralValue) : Prop :=
  value.isNaN = false ∧ value.InYears

instance : DecidablePred Legible :=
  fun value => inferInstanceAs (Decidable (value.isNaN = false ∧ value.InYears))

theorem legible_string (content : String) (language : Option String) :
    (LiteralValue.string content language).Legible :=
  ⟨rfl, trivial⟩

end LiteralValue

namespace NodeRow

variable {r : NodeRow} {n : Node}

theorem readMoment_of_columns {m m' m'' : Moment}
    (hread : Moment.readTimestamp m.columnText = .ok m')
    (hwith : m'.withOffset? m.offset = some m'') (htime : r.time = some m.columnText)
    (hoffset : r.offset = some m.offset) : r.readMoment = .ok m'' := by
  unfold readMoment
  rw [htime, hoffset]
  simp only [require, pure_bind, Option.getD_some]
  rw [if_neg (not_le.mpr m.offset_lt), hread]
  dsimp only
  rw [hwith]
  rfl

namespace Records

theorem checkOffset (h : r.Records n) : r.checkOffset = .ok () := by
  rw [NodeRow.checkOffset, h.row]
  obtain ⟨id, term⟩ := n
  cases term with
  | uri uri | blank label => rfl
  | literal l =>
      obtain ⟨value, datatype⟩ := l
      cases value with
      | string | int | double | boolean => rfl
      | date m =>
          have hoffset := m.offset_lt
          exact if_pos ⟨by omega, by omega⟩

/-- What a row was written for can be read from it. -/
theorem readTerm (h : r.Records n) (hvalue : ∀ l, n.term = .literal l → l.value.Legible)
    (datatype : Option UriResource) : ∃ term, r.readTerm n.kind datatype = .ok term := by
  have hrow := h.row
  obtain ⟨id, term⟩ := n
  cases term with
  | uri uri | blank label => exact ⟨_, rfl⟩
  | literal l =>
      obtain ⟨hnumber, hyears⟩ := hvalue l rfl
      obtain ⟨value, _⟩ := l
      rw [hrow]
      cases value with
      | string | int | boolean => exact ⟨_, rfl⟩
      | double x =>
          obtain ⟨y, hy⟩ : ∃ y, x.stored = some y := by
            unfold Binary64.stored
            have hnumber : ¬x.isNaN = true := ne_true_of_eq_false hnumber
            rw [if_neg hnumber]
            split <;> exact ⟨_, rfl⟩
          have hcolumn : ∀ row : NodeRow, row.double = some y →
              row.readTerm .double datatype = .ok (.literal ⟨.double y, datatype⟩) := by
            intro row hrow
            simp only [NodeRow.readTerm, hrow]
            rfl
          exact ⟨_, hcolumn _ hy⟩
      | date m =>
          have hcolumn : ∀ (row : NodeRow) m', row.readMoment = .ok m' →
              row.readTerm .date datatype = .ok (.literal ⟨.date m', datatype⟩) := by
            intro row m' hrow
            simp only [NodeRow.readTerm, hrow]
            rfl
          obtain ⟨m', hread⟩ := Moment.exists_readTimestamp_columnText hyears
          have hwith : m'.withOffset? m.offset = some ⟨m'.seconds, m'.nanos, m.offset, _, _⟩ :=
            dif_pos ⟨m'.nanos_lt, m.offset_lt⟩
          exact ⟨_, hcolumn _ _ (readMoment_of_columns hread hwith rfl rfl)⟩

theorem toNode (h : r.Records n) (hvalue : ∀ l, n.term = .literal l → l.value.Legible)
    (datatype : Option UriResource) : ∃ m, r.toNode n.kind datatype = .ok m := by
  obtain ⟨term, hterm⟩ := h.readTerm hvalue datatype
  exact ⟨⟨r.id, term⟩, toNode_eq_ok_iff.mpr ⟨hterm, h.created, rfl⟩⟩

end Records
end NodeRow

theorem NodeRow.Holds.kinds {r : NodeRow} {n : Node} (h : r.Holds n) :
    n.isUri = (r.kind == "uri") ∧ n.isResource = r.isResource := by
  obtain ⟨-, hterm⟩ := h
  obtain ⟨id, term⟩ := n
  cases term with
  | uri uri | blank label =>
      simp [Node.isUri, Node.isResource, Node.isBlank, Node.kind, NodeRow.isResource, hterm.1]
  | literal l =>
      have hterm : r.isResource = false := hterm
      have hkind : (r.kind == "uri") = false := by
        simp only [NodeRow.isResource, Bool.or_eq_false_iff] at hterm
        exact hterm.1
      cases hvalue : l.value <;>
        simp [Node.isUri, Node.isResource, Node.isBlank, Node.kind,
          LiteralValue.kind, hvalue, hterm, hkind]

/-- Whether a workspace is in order and shows the given tables. -/
structure Workspace.Sees (t : Tables) (w : Workspace) : Prop where
  good : w.Good
  view : w.view = t

namespace Action

variable {α β : Type} {t : Tables} {I : Workspace → Prop}
  {w w' : Workspace} {n : Node} {r : NodeRow}

/-- Whether an action succeeds wherever a condition holds, keeps that, and answers what
satisfies another one. -/
def Delivers (I : Workspace → Prop) (a : Action α) (Q : α → Prop) : Prop :=
  ∀ w, I w → ∃ v w', a w = .ok v w' ∧ I w' ∧ Q v

namespace Delivers

variable {Q Q' : α → Prop}

theorem pure {v : α} (h : Q v) : Delivers I (pure v) Q :=
  fun w hw => ⟨v, w, rfl, hw, h⟩

theorem imp {a : Action α} (h : Delivers I a Q) (hQ : ∀ v, Q v → Q' v) : Delivers I a Q' := by
  intro w hw
  obtain ⟨v, w', hop, hw', hv⟩ := h w hw
  exact ⟨v, w', hop, hw', hQ v hv⟩

theorem bind {P : β → Prop} {a : Action α} {f : α → Action β} (h : Delivers I a Q)
    (hf : ∀ v, Q v → Delivers I (f v) P) : Delivers I (a >>= f) P := by
  intro w hw
  obtain ⟨v, w', hop, hw', hv⟩ := h w hw
  rw [bind_of_ok hop]
  exact hf v hv w' hw'

theorem view (hI : ∀ w, I w → w.view = t) (f : Tables → α) :
    Delivers I (Action.view f) (· = f t) :=
  fun w hw => ⟨f t, w, view_eq_ok_iff.mpr ⟨congrArg f (hI w hw), rfl⟩, hw, rfl⟩

theorem ofData {x : Except DataFault α} {v : α} (h : x = .ok v) :
    Delivers I (Action.ofData x) (· = v) :=
  fun w hw => ⟨v, w, ofData_eq_ok_iff.mpr ⟨h, rfl⟩, hw, rfl⟩

theorem ofStatement {x : Except StatementFault α} {v : α} (h : x = .ok v) :
    Delivers I (Action.ofStatement x) (· = v) :=
  fun w hw => ⟨v, w, ofStatement_eq_ok_iff.mpr ⟨h, rfl⟩, hw, rfl⟩

theorem mapM {f : α → Action β} {P : β → Prop} {xs : List α} (h : ∀ x ∈ xs, Delivers I (f x) P) :
    Delivers I (xs.mapM f) fun ys => ∀ y ∈ ys, P y := by
  induction xs with
  | nil =>
      rw [List.mapM_nil]
      exact .pure (by simp)
  | cons x rest ih =>
      rw [List.mapM_cons]
      refine (h x (by simp)).bind fun y hy =>
        (ih fun z hz => h z (by simp [hz])).bind fun ys hys => ?_
      exact .pure (by simpa using ⟨hy, hys⟩)

theorem of_reads {a : Action α} (hreads : Keeps Reads a)
    (h : ∀ w, w.Sees t → ∃ v w', a w = .ok v w' ∧ Q v) : Delivers (Workspace.Sees t) a Q := by
  intro w hw
  obtain ⟨v, w', hop, hv⟩ := h w hw
  have hread := hreads.ok hop
  exact ⟨v, w', hop, ⟨hread.silent.good hw.good, hread.view_eq.trans hw.view⟩, hv⟩

end Delivers

theorem viewing_delivers (f : Tables → α) : Delivers (Workspace.Sees t) (view f) (· = f t) :=
  .view (fun _ hw => hw.view) f

theorem cacheNode_delivers (hn : t.HoldsNode n) :
    Delivers (Workspace.Sees t) (cacheNode n) fun _ => True := by
  intro w hw
  obtain ⟨w', hop⟩ := cacheNode_eq_ok n w
  have hread := cacheNode_reads (w := w) (n := n) fun _ => hw.view ▸ hn
  rw [hop] at hread
  exact ⟨(), w', hop, ⟨hread.silent.good hw.good, hread.view_eq.trans hw.view⟩, trivial⟩

theorem resolveWith_delivers {decode : NodeRow → Action Node} {id : Int}
    (hdecode : ∀ r ∈ t.nodes, r.id = id →
      Delivers (Workspace.Sees t) (decode r) fun n => t.HoldsNode n ∧ n.id = r.id) :
    Delivers (Workspace.Sees t) (resolveWith decode id) fun found =>
      (∀ n, found = some n → t.HoldsNode n ∧ n.id = id) ∧
      ((∃ r ∈ t.nodes, r.id = id) → found ≠ none) := by
  intro w hw
  unfold resolveWith
  rw [bind_of_ok (a := (get : Action Workspace)) (s := w) rfl]
  cases hcached : w.store.caches.node.get? id with
  | some m =>
      obtain ⟨hid, hholds⟩ := hw.good.coherent.caches.node id m hcached
      refine ⟨some m, w, rfl, hw, ?_, by simp⟩
      rintro n ⟨⟩
      exact ⟨hw.view ▸ holdsNode_of_committed hw.good hholds, hid⟩
  | none =>
      refine Delivers.bind (viewing_delivers _) (fun row hrow => ?_) w hw
      subst hrow
      cases hfind : t.nodeById? id with
      | none =>
          refine .pure ⟨by rintro n ⟨⟩, ?_⟩
          rintro ⟨r, hr, hid⟩
          have hnone := List.find?_eq_none.mp hfind r hr
          simp [hid] at hnone
      | some r =>
          have hid : r.id = id := by simpa using List.find?_some hfind
          refine (hdecode r (List.mem_of_find?_eq_some hfind) hid).bind fun n hn => ?_
          refine (cacheNode_delivers hn.1).bind fun _ _ => .pure ⟨?_, by simp⟩
          rintro _ ⟨⟩
          exact ⟨hn.1, hn.2.trans hid⟩

theorem decodeRow_of_uri (h : r.Records n) (hkind : r.kind = "uri")
    (hr : r ∈ t.nodes) (fuel : Nat) :
    Delivers (Workspace.Sees t) (decodeRow (fuel + 1) r) fun n =>
      t.HoldsNode n ∧ n.id = r.id := by
  have hread : r.readKind = .ok .uri := by
    rw [NodeRow.readKind, hkind]
    rfl
  intro w hw
  refine ⟨_, w, decodeRow_of_namesUri ⟨h.checkOffset, hread, h.created⟩ fuel,
    hw, ⟨r, hr, ?_⟩, rfl⟩
  exact ⟨rfl, hkind, rfl⟩

section

variable {V : LiteralValue → Prop} (hrecorded : t.Recorded V) (hsound : t.Sound)

include hrecorded hsound

theorem rowDatatype_delivers (h : r.Records n) (hfits : t.Fits V n) (fuel : Nat) :
    Delivers (Workspace.Sees t) (rowDatatype (decodeRow (fuel + 1)) r n.kind) fun _ => True := by
  unfold rowDatatype
  cases hcolumn : r.datatype with
  | none => exact .pure trivial
  | some id =>
      dsimp only
      split
      · rename_i hliteral
        obtain ⟨l, hterm⟩ : ∃ l, n.term = .literal l := by
          cases hterm : n.term with
          | literal l => exact ⟨l, rfl⟩
          | uri uri | blank label => simp [Node.kind, hterm, NodeKind.isLiteral] at hliteral
        obtain ⟨-, datatype, hl, d, hd, hholds⟩ := hfits l hterm
        obtain ⟨-, -, -, hdatatype⟩ := h.literal hterm
        have hid : d.id = id := by
          rw [hcolumn, hl] at hdatatype
          exact hholds.1.trans (Option.some.inj hdatatype).symm
        -- The row of the datatype is the only one with its id.
        have only : ∀ r' ∈ t.nodes, r'.id = id → r' = d := fun r' hr' hid' =>
          List.inj_on_of_nodup_map hsound.nodeIds hr' hd (hid'.trans hid.symm)
        refine (resolveWith_delivers fun r' hr' hid' => ?_).bind fun found hfound => ?_
        · obtain rfl := only r' hr' hid'
          obtain ⟨m, hm, -⟩ := hrecorded.recorded r' hr'
          exact decodeRow_of_uri hm hholds.2.1 hr' fuel
        · cases found with
          | none => exact absurd rfl (hfound.2 ⟨d, hd, hid⟩)
          | some m =>
              obtain ⟨⟨r', hr', hholds'⟩, hm⟩ := hfound.1 m rfl
              obtain rfl := only r' hr' (hholds'.1.trans hm)
              obtain ⟨id', term⟩ := m
              obtain rfl : term = .uri _ := hholds'.term_eq hholds rfl
              exact .pure trivial
      · exact .pure trivial

theorem nodeOfRow_of_records (hr : r ∈ t.nodes) (hrow : r.Records n) (hfits : t.Fits V n)
    (hvalue : ∀ l, n.term = .literal l → l.value.Legible) :
    Delivers (Workspace.Sees t) (nodeOfRow r) fun n => t.HoldsNode n ∧ n.id = r.id := by
  have hsucceeds : Delivers (Workspace.Sees t) (nodeOfRow r) fun _ => True := by
    obtain ⟨fuel, hfuel⟩ := Nat.exists_eq_succ_of_ne_zero (List.length_pos_of_mem hr).ne'
    refine (viewing_delivers _).bind fun length hlength => ?_
    obtain rfl : length = fuel + 1 := hlength.trans hfuel
    unfold decodeRow
    refine (Delivers.ofData hrow.checkOffset).bind fun _ _ => ?_
    refine (Delivers.ofData hrow.readKind).bind fun kind hkind => ?_
    subst hkind
    refine (rowDatatype_delivers hrecorded hsound hrow hfits fuel).bind fun datatype _ => ?_
    obtain ⟨m, hm⟩ := hrow.toNode hvalue datatype
    exact (Delivers.ofData hm).imp fun _ _ => trivial
  intro w hw
  obtain ⟨m, w', hop, hw', -⟩ := hsucceeds w hw
  have hholds := holds_of_nodeOfRow hop
  exact ⟨m, w', hop, hw', ⟨r, hr, hholds⟩, hholds.1.symm⟩

end

section

variable (hrecorded : t.Recorded LiteralValue.Legible) (hsound : t.Sound)

include hrecorded hsound

theorem nodeOfRow_delivers (hr : r ∈ t.nodes) :
    Delivers (Workspace.Sees t) (nodeOfRow r) fun n => t.HoldsNode n ∧ n.id = r.id := by
  obtain ⟨n, hrow, hfits⟩ := hrecorded.recorded r hr
  exact nodeOfRow_of_records hrecorded hsound hr hrow hfits fun l hl => (hfits l hl).1

theorem resolveNode_delivers (id : Int) :
    Delivers (Workspace.Sees t) (resolveNode id) fun found =>
      (∀ n, found = some n → t.HoldsNode n ∧ n.id = id) ∧
      ((∃ r ∈ t.nodes, r.id = id) → found ≠ none) :=
  resolveWith_delivers fun _ hr _ => nodeOfRow_delivers hrecorded hsound hr

theorem nodeOfRow?_delivers {row : Option NodeRow} (hrow : ∀ r ∈ row, r ∈ t.nodes) :
    Delivers (Workspace.Sees t) (nodeOfRow? row) fun found =>
      found.map Node.id = row.map NodeRow.id := by
  cases row with
  | none => exact .pure rfl
  | some r =>
      exact (nodeOfRow_delivers hrecorded hsound (hrow r rfl)).bind fun n hn =>
        .pure (congrArg some hn.2)

theorem loadNodeById_delivers (id : Int) :
    Delivers (Workspace.Sees t) (loadNodeById id) fun found =>
      found.map Node.id = (t.nodeById? id).map NodeRow.id := by
  refine (viewing_delivers _).bind fun row hrow => ?_
  subst hrow
  exact nodeOfRow?_delivers hrecorded hsound fun r hr => List.mem_of_find?_eq_some hr

theorem loadNode_delivers (n : Node) :
    Delivers (Workspace.Sees t) (loadNode n) fun found =>
      found.map Node.id = (t.rowOf? n).map NodeRow.id := by
  intro w hw
  rw [loadNode_eq_rowOf?, hw.view]
  exact nodeOfRow?_delivers hrecorded hsound (fun r hr => (Tables.rowOf?_eq_some hr).1) w hw

theorem nodeId_delivers (n : Node) :
    Delivers (Workspace.Sees t) (nodeId n) (· = t.storedId? n) := by
  refine .of_reads (nodeId_keeps n) fun w hw => ?_
  have hsucceeds : Delivers (Workspace.Sees t) (nodeId n) fun _ => True := by
    unfold nodeId
    split
    · exact .pure trivial
    · exact (loadNode_delivers hrecorded hsound n).bind fun _ _ => .pure trivial
  obtain ⟨id, w', hop, -⟩ := hsucceeds w hw
  exact ⟨id, w', hop, by rw [nodeId_eq hop, hw.view]⟩

theorem slotIds_delivers (slots : List (Option Node)) :
    Delivers (Workspace.Sees t) (slotIds slots) fun _ => True := by
  induction slots with
  | nil => exact .pure trivial
  | cons slot rest ih =>
      cases slot with
      | none => exact ih.bind fun _ _ => .pure trivial
      | some n =>
          refine (nodeId_delivers hrecorded hsound n).bind fun id _ => ?_
          split
          · exact ih.bind fun _ _ => .pure trivial
          · exact .pure trivial

end

/-- Whether, where a condition holds, some tables are seen, nodes can be looked up, and can be
read by their ids, when something is known of them. -/
structure Resolves (t : Tables) (I : Workspace → Prop) (K : Node → Prop) : Prop where
  view : ∀ w, I w → w.view = t
  holds : ∀ n, K n → t.HoldsNode n
  slotIds : ∀ slots, Delivers I (slotIds slots) fun _ => True
  resolveNode : ∀ id, Delivers I (resolveNode id) fun found =>
    (∀ n, found = some n → K n ∧ n.id = id) ∧ ((∃ r ∈ t.nodes, r.id = id) → found ≠ none)

theorem resolves_legible (hrecorded : t.Recorded LiteralValue.Legible) (hsound : t.Sound) :
    Resolves t (Workspace.Sees t) t.HoldsNode :=
  ⟨fun _ hw => hw.view, fun _ hn => hn, slotIds_delivers hrecorded hsound,
    resolveNode_delivers hrecorded hsound⟩

theorem Resolves.requireNode {K : Node → Prop} (h : Resolves t I K) {id : Int}
    (hid : ∃ r ∈ t.nodes, r.id = id) : Delivers I (requireNode id) fun n => K n ∧ n.id = id := by
  refine (h.resolveNode id).bind fun found hfound => ?_
  cases found with
  | none => exact absurd rfl (hfound.2 hid)
  | some n => exact .pure (hfound.1 n rfl)

end Action
end QuadStore
