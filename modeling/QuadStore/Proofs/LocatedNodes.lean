import QuadStore.Proofs.ReadableRows
import QuadStore.Proofs.RecordedStores

namespace QuadStore

variable {V : LiteralValue → Prop}

/-- The key that a node is asked for by. A literal without a datatype has the one that fits. -/
def Node.askedKey (n : Node) : NodeKey :=
  match n.term with
  | .literal l => .literal (l.asked.1.key l.asked.2)
  | _ => n.key

namespace Tables

variable {t t' : Tables} {n m : Node} {id : Int}

/-- Whether an id is that of a node in its row which has the key that some
node is asked for by. -/
def Means (t : Tables) (n : Node) (id : Int) : Prop :=
  ∃ m, t.Identifies m ∧ m.id = id ∧ m.key = n.askedKey

/-- Whether a node can be looked up: one with an id is in its row, and the datatype of a literal
that has none is stored. -/
structure Locatable (V : LiteralValue → Prop) (t : Tables) (n : Node) : Prop where
  known : n.isPersisted = true → t.Identifies n
  fits : n.isPersisted = false → t.Fits V n
  datatype : n.isPersisted = false → ∀ l, n.term = .literal l → ∀ d ∈ l.datatype, 0 ≤ d.id

section

variable [LiteralValue.Lasting V] (h : t.Recorded V)

include h

theorem Recorded.means_mono (hmeans : t.Means n id) (hnodes : ∀ r ∈ t.nodes, r ∈ t'.nodes)
    (hsound : t'.Sound) : t'.Means n id := by
  obtain ⟨m, hm, hid, hkey⟩ := hmeans
  exact ⟨m, h.identifies_mono hm hnodes hsound, hid, hkey⟩

theorem Recorded.locatable_mono (hn : t.Locatable V n) (hnodes : ∀ r ∈ t.nodes, r ∈ t'.nodes)
    (hsound : t'.Sound) : t'.Locatable V n :=
  ⟨fun hnew => h.identifies_mono (hn.known hnew) hnodes hsound,
    fun hnew => (hn.fits hnew).mono hnodes, hn.datatype⟩

theorem Recorded.askedKey_eq (hsound : t.Sound) (hn : t.Locatable V n) : n.askedKey = n.key := by
  cases hterm : n.term with
  | uri uri | blank label => simp [Node.askedKey, hterm]
  | literal l =>
      simp only [Node.askedKey, Node.key, hterm]
      cases hnew : n.isPersisted with
      | true => rw [h.key_eq_asked hsound (hn.known hnew) hterm]
      | false =>
          obtain ⟨-, datatype, hl, -⟩ := hn.fits hnew l hterm
          rw [l.key_of_datatype hl, Literal.asked, Literal.datatypeUri, hl]
          rfl

theorem Recorded.identifies_of_storedId? (hsound : t.Sound) (hn : t.Locatable V n)
    (hid : t.storedId? n = some id) : t.Identifies (n.withId id) := by
  rw [storedId?] at hid
  cases hnew : n.isPersisted with
  | true =>
      rw [if_pos hnew] at hid
      obtain rfl := Option.some.inj hid
      exact hn.known hnew
  | false =>
      rw [if_neg (by simp [hnew])] at hid
      obtain ⟨r, hrow, rfl⟩ := Option.map_eq_some_iff.mp hid
      exact h.identifies_of_rowOf? hsound (hn.fits hnew) hrow

theorem Recorded.rowOf?_literal_ne_none (hsound : t.Sound)
    (hm : t.Identifies m) (hkey : m.key = n.key)
    (hn : t.Locatable V n) (hnew : n.isPersisted = false) {l : Literal}
    (hterm : n.term = .literal l) :
    t.rowOf? n ≠ none := by
  obtain ⟨hvalue, datatype, hl, hheld⟩ := hn.fits hnew l hterm
  have hnonneg := hn.datatype hnew l hterm datatype hl
  have hlasts := LiteralValue.Lasting.lasts hvalue
  obtain ⟨r, hr, hholds, hrow⟩ := hm
  obtain ⟨id', term⟩ := m
  cases term with
  | uri uri | blank label => simp [Node.key, hterm] at hkey
  | literal l' =>
      have hliteral : r.isResource = false := hholds.2
      obtain ⟨-, datatype', hcolumn, hheld'⟩ := h.columns hr hliteral
      simp only [Node.key, hterm, NodeKey.literal.injEq] at hkey
      have hcolumns : l.key = t.literalKey r := hkey.symm.trans (hrow l' rfl)
      rw [literalKey, datatypeOf_eq (fun _ hr => hr) hsound hheld' hcolumn] at hcolumns
      rw [Literal.key_of_lowered hlasts.lowered] at hcolumns
      obtain ⟨hlexical, hlanguage, huri⟩ := LiteralKey.mk.inj hcolumns
      rw [Literal.datatypeUri, hl] at huri
      have hid : datatype.id = datatype'.id := hheld.id_eq (Option.some.inj huri ▸ hheld') hsound
      simp only [rowOf?, hterm, hl]
      rw [if_neg (not_lt.mpr hnonneg)]
      intro hnone
      have hmissing := List.find?_eq_none.mp hnone r hr
      simp [hliteral, ← hlexical, ← hlanguage, hcolumn, hid] at hmissing

theorem Recorded.storedId?_eq_some_iff (hsound : t.Sound)
    (hn : t.Locatable V n) (hm : t.Identifies m) :
    t.storedId? n = some m.id ↔ m.key = n.key := by
  constructor
  · intro hid
    exact (h.id_eq_iff hsound hm (h.identifies_of_storedId? hsound hn hid)).mp rfl
  · intro hkey
    have hfound : t.storedId? n ≠ none := by
      rw [storedId?]
      cases hnew : n.isPersisted with
      | true => simp
      | false =>
          rw [if_neg (by simp), Ne, Option.map_eq_none_iff]
          cases hterm : n.term with
          | literal l => exact h.rowOf?_literal_ne_none hsound hm hkey hn hnew hterm
          | uri uri | blank label =>
              have hheld : t.HoldsNode (n.withId m.id) := by
                obtain ⟨r, hr, hid, hrow⟩ := hm.holdsNode
                refine ⟨r, hr, hid, ?_⟩
                obtain ⟨id', term⟩ := m
                cases term <;> simp only [Node.key, hterm, NodeKey.uri.injEq, NodeKey.blank.injEq,
                  reduceCtorEq] at hkey
                subst hkey
                simpa only [Node.withId, hterm] using hrow
              have hstored := storesAs_of_holdsNode hsound hnew hheld
                (.inr (by simp [Node.isResource, Node.isUri, Node.isBlank, Node.kind, hterm]))
              rw [storedId?, if_neg (by simp [hnew])] at hstored
              intro hnone
              simp [hnone] at hstored
    obtain ⟨id, hid⟩ := Option.ne_none_iff_exists'.mp hfound
    have hsame := (h.id_eq_iff hsound hm (h.identifies_of_storedId? hsound hn hid)).mpr hkey
    rw [hid]
    exact congrArg some hsame.symm

theorem Recorded.storedId?_of_means (hsound : t.Sound)
    (hn : t.Locatable V n) (hmeans : t.Means n id) :
    t.storedId? n = some id := by
  obtain ⟨m, hm, rfl, hkey⟩ := hmeans
  rw [h.askedKey_eq hsound hn] at hkey
  exact (h.storedId?_eq_some_iff hsound hn hm).mpr hkey

end

/-- Whether the slots of a statement have the ids of what some nodes were made,
which may stand there. -/
structure Seats (t : Tables) (s p o c : Node) (k : StatementKey) : Prop where
  slots : checkSlots s p (some c) = .ok ()
  subject : t.Means s k.subject
  predicate : t.Means p k.predicate
  object : t.Means o k.object
  context : t.Means c k.context

theorem Recorded.seats_mono [LiteralValue.Lasting V] (h : t.Recorded V)
    {s p o c : Node} {k : StatementKey}
    (hseats : t.Seats s p o c k) (hnodes : ∀ r ∈ t.nodes, r ∈ t'.nodes) (hsound : t'.Sound) :
    t'.Seats s p o c k :=
  ⟨hseats.slots, h.means_mono hseats.subject hnodes hsound,
    h.means_mono hseats.predicate hnodes hsound,
    h.means_mono hseats.object hnodes hsound, h.means_mono hseats.context hnodes hsound⟩

end Tables

namespace Action

open LiteralValue (Readable)

variable {w w' : Workspace} {n : Node}

theorem convert_means (hgood : w.Good) (h : w.Recorded Readable)
    (hvalue : ∀ value ∈ n.newValue?, value.Readable)
    (hknown : n.isPersisted = true → w.view.Identifies n) :
    Ends Readable w (fun m w' => w'.view.Means n m.id) (convert n w) := by
  refine (convert_ends hgood h hvalue).imp_of fun m w' hop hkept hm => ?_
  obtain ⟨hm, hkey⟩ := hm hknown
  refine ⟨m, hm, rfl, ?_⟩
  cases hterm : n.term with
  | literal l =>
      simp only [Node.askedKey, hterm]
      cases hnew : n.isPersisted with
      | true =>
          rw [convert, if_pos hnew] at hop
          obtain ⟨rfl, rfl⟩ := pure_eq_ok_iff.mp hop
          rw [Node.key, hterm, ← h.view.key_eq_asked hgood.sound hm hterm]
      | false =>
          have hreadable := hvalue l.value (by simp [Node.newValue?, hnew, Node.literal?, hterm])
          exact hkey l hterm hreadable.isNumber
  | uri uri | blank label =>
      have hresource : n.isResource = true := by
        simp [Node.isResource, Node.isUri, Node.isBlank, Node.kind, hterm]
      have hlocatable : w'.view.Locatable Readable n :=
        ⟨fun hnew => hkept.identifies h (hknown hnew), fun _ l hl => by simp [hterm] at hl,
          fun _ l hl => by simp [hterm] at hl⟩
      have hid := convert_eq_ok hgood hop (.inr hresource)
      rw [hkept.recorded.view.askedKey_eq hkept.good.sound hlocatable]
      exact (hkept.recorded.view.storedId?_eq_some_iff hkept.good.sound hlocatable hm).mp hid

theorem createUri_means (hgood : w.Good) (h : w.Recorded Readable) (uri : String) :
    Ends Readable w (fun m w' => w'.view.Means (.uri uri) m.id) (createUri uri w) := by
  refine (createUri_ends hgood h uri).imp fun m w' _ hm => ⟨m, hm.1, rfl, ?_⟩
  simp [Node.key, Node.askedKey, hm.2, Node.uri]

/-- A statement that is made has the ids of what its nodes were made. -/
theorem createStatement_seats {subject predicate object : Node}
    {context : Option Node} (hgood : w.Good)
    (h : w.Recorded Readable) (hvalues : ∀ n ∈ [subject, predicate, object] ++ context.toList,
      ∀ value ∈ n.newValue?, value.Readable)
    (hknown : ∀ n ∈ [subject, predicate, object] ++ context.toList,
      n.isPersisted = true → w.view.Identifies n) :
    Ends Readable w (fun t w' => ∃ uri, w'.view.Seats subject predicate object
      (context.getD (.uri uri)) t.key) (createStatement subject predicate object context w) := by
  refine Ends.of_keeps (createStatement_recording hvalues) hgood h fun t w' hop => ?_
  have ⟨s, p, o, c, w₁, h₁, hsubject, hpredicate, hobject, hcontext, hmade⟩ :=
    createStatement_made (I := fun w₁ => Kept Readable w w₁ ∧ Silent w w₁)
      (P := fun w n id => w.view.Means n id) w.store.config.defaultContext
      ⟨.refl hgood h, refl w⟩ (fun n hn w₁ m w₂ h₁ hm => ?_) (fun w₁ m w₂ h₁ hm => ?_) hop
  · obtain ⟨hkey, -⟩ := identifyMade_eq_ok h₁.1.good hmade
    have hkept := (keeps_ofStatement _).bind (fun t => identifyShared_recording t)
      |>.ok hmade h₁.1.good h₁.1.recorded
    have hslots := checkSlots_getD (createStatement_checks hop) w.store.config.defaultContext
    rw [hkey]
    exact ⟨w.store.config.defaultContext, h₁.1.recorded.view.seats_mono
      ⟨hslots, hsubject, hpredicate, hobject, hcontext⟩ hkept.works.nodes hkept.good.sound⟩
  · have ⟨hkept, hmeans⟩ := (convert_means h₁.1.good h₁.1.recorded (hvalues n hn) fun hnew =>
      h₁.1.identifies h (hknown n hn hnew)).of_ok hm
    exact ⟨⟨h₁.1.trans hkept, IsTrans.trans _ _ _ h₁.2 ((convert_silent n).ok hm)⟩, hmeans,
      fun _ _ hmeans => h₁.1.recorded.view.means_mono hmeans hkept.works.nodes hkept.good.sound⟩
  · have ⟨hkept, hmeans⟩ := (createUri_means h₁.1.good h₁.1.recorded _).of_ok hm
    rw [h₁.2.config] at hmeans
    exact ⟨⟨h₁.1.trans hkept, IsTrans.trans _ _ _ h₁.2 ((createUri_silent _).ok hm)⟩, hmeans,
      fun _ _ hmeans => h₁.1.recorded.view.means_mono hmeans hkept.works.nodes hkept.good.sound⟩

end Action
end QuadStore
