import QuadStore.Proofs.TypedStores

namespace QuadStore

namespace LiteralValue

variable {value value' : LiteralValue} {datatype content : String}

/-- What a text of a datatype for integers or truth values stands for. Blanks on
both sides do not count. -/
inductive StandsFor : String → String → LiteralValue → Prop
  | int {datatype content : String} {numeral : List Char} {v : Int}
      (hdatatype : Vocabulary.isIntegerType datatype = true)
      (htrims : Text.Trims content.toList numeral)
      (hdenotes : Text.Denotes numeral v) (hbits : -2 ^ 63 ≤ v ∧ v < 2 ^ 63) :
      StandsFor datatype content (.int v)
  | yes {content : String} {word : List Char} (htrims : Text.Trims content.toList word)
      (hword : word = "true".toList ∨ word = "1".toList) :
      StandsFor Vocabulary.xsdBoolean content (.boolean true)
  | no {content : String} {word : List Char} (htrims : Text.Trims content.toList word)
      (hword : word = "false".toList ∨ word = "0".toList) :
      StandsFor Vocabulary.xsdBoolean content (.boolean false)

/-- Whether a datatype is one for integers or truth values. -/
def IsExact (datatype : String) : Prop :=
  Vocabulary.isIntegerType datatype = true ∨ datatype = Vocabulary.xsdBoolean

theorem IsExact.ne_xsdString (h : IsExact datatype) : datatype ≠ Vocabulary.xsdString := by
  rcases h with h | rfl
  · rintro rfl
    revert h
    decide
  · decide

theorem readBoolean_eq_some_iff {word : List Char} {b : Bool} : readBoolean word = some b ↔
    b = true ∧ (word = "true".toList ∨ word = "1".toList) ∨
      b = false ∧ (word = "false".toList ∨ word = "0".toList) := by
  unfold readBoolean
  split
  · rename_i hyes
    have hno : ¬(word = "false".toList ∨ word = "0".toList) := by
      rcases hyes with rfl | rfl <;> decide
    constructor
    · rintro ⟨⟩
      exact .inl ⟨rfl, hyes⟩
    · rintro (⟨rfl, -⟩ | ⟨-, hword⟩)
      · rfl
      · exact absurd hword hno
  · rename_i hyes
    split
    · rename_i hno
      constructor
      · rintro ⟨⟩
        exact .inr ⟨rfl, hno⟩
      · rintro (⟨-, hword⟩ | ⟨rfl, -⟩)
        · exact absurd hword hyes
        · rfl
    · rename_i hno
      constructor
      · rintro ⟨⟩
      · rintro (⟨-, hword⟩ | ⟨-, hword⟩)
        · exact absurd hword hyes
        · exact absurd hword hno

theorem read_eq_some_iff (h : IsExact datatype) :
    read datatype content = some value ↔ StandsFor datatype content value := by
  have htrims := Text.trims_trim content.toList
  rcases h with hint | rfl
  · have hform : LiteralForm.ofDatatype datatype = .int := if_pos hint
    have hread : read datatype content =
        (Text.readInt64 (Text.trim content.toList)).map .int := by
      simp only [read, hform]
    rw [hread, Option.map_eq_some_iff]
    constructor
    · rintro ⟨v, hv, rfl⟩
      obtain ⟨hdenotes, hbits⟩ := Text.readInt64_eq_some_iff.mp hv
      exact .int hint htrims hdenotes hbits
    · intro h
      cases h with
      | int _ htrims' hdenotes hbits =>
          rw [htrims'.eq_trim]
          exact ⟨_, Text.readInt64_eq_some_iff.mpr ⟨hdenotes, hbits⟩, rfl⟩
      | yes | no => exact absurd hint (by decide)
  · have hread : read Vocabulary.xsdBoolean content =
        (readBoolean (Text.trim content.toList)).map .boolean := rfl
    rw [hread, Option.map_eq_some_iff]
    constructor
    · rintro ⟨b, hb, rfl⟩
      rcases readBoolean_eq_some_iff.mp hb with ⟨rfl, hword⟩ | ⟨rfl, hword⟩
      · exact .yes htrims hword
      · exact .no htrims hword
    · intro h
      cases h with
      | int hint => exact absurd hint (by decide)
      | yes htrims' hword =>
          rw [htrims'.eq_trim]
          exact ⟨_, readBoolean_eq_some_iff.mpr (.inl ⟨rfl, hword⟩), rfl⟩
      | no htrims' hword =>
          rw [htrims'.eq_trim]
          exact ⟨_, readBoolean_eq_some_iff.mpr (.inr ⟨rfl, hword⟩), rfl⟩

theorem StandsFor.isExact (h : StandsFor datatype content value) : IsExact datatype := by
  cases h with
  | int hint => exact .inl hint
  | yes | no => exact .inr rfl

theorem StandsFor.ofText (h : StandsFor datatype content value) :
    LiteralValue.ofText content datatype = (value, datatype) := by
  rw [LiteralValue.ofText, (read_eq_some_iff h.isExact).mpr h]

theorem ofText_of_standsForNone (hexact : IsExact datatype)
    (h : ¬∃ value, StandsFor datatype content value) :
    ofText content datatype = (.string content none, Vocabulary.xsdString) := by
  cases hread : read datatype content with
  | some value => exact absurd ⟨value, (read_eq_some_iff hexact).mp hread⟩ h
  | none => rw [ofText, hread]

theorem ofText_xsdString (content : String) :
    ofText content Vocabulary.xsdString = (.string content none, Vocabulary.xsdString) := rfl

theorem StandsFor.canonical (h : StandsFor datatype content value) :
    StandsFor datatype (value.content (some datatype)) value := by
  cases h with
  | int hint _ _ hbits =>
      exact .int hint (Text.trims_iff.mpr (Text.trim_intText _)) (Text.denotes_intText _) hbits
  | yes => exact .yes (Text.trims_trim _) (by decide)
  | no => exact .no (Text.trims_trim _) (by decide)

theorem ofText_cases (hexact : IsExact datatype) (content : String) :
    (∃ value, StandsFor datatype content value ∧ ofText content datatype = (value, datatype)) ∨
      (¬∃ value, StandsFor datatype content value) ∧
        ofText content datatype = (.string content none, Vocabulary.xsdString) := by
  by_cases h : ∃ value, StandsFor datatype content value
  · obtain ⟨value, h⟩ := h
    exact .inl ⟨value, h, h.ofText⟩
  · exact .inr ⟨h, ofText_of_standsForNone hexact h⟩

/-- Whether two texts of a datatype stand for the same value, or are the same
text and stand for none. -/
def StandAlike (datatype content content' : String) : Prop :=
  (∃ value, StandsFor datatype content value ∧ StandsFor datatype content' value) ∨
    (¬∃ value, StandsFor datatype content value) ∧ (¬∃ value, StandsFor datatype content' value) ∧
      content = content'

theorem ofText_eq_iff {content' : String} (hexact : IsExact datatype) :
    ofText content datatype = ofText content' datatype ↔
      StandAlike datatype content content' := by
  constructor
  · intro heq
    -- A value and a mere text are never the same literal, since they have different datatypes.
    rcases ofText_cases hexact content with ⟨value, h, hof⟩ | ⟨h, hof⟩ <;>
      rcases ofText_cases hexact content' with ⟨value', h', hof'⟩ | ⟨h', hof'⟩ <;>
      rw [hof, hof', Prod.mk.injEq] at heq
    · exact .inl ⟨value, h, heq.1 ▸ h'⟩
    · exact absurd heq.2 hexact.ne_xsdString
    · exact absurd heq.2.symm hexact.ne_xsdString
    · exact .inr ⟨h, h', (LiteralValue.string.inj heq.1).1⟩
  · rintro (⟨value, h, h'⟩ | ⟨-, -, rfl⟩)
    · rw [h.ofText, h'.ofText]
    · rfl

/-- Whether a value is of the kind that its datatype asks for, if that is one of integers,
truth values or texts. -/
structure Canonical (value : LiteralValue) (datatype : String) : Prop where
  int : Vocabulary.isIntegerType datatype = true → value.kind = .int
  boolean : datatype = Vocabulary.xsdBoolean → value.kind = .boolean
  string : datatype = Vocabulary.xsdString → value.kind = .string ∧ value.language = none
  langString : datatype = Vocabulary.langString → value.kind = .string

theorem language_of_kind (h : value.kind ≠ .string) : value.language = none := by
  cases value with
  | string => exact absurd rfl h
  | int | double | boolean | date => rfl

theorem ownsText_canonical (h : value.Canonical datatype)
    (hdatatype : IsExact datatype ∨ datatype = Vocabulary.xsdString) :
    value.OwnsText Canonical datatype := by
  intro value' h'
  have alike {kind : NodeKind} (hkind : value.kind = kind) (hkind' : value'.kind = kind)
      (hne : kind ≠ .string) : value'.kind = value.kind ∧ value'.language = value.language :=
    ⟨hkind'.trans hkind.symm,
      (language_of_kind (hkind' ▸ hne)).trans (language_of_kind (hkind ▸ hne)).symm⟩
  have hsame : value'.kind = value.kind ∧ value'.language = value.language := by
    rcases hdatatype with (hint | hboolean) | hstring
    · exact alike (h.int hint) (h'.int hint) (by decide)
    · exact alike (h.boolean hboolean) (h'.boolean hboolean) (by decide)
    · obtain ⟨hkind, hlanguage⟩ := h.string hstring
      obtain ⟨hkind', hlanguage'⟩ := h'.string hstring
      exact ⟨hkind'.trans hkind.symm, hlanguage'.trans hlanguage.symm⟩
  exact .inl ⟨hsame.1, fun _ => hsame.2⟩

theorem canonical_text (content : String) :
    (LiteralValue.string content none).Canonical Vocabulary.xsdString :=
  ⟨fun h => absurd h (by decide), fun h => absurd h (by decide),
    fun _ => ⟨rfl, rfl⟩, fun _ => rfl⟩

theorem canonical_of_form (hint : LiteralForm.ofDatatype datatype = .int → value.kind = .int)
    (hboolean : LiteralForm.ofDatatype datatype = .boolean → value.kind = .boolean)
    (htext : LiteralForm.ofDatatype datatype = .text →
      value.kind = .string ∧ value.language = none) :
    value.Canonical datatype := by
  refine ⟨fun h => hint (if_pos h), ?_, ?_, ?_⟩
  · rintro rfl
    exact hboolean (by decide)
  · rintro rfl
    exact htext (by decide)
  · rintro rfl
    exact (htext (by decide)).1

theorem canonical_of_read (h : read datatype content = some value) :
    value.Canonical datatype ∧ value.isNaN = false := by
  unfold read at h
  dsimp only at h
  split at h
  · rename_i hform
    obtain ⟨v, -, rfl⟩ := Option.map_eq_some_iff.mp h
    exact ⟨canonical_of_form (fun _ => rfl) (by simp [hform]) (by simp [hform]), rfl⟩
  · rename_i hform
    obtain ⟨x, hx, rfl⟩ := Option.map_eq_some_iff.mp h
    obtain ⟨-, hnumber⟩ := Option.filter_eq_some_iff.mp hx
    have hnan : x.isNaN = false := by simpa using hnumber
    exact ⟨canonical_of_form (by simp [hform]) (by simp [hform]) (by simp [hform]), hnan⟩
  · rename_i hform
    obtain ⟨b, -, rfl⟩ := Option.map_eq_some_iff.mp h
    exact ⟨canonical_of_form (by simp [hform]) (fun _ => rfl) (by simp [hform]), rfl⟩
  · rename_i hform
    obtain ⟨m, -, rfl⟩ := Option.map_eq_some_iff.mp h
    exact ⟨canonical_of_form (by simp [hform]) (by simp [hform]) (by simp [hform]), rfl⟩
  · rename_i hform
    obtain rfl := Option.some.inj h
    exact ⟨canonical_of_form (by simp [hform]) (by simp [hform]) fun _ => ⟨rfl, rfl⟩, rfl⟩

theorem canonical_default (value : LiteralValue) : value.Canonical value.defaultDatatype := by
  cases value with
  | string content language =>
      cases language with
      | none => exact canonical_text content
      | some tag =>
          show (LiteralValue.string content (some tag)).Canonical Vocabulary.langString
          exact ⟨fun h => absurd h (by decide), fun h => absurd h (by decide),
            fun h => absurd h (by decide), fun _ => rfl⟩
  | int v =>
      show (LiteralValue.int v).Canonical Vocabulary.xsdInteger
      exact canonical_of_form (fun _ => rfl) (fun h => absurd h (by decide)) fun h =>
        absurd h (by decide)
  | boolean b =>
      show (LiteralValue.boolean b).Canonical Vocabulary.xsdBoolean
      exact canonical_of_form (fun h => absurd h (by decide)) (fun _ => rfl) fun h =>
        absurd h (by decide)
  | double x =>
      show (LiteralValue.double x).Canonical Vocabulary.xsdDouble
      exact canonical_of_form (fun h => absurd h (by decide)) (fun h => absurd h (by decide))
        fun h => absurd h (by decide)
  | date m =>
      show (LiteralValue.date m).Canonical Vocabulary.xsdDateTime
      exact canonical_of_form (fun h => absurd h (by decide)) (fun h => absurd h (by decide))
        fun h => absurd h (by decide)

theorem defaultDatatype_lowered (value : LiteralValue) :
    value.lowered.defaultDatatype = value.defaultDatatype := by
  cases value with
  | string content language => cases language <;> rfl
  | int | double | boolean | date => rfl

theorem Canonical.kept (h : value.Canonical datatype) :
    (value.kept datatype).1.Canonical (value.kept datatype).2 := by
  cases hnan : value.isNaN with
  | false =>
      rw [kept_of_number hnan]
      exact h
  | true =>
      rw [kept_of_isNaN hnan]
      exact canonical_text _

end LiteralValue

/-- What is created goes with its datatype. -/
theorem Call.askable_of_literal? {c : Call} {literal : LiteralValue × String}
    (h : c.literal? = some literal) :
    Askable LiteralValue.Canonical literal := by
  refine ⟨Call.lowered_of_literal? h, LiteralValue.Canonical.kept ?_⟩
  cases c with
  | literal value =>
      obtain rfl := Option.some.inj h
      rw [← value.defaultDatatype_lowered]
      exact LiteralValue.canonical_default _
  | string content language =>
      obtain rfl := Option.some.inj h
      cases language with
      | none => exact LiteralValue.canonical_default (.string content none)
      | some tag =>
          exact LiteralValue.canonical_default (.string content (some (Text.lowerCase tag)))
  | typed content datatype =>
      obtain rfl := Option.some.inj h
      unfold LiteralValue.ofText
      cases hread : LiteralValue.read datatype content with
      | none => exact LiteralValue.canonical_text content
      | some value => exact (LiteralValue.canonical_of_read hread).1
  | _ => cases h

/-- Whether a change makes no literals but those that are asked for. -/
def FileChange.BringsNone (change : FileChange) : Prop :=
  ∀ c ∈ change.call?, c.brought = []

theorem FileChange.BringsNone.askable {change : FileChange} (h : change.BringsNone) :
    ∀ c ∈ change.call?, ∀ literal ∈ c.asked, Askable LiteralValue.Canonical literal := by
  intro c hc literal hliteral
  rw [Call.asked, h c hc, List.nil_append, Option.mem_toList] at hliteral
  exact Call.askable_of_literal? hliteral

end QuadStore
