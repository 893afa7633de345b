import Mathlib.Logic.Relation
import Mathlib.Tactic.MkIffOfInductiveProp
import QuadStore.Proofs.WrittenTables

namespace QuadStore

variable {a b : Node}

/-- Whether two literals have the same content, language and datatype. -/
@[mk_iff]
structure Literal.SameAs (l l' : Literal) : Prop where
  content : l.content = l'.content
  language : l.language = l'.language
  datatype : l.datatypeUri = l'.datatypeUri

theorem Literal.sameAs_of_datatype (l : Literal) {datatype : Option UriResource}
    (h : l.datatypeUri = datatype.map UriResource.uri) : l.SameAs { l with datatype } :=
  ⟨congrArg l.value.content h, rfl, h⟩

namespace Term

/-- Whether two terms are the same: one URI, one label, or literals with the same parts. -/
inductive SameAs : Term → Term → Prop
  | uri (uri : String) : SameAs (.uri uri) (.uri uri)
  | blank (label : String) : SameAs (.blank label) (.blank label)
  | literal {l l' : Literal} (h : l.SameAs l') : SameAs (.literal l) (.literal l')

namespace SameAs

variable {s t u : Term}

theorem refl (t : Term) : t.SameAs t := by
  cases t with
  | uri uri => exact .uri uri
  | blank label => exact .blank label
  | literal l => exact .literal ⟨rfl, rfl, rfl⟩

theorem symm (h : s.SameAs t) : t.SameAs s := by
  cases h with
  | uri uri => exact .uri uri
  | blank label => exact .blank label
  | literal h => exact .literal ⟨h.content.symm, h.language.symm, h.datatype.symm⟩

theorem trans (h : s.SameAs t) (h' : t.SameAs u) : s.SameAs u := by
  cases h with
  | uri | blank => exact h'
  | literal h =>
      cases h' with
      | literal h' =>
          exact .literal ⟨h.content.trans h'.content, h.language.trans h'.language,
            h.datatype.trans h'.datatype⟩

theorem congr {s' t' : Term} (hs : s.SameAs s') (ht : t.SameAs t') : s.SameAs t ↔ s'.SameAs t' :=
  ⟨fun h => (hs.symm.trans h).trans ht, fun h => (hs.trans h).trans ht.symm⟩

end SameAs

variable {t : Term}

@[simp]
theorem sameAs_uri_iff {uri : String} : (Term.uri uri).SameAs t ↔ .uri uri = t :=
  ⟨by rintro ⟨⟩; rfl, by rintro rfl; exact .uri uri⟩

@[simp]
theorem sameAs_blank_iff {label : String} : (Term.blank label).SameAs t ↔ .blank label = t :=
  ⟨by rintro ⟨⟩; rfl, by rintro rfl; exact .blank label⟩

@[simp]
theorem sameAs_literal_iff {l : Literal} :
    (Term.literal l).SameAs t ↔ ∃ l', .literal l' = t ∧ l.SameAs l' :=
  ⟨by rintro (_ | _ | h); exact ⟨_, rfl, h⟩, by rintro ⟨l', rfl, h⟩; exact .literal h⟩

end Term

theorem NodeRow.readTerm_created (r : NodeRow) (created : Stamp) (kind : NodeKind)
    (datatype : Option UriResource) :
    { r with created }.readTerm kind datatype = r.readTerm kind datatype := by
  cases kind <;> rfl

namespace Node

/-- Whether a node was built as one of the seven kinds, perhaps with an id that it got later. -/
inductive Built : Node → Prop
  | uri (uri : String) : Built (.uri uri)
  | blank (label : String) : Built (.blank label)
  | string (content : String) (language : Option String) (datatype : Option UriResource) :
      Built (.string content language datatype)
  | int (value : Int) (datatype : Option UriResource) : Built (.literal (.int value) datatype)
  | double (value : Binary64) (datatype : Option UriResource) :
    Built (.literal (.double value) datatype)
  | boolean (value : Bool) (datatype : Option UriResource) :
    Built (.literal (.boolean value) datatype)
  | date (value : Moment) (datatype : Option UriResource) :
    Built (.literal (.date value) datatype)
  | withId {n : Node} (h : Built n) (id : Int) : Built (n.withId id)

theorem Built.lowered {n : Node} (h : n.Built) {l : Literal} (hterm : n.term = .literal l) :
    l.value.Lowered := by
  induction h with
  | uri | blank => cases hterm
  | string content language datatype =>
      cases hterm
      exact LiteralValue.lowered_string content language
  | int | double | boolean | date =>
      cases hterm
      rfl
  | withId _ _ ih => exact ih hterm

theorem built_iff {n : Node} : n.Built ↔ ∀ l, n.term = .literal l → l.value.Lowered := by
  constructor
  · exact fun h l hterm => h.lowered hterm
  · intro h
    obtain ⟨id, term⟩ := n
    cases term with
    | uri uri => exact (Built.uri uri).withId id
    | blank label => exact (Built.blank label).withId id
    | literal l =>
        have hlowered := h l rfl
        obtain ⟨value, datatype⟩ := l
        cases value with
        | string content language =>
            have hlanguage : language.map Text.lowerCase = language := hlowered
            have hbuilt := (Built.string content language datatype).withId id
            rwa [Node.string, hlanguage] at hbuilt
        | int value => exact (Built.int value datatype).withId id
        | double value => exact (Built.double value datatype).withId id
        | boolean value => exact (Built.boolean value datatype).withId id
        | date value => exact (Built.date value datatype).withId id

theorem built_of_toNode {r : NodeRow} {kind : NodeKind} {datatype : Option UriResource} {n : Node}
    (h : r.toNode kind datatype = .ok n) : n.Built := by
  refine built_iff.mpr fun l hterm => ?_
  have hread := (NodeRow.toNode_eq_ok_iff.mp h).1
  rw [hterm] at hread
  exact (NodeRow.readTerm_literal hread).2

theorem same_eq_true_iff : a.same b = true ↔ a.term.SameAs b.term := by
  obtain ⟨i, s⟩ := a
  obtain ⟨j, t⟩ := b
  cases s with
  | uri | blank => cases t <;> simp [same]
  | literal l => cases t <;> simp [same, Literal.sameAs_iff, and_assoc]

theorem same_equivalence : Equivalence fun m n : Node => m.same n = true where
  refl _ := same_eq_true_iff.mpr (.refl _)
  symm h := same_eq_true_iff.mpr (same_eq_true_iff.mp h).symm
  trans h h' := same_eq_true_iff.mpr ((same_eq_true_iff.mp h).trans (same_eq_true_iff.mp h'))

theorem fingerprint_eq_iff : a.fingerprint = b.fingerprint ↔ a.term.SameAs b.term := by
  obtain ⟨i, s⟩ := a
  obtain ⟨j, t⟩ := b
  cases s with
  | uri | blank => cases t <;> simp [fingerprint]
  | literal l => cases t <;> simp [fingerprint, Literal.sameAs_iff]

theorem key_eq_of_sameAs (h : a.term.SameAs b.term) : a.key = b.key := by
  obtain ⟨i, s⟩ := a
  obtain ⟨j, t⟩ := b
  cases h with
  | uri | blank => rfl
  | literal h => simp only [key, Literal.key, h.content, h.language, h.datatype]

theorem Built.key_eq_iff (ha : a.Built) (hb : b.Built) :
    a.key = b.key ↔ a.term.SameAs b.term := by
  have hlowered := built_iff.mp ha
  have hlowered' := built_iff.mp hb
  obtain ⟨i, s⟩ := a
  obtain ⟨j, t⟩ := b
  cases s with
  | uri | blank => cases t <;> simp [key]
  | literal l =>
      cases t with
      | uri | blank => simp [key]
      | literal l' =>
          have hkey := Literal.key_of_lowered (hlowered l rfl)
          have hkey' := Literal.key_of_lowered (hlowered' l' rfl)
          simp [key, hkey, hkey', Literal.sameAs_iff]

/-- Nodes that are not built may have a language with capitals, which keys
hide and equality shows. -/
example : let a : Node := ⟨transientId, .literal ⟨.string "Hallo" (some "DE"), none⟩⟩
    let b : Node := .string "Hallo" (some "DE") none
    a.key = b.key ∧ a.same b = false := by
  decide +kernel

theorem literalKey?_eq : a.literalKey? = match a.key with
    | .literal key => some key
    | _ => none := by
  obtain ⟨i, s⟩ := a
  cases s <;> rfl

theorem key_of_isLiteral (h : a.isLiteral = true) :
    ∃ key, a.key = .literal key ∧ a.literalKey? = some key := by
  obtain ⟨i, s⟩ := a
  cases s with
  | uri | blank => cases h
  | literal l => exact ⟨l.key, rfl, rfl⟩

theorem literalKey?_eq_iff (ha : a.isLiteral = true) (hb : b.isLiteral = true) :
    a.literalKey? = b.literalKey? ↔ a.key = b.key := by
  obtain ⟨k, hkey, hliteral⟩ := key_of_isLiteral ha
  obtain ⟨k', hkey', hliteral'⟩ := key_of_isLiteral hb
  rw [hkey, hkey', hliteral, hliteral', Option.some.injEq, NodeKey.literal.injEq]

/-- A change of a node that leaves what it stands for: it or its datatype gets another id, the row
that it is read from another time, or a literal a value of another kind with the same text and
language. Nodes keep no time themselves. -/
inductive Recasts : Node → Node → Prop
  | id (n : Node) (id : Int) : Recasts n (n.withId id)
  | datatype (n : Node) {datatype : Option UriResource}
      (h : datatype.map UriResource.uri = n.datatypeUri?) : Recasts n (n.withDatatype datatype)
  | time {r : NodeRow} {kind : NodeKind} {datatype : Option UriResource}
    {n n' : Node} (created : Stamp)
      (h : r.toNode kind datatype = .ok n)
      (h' : { r with created }.toNode kind datatype = .ok n') :
      Recasts n n'
  | value {id : Int} {l : Literal} {value : LiteralValue}
    (hcontent : value.content l.datatypeUri = l.content)
      (hlanguage : value.language = l.language) :
      Recasts ⟨id, .literal l⟩ ⟨id, .literal { l with value }⟩

theorem Recasts.sameAs (h : a.Recasts b) : a.term.SameAs b.term := by
  cases h with
  | id => exact .refl _
  | datatype _ hdatatype =>
      obtain ⟨i, s⟩ := a
      cases s with
      | uri | blank => exact .refl _
      | literal l => exact .literal (l.sameAs_of_datatype hdatatype.symm)
  | time created h h' =>
      obtain ⟨hterm, -, -⟩ := NodeRow.toNode_eq_ok_iff.mp h
      obtain ⟨hterm', -, -⟩ := NodeRow.toNode_eq_ok_iff.mp h'
      rw [NodeRow.readTerm_created, hterm] at hterm'
      rw [Except.ok.inj hterm']
      exact .refl _
  | value hcontent hlanguage => exact .literal ⟨hcontent.symm, hlanguage.symm, rfl⟩

theorem sameAs_of_recasts (h : Relation.ReflTransGen Recasts a b) : a.term.SameAs b.term := by
  induction h with
  | refl => exact .refl _
  | tail _ hlast ih => exact ih.trans hlast.sameAs

theorem recasts_of_sameAs (h : a.term.SameAs b.term) : Relation.ReflTransGen Recasts a b := by
  obtain ⟨i, s⟩ := a
  obtain ⟨j, t⟩ := b
  cases h with
  | uri uri => exact .single (.id ⟨i, .uri uri⟩ j)
  | blank label => exact .single (.id ⟨i, .blank label⟩ j)
  | literal h =>
      rename_i l l'
      obtain ⟨value, datatype⟩ := l
      obtain ⟨value', datatype'⟩ := l'
      have hdatatype := Literal.sameAs_of_datatype ⟨value, datatype⟩ h.datatype
      have hid : Recasts ⟨i, .literal ⟨value, datatype⟩⟩ ⟨j, .literal ⟨value, datatype⟩⟩ :=
        .id _ j
      have hretyped : Recasts ⟨j, .literal ⟨value, datatype⟩⟩ ⟨j, .literal ⟨value, datatype'⟩⟩ :=
        .datatype ⟨j, .literal ⟨value, datatype⟩⟩ h.datatype.symm
      have hvalue : Recasts ⟨j, .literal ⟨value, datatype'⟩⟩ ⟨j, .literal ⟨value', datatype'⟩⟩ :=
        .value (h.content.symm.trans hdatatype.content) h.language.symm
      exact .tail (.tail (.single hid) hretyped) hvalue

/-- Nodes as they are built, of whatever kinds and with whatever ids, are told apart alike by
equality, by natural keys and by what hashes are computed from, and literals by their keys as
well. Equality is an equivalence. It takes two nodes for the same exactly if they differ in ids,
times and the kinds of literals only, and to none of the four do these make a difference. -/
theorem identities_agree (ha : a.Built) (hb : b.Built) :
    (a.same b = true ↔ a.key = b.key) ∧ (a.same b = true ↔ a.fingerprint = b.fingerprint) ∧
      (a.isLiteral = true → b.isLiteral = true →
        (a.same b = true ↔ a.literalKey? = b.literalKey?)) ∧
      (Equivalence fun m n : Node => m.same n = true) ∧
      (a.same b = true ↔ Relation.ReflTransGen Recasts a b) ∧
      ∀ a' b', Relation.ReflTransGen Recasts a a' → Relation.ReflTransGen Recasts b b' →
        a'.same b' = a.same b ∧ a'.key = a.key ∧ a'.literalKey? = a.literalKey? ∧
          a'.fingerprint = a.fingerprint := by
  have hkey : a.same b = true ↔ a.key = b.key := same_eq_true_iff.trans (ha.key_eq_iff hb).symm
  refine ⟨hkey, same_eq_true_iff.trans fingerprint_eq_iff.symm, fun hl hl' => ?_, ?_, ?_, ?_⟩
  · exact hkey.trans (literalKey?_eq_iff hl hl').symm
  · exact same_equivalence
  · exact same_eq_true_iff.trans ⟨recasts_of_sameAs, sameAs_of_recasts⟩
  · intro a' b' ha' hb'
    have hsame := sameAs_of_recasts ha'
    have hsame' := sameAs_of_recasts hb'
    have hkey : a.key = a'.key := key_eq_of_sameAs hsame
    refine ⟨?_, hkey.symm, ?_, (fingerprint_eq_iff.mpr hsame).symm⟩
    · rw [Bool.eq_iff_iff, same_eq_true_iff, same_eq_true_iff, hsame.congr hsame']
    · rw [literalKey?_eq, literalKey?_eq, hkey]

/-- The integer 30 as it is read from its row, and a text "30" under the datatype of integers
that is not stored yet. -/
theorem identities_agree_thirty :
    let a := (Node.literal (.int 30) (some ⟨2, Vocabulary.xsdInteger⟩)).withId 4
    let b := Node.string "30" none (some ⟨transientId, Vocabulary.xsdInteger⟩)
    a.Built ∧ b.Built ∧ a.same b = true ∧ a.key = b.key ∧ a.fingerprint = b.fingerprint ∧
      a.literalKey? = b.literalKey? ∧ Relation.ReflTransGen Recasts a b := by
  intro a b
  have hread : (NodeRow.ofNode 4 a).toNode .int (some ⟨2, Vocabulary.xsdInteger⟩) = .ok a := rfl
  have ha : a.Built := built_of_toNode hread
  have hb : b.Built := .string "30" none _
  obtain ⟨hkey, hfingerprint, hliteral, -, hrecasts, -⟩ := identities_agree ha hb
  have hsame : a.same b = true := by decide +kernel
  exact ⟨ha, hb, hsame, hkey.mp hsame, hfingerprint.mp hsame, (hliteral rfl rfl).mp hsame,
    hrecasts.mp hsame⟩

end Node
end QuadStore
