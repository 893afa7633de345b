import QuadStore.Node.Key
import QuadStore.Proofs.QuotedContents

namespace QuadStore

/-- Whether a text is a language: letters, and after each hyphen letters or digits,
at least one each time. -/
def isLanguageTag (tag : String) : Bool :=
  match tag.toList.splitOn '-' with
  | [] => false
  | first :: rest =>
      !first.isEmpty && first.all Char.isAlpha &&
        rest.all fun part => !part.isEmpty && part.all Char.isAlphanum

/-- Whether a character stands for itself between angle brackets. -/
def isIriChar (c : Char) : Bool :=
  32 < c.toNat && !(['<', '>', '"', '\x7b', '\x7d', '|', '^', '\x60', '\\'].contains c)

/-- What may stand between angle brackets. -/
inductive IsIri : List Char → Prop
  | nil : IsIri []
  | char {c : Char} {s : List Char} (hc : isIriChar c = true) (h : IsIri s) : IsIri (c :: s)
  | number {e : Char} {width : Nat} {ds s : List Char} (he : (e, width) ∈ numberEscapes)
      (hds : IsCharNumber width ds) (h : IsIri s) : IsIri ('\\' :: e :: (ds ++ s))

theorem IsIri.of_all {s : List Char} (h : s.all isIriChar = true) : IsIri s := by
  induction s with
  | nil => exact .nil
  | cons c s ih =>
      obtain ⟨hc, hs⟩ := Bool.and_eq_true_iff.mp h
      exact .char hc (ih hs)

/-- What stands behind the quotes, with the language or the datatype that it gives. -/
inductive Suffix : List Char → Option String → Option String → Prop
  | plain : Suffix [] none none
  | tagged {tag : String} (h : isLanguageTag tag = true) :
    Suffix ('@' :: tag.toList) (some tag) none
  | typed {iri : String} (h : IsIri iri.toList) :
      Suffix ('^' :: '^' :: '<' :: (iri.toList ++ ['>'])) none (some iri)

/-- A text of a literal with the given content, language and datatype. Those of N-Triples have no
ends of lines that stand for themselves. -/
def WrittenAs (lineEnds : Bool) (text : String) (k : LiteralKey) : Prop :=
  ∃ q suffix, text.toList = '"' :: (q ++ '"' :: suffix) ∧ Quotes lineEnds q k.content.toList ∧
    Suffix suffix k.language k.datatype

/-- What a literal shows of itself: a language stands in place of the datatype. -/
def Literal.shown (l : Literal) : LiteralKey :=
  ⟨l.content, l.language, if l.language.isSome then none else l.datatypeUri⟩

theorem Suffix.unique {s : List Char} {language language' datatype datatype' : Option String}
    (h : Suffix s language datatype) (h' : Suffix s language' datatype') :
    language = language' ∧ datatype = datatype' := by
  cases h with
  | plain =>
      cases h'
      exact ⟨rfl, rfl⟩
  | tagged _ =>
      generalize hs : '@' :: _ = s at h'
      cases h' with
      | plain => cases hs
      | tagged _ => exact ⟨congrArg some (String.toList_inj.mp (List.cons.inj hs).2), rfl⟩
      | typed _ => cases (List.cons.inj hs).1
  | typed _ =>
      generalize hs : '^' :: _ = s at h'
      cases h' with
      | plain => cases hs
      | tagged _ => cases (List.cons.inj hs).1
      | typed _ =>
          simp only [List.cons.injEq, true_and] at hs
          exact ⟨rfl, congrArg some (String.toList_inj.mp (List.append_cancel_right hs))⟩

theorem WrittenAs.unique {lineEnds lineEnds' : Bool} {text : String} {k k' : LiteralKey}
    (h : WrittenAs lineEnds text k) (h' : WrittenAs lineEnds' text k') : k = k' := by
  obtain ⟨q, suffix, htext, hq, hsuffix⟩ := h
  obtain ⟨q', suffix', htext', hq', hsuffix'⟩ := h'
  obtain ⟨rfl, hcontent, rfl⟩ := hq.unique hq' (List.cons.inj (htext.symm.trans htext')).2
  obtain ⟨hlanguage, hdatatype⟩ := hsuffix.unique hsuffix'
  cases k
  cases k'
  simp_all [String.toList_inj]

namespace Literal

variable {l : Literal}

theorem exists_suffix (htag : ∀ tag ∈ l.language, isLanguageTag tag = true)
    (hiri : ∀ iri ∈ l.datatypeUri, IsIri iri.toList) :
    ∃ suffix, l.text.toList = '"' :: (l.content.toList.flatMap escapedChar ++ '"' :: suffix) ∧
      Suffix suffix l.shown.language l.shown.datatype := by
  unfold text shown
  cases hlanguage : l.language with
  | some tag =>
      refine ⟨'@' :: tag.toList, by simp [toList_escapedContent], ?_⟩
      exact .tagged (htag tag hlanguage)
  | none =>
      cases hdatatype : l.datatypeUri with
      | some iri =>
          refine ⟨'^' :: '^' :: '<' :: (iri.toList ++ ['>']), by simp [toList_escapedContent], ?_⟩
          exact .typed (hiri iri hdatatype)
      | none => exact ⟨[], by simp [toList_escapedContent], .plain⟩

theorem text_writtenAs (htag : ∀ tag ∈ l.language, isLanguageTag tag = true)
    (hiri : ∀ iri ∈ l.datatypeUri, IsIri iri.toList) {lineEnds : Bool}
    (hlines : '\n' ∈ l.content.toList ∨ '\r' ∈ l.content.toList → lineEnds = true) :
    WrittenAs lineEnds l.text l.shown := by
  obtain ⟨suffix, htext, hsuffix⟩ := exists_suffix htag hiri
  exact ⟨_, suffix, htext, flatMap_escapedChar_quotes hlines, hsuffix⟩

theorem lineEnds_of_writtenAs {lineEnds : Bool} {k : LiteralKey} (h : WrittenAs lineEnds l.text k)
    (hlines : '\n' ∈ l.content.toList ∨ '\r' ∈ l.content.toList) : lineEnds = true := by
  obtain ⟨q, suffix, htext, hq, -⟩ := h
  have hwide : Quotes true (l.content.toList.flatMap escapedChar) l.content.toList :=
    flatMap_escapedChar_quotes fun _ => rfl
  have hbehind : ∃ rest, l.text.toList = '"' ::
      (l.content.toList.flatMap escapedChar ++ '"' :: rest) := by
    unfold text
    simp only [String.toList_append, toList_escapedContent]
    exact ⟨_, by simp; rfl⟩
  obtain ⟨rest, hrest⟩ := hbehind
  obtain ⟨rfl, -⟩ := hq.unique hwide (List.cons.inj (htext.symm.trans hrest)).2
  refine hq.lineEnds_eq_true ?_
  rwa [mem_flatMap_escapedChar (by decide), mem_flatMap_escapedChar (by decide)]

end Literal

/-- The text of a literal node, whose language and datatype can be written, is read as the
content, the language and, without a language, the datatype of the node and as nothing else, if
ends of lines are let stand for themselves between the quotes; it is a literal of N-Triples, and
then that of the node, exactly if its content has neither line feeds nor carriage returns. -/
theorem Node.text_reads_iff (id : Int) (l : Literal)
    (htag : ∀ tag ∈ l.language, isLanguageTag tag = true)
    (hiri : ∀ iri ∈ l.datatypeUri, IsIri iri.toList) (k : LiteralKey) :
    (WrittenAs true (⟨id, .literal l⟩ : Node).text k ↔ k = l.shown) ∧
      (WrittenAs false (⟨id, .literal l⟩ : Node).text k ↔
        k = l.shown ∧ '\n' ∉ l.content.toList ∧ '\r' ∉ l.content.toList) := by
  change (WrittenAs true l.text k ↔ _) ∧ (WrittenAs false l.text k ↔ _)
  have hwide : WrittenAs true l.text l.shown := Literal.text_writtenAs htag hiri fun _ => rfl
  refine ⟨⟨fun h => h.unique hwide, ?_⟩, ⟨fun h => ⟨h.unique hwide, ?_⟩, ?_⟩⟩
  · rintro rfl
    exact hwide
  · rw [← not_or]
    exact fun hlines => Bool.false_ne_true (Literal.lineEnds_of_writtenAs h hlines)
  · rintro ⟨rfl, hlines⟩
    exact Literal.text_writtenAs htag hiri fun h => absurd h (not_or.mpr hlines)

/-- A content with all that has to be escaped and a line feed, in a language and with the datatype
of texts in languages. -/
def twoLines : Literal :=
  ⟨.string "\\\"\n" (some "en-us"), some ⟨1, Vocabulary.langString⟩⟩

theorem Node.text_reads_iff_twoLines :
    (∀ tag ∈ twoLines.language, isLanguageTag tag = true) ∧
      (∀ iri ∈ twoLines.datatypeUri, IsIri iri.toList) ∧
        (WrittenAs true "\"\\\\\\\"\n\"@en-us" ⟨"\\\"\n", some "en-us", none⟩ ∧
          ∀ k, ¬WrittenAs false "\"\\\\\\\"\n\"@en-us" k) := by
  have htag : ∀ tag ∈ twoLines.language, isLanguageTag tag = true := by
    rintro tag ⟨⟩
    decide
  have hiri : ∀ iri ∈ twoLines.datatypeUri, IsIri iri.toList := by
    rintro iri ⟨⟩
    exact .of_all (by decide +kernel)
  have htext : (⟨2, .literal twoLines⟩ : Node).text = "\"\\\\\\\"\n\"@en-us" := by decide +kernel
  refine ⟨htag, hiri, ?_, fun k hk => ?_⟩
  · rw [← htext]
    exact (Node.text_reads_iff 2 twoLines htag hiri _).1.mpr rfl
  · rw [← htext] at hk
    exact ((Node.text_reads_iff 2 twoLines htag hiri k).2.mp hk).2.1 (by decide +kernel)

/-- A line feed in a content stays as it is, so that the text is no literal of N-Triples. -/
theorem Node.text_with_line_feed :
    (Node.string "a\nb" none none).text = "\"a\nb\"" ∧
      ∀ k, ¬WrittenAs false (Node.string "a\nb" none none).text k :=
  ⟨by decide +kernel, fun _ hk =>
    Bool.false_ne_true (Literal.lineEnds_of_writtenAs hk (.inl (by decide +kernel)))⟩

end QuadStore
