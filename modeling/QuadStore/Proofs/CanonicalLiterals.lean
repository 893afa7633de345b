import QuadStore.Proofs.CanonicalValues

namespace QuadStore

open Transaction
open LiteralValue (StandsFor StandAlike IsExact Canonical)

variable {content content' datatype : String} {value value' : LiteralValue}
  {w : Workspace} {n n' : Node}

namespace LiteralValue

theorem StandsFor.eq (h : StandsFor datatype content value)
    (h' : StandsFor datatype content value') :
    value = value' :=
  congrArg Prod.fst (h.ofText.symm.trans h'.ofText)

theorem ofText_spec (hdatatype : IsExact datatype ∨ datatype = Vocabulary.xsdString)
    (content : String) :
    (ofText content datatype).1.Simple ∧
      (ofText content datatype).1.Canonical (ofText content datatype).2 ∧
        (IsExact (ofText content datatype).2 ∨
          (ofText content datatype).2 = Vocabulary.xsdString) := by
  have htext : (LiteralValue.string content none).Simple ∧
      (LiteralValue.string content none).Canonical Vocabulary.xsdString ∧
        (IsExact Vocabulary.xsdString ∨ Vocabulary.xsdString = Vocabulary.xsdString) :=
    ⟨trivial, canonical_text content, .inr rfl⟩
  rcases hdatatype with hexact | rfl
  · rcases ofText_cases hexact content with ⟨value, hvalue, hof⟩ | ⟨-, hof⟩ <;> rw [hof]
    · have hsimple : value.Simple := by cases hvalue <;> trivial
      exact ⟨hsimple, (canonical_of_read ((read_eq_some_iff hexact).mpr hvalue)).1, .inl hexact⟩
    · exact htext
  · exact htext

theorem ofText_content (hexact : IsExact datatype) (content : String) :
    ofText ((ofText content datatype).1.content (some (ofText content datatype).2))
      (ofText content datatype).2 = ofText content datatype := by
  rcases ofText_cases hexact content with ⟨value, hvalue, hof⟩ | ⟨-, hof⟩ <;> rw [hof]
  · exact hvalue.canonical.ofText
  · exact ofText_xsdString content

end LiteralValue

theorem Node.content?_of_term {d : UriResource} (hterm : n.term = .literal ⟨value, some d⟩) :
    n.content? = some (value.content (some d.uri)) ∧ n.datatypeUri? = some d.uri := by
  rw [Node.content?, Node.datatypeUri?, Node.datatype?, Node.literal?, hterm]
  exact ⟨rfl, rfl⟩

/-- Whether a node is the literal for a text: the value that the text stands for, written in one
way under the datatype, or the text itself when it stands for none. -/
structure Node.CanonicalFor (n : Node) (content datatype : String) : Prop where
  int : ∀ v, n.int? = some v ∧ n.content? = some (toString v) ∧ n.datatypeUri? = some datatype ↔
    StandsFor datatype content (.int v)
  boolean : ∀ b, n.boolean? = some b ∧ n.content? = some (toString b) ∧
    n.datatypeUri? = some datatype ↔
    StandsFor datatype content (.boolean b)
  text : n.kind = .string ∧ n.content? = some content ∧ n.language? = none ∧
      n.datatypeUri? = some Vocabulary.xsdString ↔ ¬∃ value, StandsFor datatype content value

theorem Node.canonicalFor (hexact : IsExact datatype)
    (hterm : ∃ id, n.term = .literal ⟨(LiteralValue.ofText content datatype).1,
      some ⟨id, (LiteralValue.ofText content datatype).2⟩⟩) :
    n.CanonicalFor content datatype := by
  obtain ⟨_, _⟩ := n
  obtain ⟨id, rfl⟩ := hterm
  rcases LiteralValue.ofText_cases hexact content with
    ⟨value, hvalue, hof⟩ | ⟨hnone, hof⟩ <;> rw [hof]
  · have other {value' : LiteralValue} (hne : value ≠ value') :
        ¬StandsFor datatype content value' :=
      fun hvalue' => hne (hvalue.eq hvalue')
    have some_value : ¬¬∃ value, StandsFor datatype content value := not_not.mpr ⟨value, hvalue⟩
    cases value with
    | int v =>
        refine ⟨fun v' => ⟨?_, fun hv' => ?_⟩,
          fun b => iff_of_false (by rintro ⟨⟨⟩, -⟩) (other (by rintro ⟨⟩)),
          iff_of_false (by rintro ⟨⟨⟩, -⟩) some_value⟩
        · rintro ⟨⟨⟩, -⟩
          exact hvalue
        · obtain rfl := LiteralValue.int.inj (hvalue.eq hv')
          exact ⟨rfl, congrArg some (Text.intText_eq_toString v), rfl⟩
    | boolean b =>
        refine ⟨fun v => iff_of_false (by rintro ⟨⟨⟩, -⟩) (other (by rintro ⟨⟩)),
          fun b' => ⟨?_, fun hb' => ?_⟩, iff_of_false (by rintro ⟨⟨⟩, -⟩) some_value⟩
        · rintro ⟨⟨⟩, -⟩
          exact hvalue
        · obtain rfl := LiteralValue.boolean.inj (hvalue.eq hb')
          cases b <;> exact ⟨rfl, rfl, rfl⟩
    | string | double | date => cases hvalue
  · exact ⟨fun v => iff_of_false (by rintro ⟨⟨⟩, -⟩) fun hv => hnone ⟨_, hv⟩,
      fun b => iff_of_false (by rintro ⟨⟨⟩, -⟩) fun hb => hnone ⟨_, hb⟩,
      iff_of_true ⟨rfl, rfl, rfl, rfl⟩ hnone⟩

namespace Action

theorem createTyped_concludes (hgood : w.Good) (h : w.Typed Canonical)
    (hdatatype : IsExact datatype ∨ datatype = Vocabulary.xsdString) (content : String) :
    Concludes Canonical w
      (fun e => w.Refuses e ∧
        ¬w.view.HoldsValue Canonical (LiteralValue.ofText content datatype).1
        (LiteralValue.ofText content datatype).2)
      (fun m w' => w'.view.Reflects Canonical m ∧ ∃ id, m.term =
        .literal ⟨(LiteralValue.ofText content datatype).1,
          some ⟨id, (LiteralValue.ofText content datatype).2⟩⟩)
      (createTyped content datatype w) := by
  obtain ⟨hsimple, hcanonical, hdatatype'⟩ := LiteralValue.ofText_spec hdatatype content
  rw [createTyped_eq_request]
  exact request_concludes_literal hgood h hsimple (Call.lowered_of_literal? (c :=
    .typed content datatype) rfl)
    hcanonical (LiteralValue.ownsText_canonical hcanonical hdatatype')

section

variable {datatype' : String} {id : Int}
variable (hgood : w.Good) (h : w.Typed Canonical) (hn : w.view.Reflects Canonical n)
variable (hdatatype : IsExact datatype ∨ datatype = Vocabulary.xsdString)
variable (hdatatype' : IsExact datatype' ∨ datatype' = Vocabulary.xsdString)
variable (hterm : n.term = .literal ⟨(LiteralValue.ofText content datatype).1,
  some ⟨id, (LiteralValue.ofText content datatype).2⟩⟩)

include hgood h hn hdatatype hdatatype' hterm

theorem createTyped_id_eq_iff {w' : Workspace}
    (hop : createTyped content' datatype' w = .ok n' w') :
    n.id = n'.id ↔ LiteralValue.ofText content datatype =
      LiteralValue.ofText content' datatype' := by
  obtain ⟨htypes, hn', id', hterm'⟩ :=
    (createTyped_concludes hgood h hdatatype' content').of_ok hop
  have hsimple := (LiteralValue.ofText_spec hdatatype content).1
  have hsimple' := (LiteralValue.ofText_spec hdatatype' content').1
  rw [htypes.typed.view.id_eq_iff (hn.mono htypes.nodes) hn' hterm hsimple hterm' hsimple',
    Prod.ext_iff]

theorem createTyped_again
    (hsame : LiteralValue.ofText content datatype = LiteralValue.ofText content' datatype') :
    ∃ n' w', createTyped content' datatype' w = .ok n' w' ∧ n.id = n'.id := by
  cases hop : createTyped content' datatype' w with
  | ok n' w' =>
      exact ⟨n', w', rfl,
        (createTyped_id_eq_iff hgood h hn hdatatype hdatatype' hterm hop).mpr hsame⟩
  | error e w' =>
      have hstored := Tables.Typed.holdsValue_of_reflects hn hterm
        (LiteralValue.ofText_spec hdatatype content).1
      rw [hsame] at hstored
      exact absurd hstored ((createTyped_concludes hgood h hdatatype' content').of_error hop).2.2

end

end Action

theorem Call.run_typed {x : Scope} (hopen : x.closed = false) :
    (Call.typed content datatype).run x = work (Action.createTyped content datatype) x :=
  whileOpen_of_open hopen

namespace OpenStore

/-- In a store that only literals have been made in that were asked for, on files that are opened
again and again: a request for a text of a datatype for integers or truth values is answered with
the literal for that text, unless the lock is held elsewhere. The same transaction gets the same
node for another text exactly when both stand alike, and it gets it again for the text and the
datatype that the node has, whatever happens in between. -/
theorem typed_literals_canonical (registryFile : RegistryFile)
    {changes : List FileChange} {s : OpenStore}
    (hrun : (Files.closed {} registryFile).Run changes (.opened s))
    (hbrought : ∀ change ∈ changes, change.BringsNone) {i : Nat}
    {x : Scope} (hx : s.scope? i = some x)
    (hopen : x.closed = false) (hexact : IsExact datatype) (content : String) :
    ((∃ (n : Node) (y : Scope), (Call.typed content datatype).run x = .ok n y ∧
        n.CanonicalFor content datatype) ∨
      ∃ y, (Call.typed content datatype).run x = .error (.data .locked) y ∧
        x.work.conn.writing = false ∧ x.work.database.locked = true) ∧
    ∀ (n : Node) y, (Call.typed content datatype).run x = .ok n y →
    ∀ ms s', (s.put i y).Happenings ms s' →
      (∀ m ∈ ms, (FileChange.work m).BringsNone) → ∀ z, s'.scope? i = some z → z.closed = false →
        (∀ content' (n' : Node) z', (Call.typed content' datatype).run z = .ok n' z' →
          (n.id = n'.id ↔ StandAlike datatype content content')) ∧
        ∀ text uri, n.content? = some text → n.datatypeUri? = some uri →
          ∃ (n' : Node) (z' : Scope), (Call.typed text uri).run z = .ok n' z' ∧ n.id = n'.id := by
  obtain ⟨hgood, htyped⟩ : s.Good ∧ s.Typed Canonical :=
    (Files.typed_empty registryFile).run hrun fun change hchange =>
      (hbrought change hchange).askable
  have hends := Action.createTyped_concludes (hgood.scopes i x hx).work (htyped.scopes i x hx)
    (.inl hexact) content
  constructor
  · rw [Call.run_typed hopen]
    rcases hends.work with ⟨n, w, hop, -, hterm⟩ | ⟨e, w, hop, ⟨rfl, hidle, hlocked⟩, -⟩
    · exact .inl ⟨n, _, hop, n.canonicalFor hexact hterm⟩
    · exact .inr ⟨_, hop, hidle, hlocked⟩
  · intro n y hanswer ms s' hms hlater z hz hzopen
    have hstep := Step.call (Call.typed content datatype) hx
    rw [hanswer] at hstep
    rw [Call.run_typed hopen] at hanswer
    obtain ⟨w, hop, rfl⟩ := work_eq_ok_iff.mp hanswer
    obtain ⟨-, hreflects, id, hterm⟩ := hends.of_ok hop
    have hgood₁ := hgood.step hstep
    have htyped₁ := htyped.happens hgood (.step hstep)
      (FileChange.BringsNone.askable (by rintro c ⟨⟩; rfl))
    obtain ⟨htyped', hgood'⟩ := htyped₁.happenings hgood₁ hms fun m hm => (hlater m hm).askable
    obtain ⟨z₀, hz₀, hsees⟩ := hgood₁.sees_happenings hms (scope?_put_self hx)
    obtain rfl := Option.some.inj (hz.symm.trans hz₀)
    -- What the first request has got is in a row that the transaction still sees.
    have hn : z.work.view.Reflects Canonical n := hreflects.mono (hsees hzopen).2
    have hwork := (hgood'.scopes i z hz).work
    have hvalues := htyped'.scopes i z hz
    constructor
    · intro content' n' z' hanswer'
      rw [Call.run_typed hzopen] at hanswer'
      obtain ⟨w', hop', rfl⟩ := work_eq_ok_iff.mp hanswer'
      rw [Action.createTyped_id_eq_iff hwork hvalues hn (.inl hexact) (.inl hexact) hterm hop',
        LiteralValue.ofText_eq_iff hexact]
    · intro text uri htext huri
      obtain ⟨hcontent, hdatatype⟩ := Node.content?_of_term hterm
      obtain rfl := Option.some.inj (hcontent.symm.trans htext)
      obtain rfl := Option.some.inj (hdatatype.symm.trans huri)
      obtain ⟨n', w', hop', hid⟩ := Action.createTyped_again hwork hvalues hn (.inl hexact)
        (LiteralValue.ofText_spec (.inl hexact) content).2.2 hterm
        (LiteralValue.ofText_content hexact content).symm
      exact ⟨n', _, (Call.run_typed hzopen).trans (work_of_ok hop'), hid⟩

/-- A numeral with a sign, a zero and blanks is the integer that it denotes,
which is got again as such. -/
theorem padded_numeral_is_integer :
    ∃ x, (opened {} {} [] "w").begin.scope? 0 = some x ∧
      ∃ (n : Node) (y : Scope), (Call.typed " +05 " Vocabulary.xsdInteger).run x = .ok n y ∧
        n.int? = some 5 ∧ n.content? = some "5" ∧
          ∃ (n' : Node) (z : Scope), (Call.typed "5" Vocabulary.xsdInteger).run y = .ok n' z ∧
            n.id = n'.id := by
  let x := ((opened {} {} [] "w").begin.scope? 0).get (by decide +kernel)
  have hx : (opened {} {} [] "w").begin.scope? 0 = some x := (Option.some_get _).symm
  have hrun := Files.Run.nil (p := .closed {} []) |>.snoc (.opening {} "w") |>.events
    (Run.nil |>.snoc .begin)
  obtain ⟨⟨n, y, hop, hn⟩ | ⟨-, -, -, hlocked⟩, hlater⟩ := typed_literals_canonical [] hrun
    (by simp [FileChange.BringsNone, FileChange.call?, Event.call?]) hx (by decide +kernel)
    (.inl rfl : IsExact Vocabulary.xsdInteger) " +05 "
  · have hfive : StandsFor Vocabulary.xsdInteger " +05 " (.int 5) :=
      (LiteralValue.read_eq_some_iff (.inl rfl)).mp (by decide +kernel)
    obtain ⟨hint, hcontent, hdatatype⟩ := (hn.int 5).mpr hfive
    have hopen : y.closed = false := by
      have hy : y = finalState ((Call.typed " +05 " Vocabulary.xsdInteger).run x) := by
        rw [hop]; rfl
      rw [hy]
      decide +kernel
    have hagain := (hlater n y hop [] _ .nil (by simp) y (scope?_put_self hx) hopen).2
    exact ⟨x, hx, n, y, hop, hint, hcontent, hagain _ _ hcontent hdatatype⟩
  · exact absurd hlocked (by decide +kernel)

end OpenStore
end QuadStore
