import QuadStore.Proofs.CanonicalValues

namespace QuadStore

open Transaction

variable {value value' : LiteralValue} {datatype : String}

namespace LiteralValue

/-- Whether a value under a datatype is not taken for another one that is asked for,
because it is of the same kind, with no other language, or has another text. Texts of
numbers and moments may change. -/
def Spares (value value' : LiteralValue) (datatype : String) : Prop :=
  datatype = value.defaultDatatype →
    value'.kind = value.kind ∧
        (value'.language.getD "" = value.language.getD "" → value'.language = value.language) ∨
      value'.Simple ∧ value'.content (some datatype) ≠ value.content (some datatype)

theorem ownsText_spares (value : LiteralValue) :
    value.OwnsText value.Spares value.defaultDatatype :=
  fun _ h => h rfl

theorem Canonical.spares (h : value'.Canonical datatype) (hsimple : value.Simple)
    (hlanguage : value.language ≠ some "") : value.Spares value' datatype := by
  rintro rfl
  left
  cases value with
  | string content language =>
      cases language with
      | none =>
          obtain ⟨hkind, hnone⟩ := h.string rfl
          exact ⟨hkind, fun _ => hnone⟩
      | some tag =>
          -- The lookup takes no language and the empty one for the same.
          refine ⟨h.langString rfl, fun hsame => ?_⟩
          have htag : tag ≠ "" := fun htag => hlanguage (congrArg some htag)
          cases hlanguage' : value'.language with
          | none =>
              rw [hlanguage'] at hsame
              exact absurd hsame.symm htag
          | some tag' =>
              rw [hlanguage'] at hsame
              exact congrArg some hsame
  | int =>
      have hkind := h.int rfl
      exact ⟨hkind, fun _ => language_of_kind (by rw [hkind]; decide)⟩
  | boolean =>
      have hkind := h.boolean rfl
      exact ⟨hkind, fun _ => language_of_kind (by rw [hkind]; decide)⟩
  | double | date => cases hsimple

end LiteralValue

theorem Call.askable_of_brought {c : Call} (hsimple : value.Simple)
    (hlanguage : value.language ≠ some "")
    (hbrought : ∀ literal ∈ c.brought, Askable value.Spares literal) :
    ∀ literal ∈ c.asked, Askable value.Spares literal := by
  intro literal hliteral
  rcases List.mem_append.mp hliteral with hliteral | hliteral
  · exact hbrought literal hliteral
  · obtain ⟨hlowered, hcanonical⟩ := askable_of_literal? (Option.mem_toList.mp hliteral)
    exact ⟨hlowered, hcanonical.spares hsimple hlanguage⟩

namespace OpenStore

/-- On files that are opened again and again: who asks for a text, an integer or a truth
value gets just that, under the datatype that fits it, or is refused because the lock is
held elsewhere. All literals that statements brought have to spare that value, and its
language must not be empty. -/
theorem literal_keeps_value (registryFile : RegistryFile)
    {changes : List FileChange} {s : OpenStore}
    (hrun : (Files.closed {} registryFile).Run changes (.opened s)) (hsimple : value.Simple)
    (hlanguage : value.lowered.language ≠ some "")
    (hbrought : ∀ change ∈ changes, ∀ c ∈ change.call?, ∀ literal ∈ c.brought,
      Askable value.lowered.Spares literal)
    {i : Nat} {x : Scope} (hx : s.scope? i = some x) (hopen : x.closed = false) :
    (∃ (n : Node) (y : Scope) (id : Int), (Call.literal value).run x = .ok n y ∧
      n.term = .literal ⟨value.lowered, some ⟨id, value.defaultDatatype⟩⟩) ∨
    ∃ y, (Call.literal value).run x = .error (.data .locked) y ∧
      x.work.conn.writing = false ∧ x.work.database.locked = true := by
  have hsimple' : value.lowered.Simple := by cases value <;> exact hsimple
  obtain ⟨hgood, htyped⟩ : s.Good ∧ s.Typed value.lowered.Spares :=
    (Files.typed_empty registryFile).run hrun fun change hchange c hc =>
      Call.askable_of_brought hsimple' hlanguage (hbrought change hchange c hc)
  have hasked : (Call.literal value).literal? = some (value.lowered, value.defaultDatatype) := rfl
  have hrequest : (Call.literal value).run x =
      work (Action.request (value.lowered, value.defaultDatatype)) x := by
    rw [Call.run, Action.createLiteral_eq_request]
    exact whileOpen_of_open hopen
  have hfits : value.lowered.Spares value.lowered value.defaultDatatype :=
    fun _ => .inl ⟨rfl, fun _ => rfl⟩
  have howns := value.lowered.ownsText_spares
  rw [value.defaultDatatype_lowered] at howns
  rw [hrequest]
  rcases (Action.request_concludes_literal (hgood.scopes i x hx).work
    (htyped.scopes i x hx) hsimple' (Call.lowered_of_literal? hasked) hfits howns).work with
    ⟨n, w, hop, -, id, hterm⟩ | ⟨e, w, hop, ⟨rfl, hidle, hlocked⟩, -⟩
  · exact .inl ⟨n, _, id, hop, hterm⟩
  · exact .inr ⟨_, hop, hidle, hlocked⟩

/-- A statement brings "6" as a text under the datatype of integers; that spares 5. -/
theorem integer_spared :
    let six : Node := .string "6" none (some ⟨transientId, Vocabulary.xsdInteger⟩)
    let s := (opened {} {} [] "w").begin.after 0 (.add (.uri "urn:a") (.uri "urn:a") six none)
    ∃ x, s.scope? 0 = some x ∧ ∃ (n : Node) (y : Scope) (id : Int),
      (Call.literal (.int 5)).run x = .ok n y ∧
      n.term = .literal ⟨.int 5, some ⟨id, Vocabulary.xsdInteger⟩⟩ := by
  intro six s
  let x := (s.scope? 0).get (by decide +kernel)
  have hx : s.scope? 0 = some x := (Option.some_get _).symm
  have hrun := Files.Run.nil (p := .closed {} []) |>.snoc (.opening {} "w") |>.events
    (Run.nil |>.snoc .begin |>.call 0 (.add (.uri "urn:a") (.uri "urn:a") six none))
  have hsix : ∀ literal ∈ (Call.add (.uri "urn:a") (.uri "urn:a") six none).brought,
      Askable (LiteralValue.int 5).Spares literal := by
    have hbrought : (Call.add (.uri "urn:a") (.uri "urn:a") six none).brought =
        [(.string "6" none, Vocabulary.xsdInteger)] := by decide +kernel
    rw [hbrought, List.forall_mem_singleton]
    exact ⟨rfl, fun _ => .inr ⟨trivial, by decide +kernel⟩⟩
  have hbrought : ∀ change ∈ [] ++ [FileChange.opening {} {} [] "w"] ++ ([] ++ [Event.begin] ++
      (opened {} {} [] "w").begin.noted 0 (.add (.uri "urn:a") (.uri "urn:a") six none)).map
        (fun e => FileChange.work (.step e)),
      ∀ c ∈ change.call?, ∀ literal ∈ c.brought, Askable (LiteralValue.int 5).Spares literal := by
    simp only [List.forall_mem_append, List.forall_mem_map,
      List.nil_append, List.forall_mem_singleton]
    refine ⟨by rintro c ⟨⟩, by rintro c ⟨⟩, forall_mem_noted fun _ _ _ => ?_⟩
    rintro c ⟨⟩
    exact hsix
  have hsimple : (LiteralValue.int 5).Simple := trivial
  rcases literal_keeps_value [] hrun hsimple (by rintro ⟨⟩) hbrought hx (by decide +kernel) with
    ⟨n, y, id, hop, hterm⟩ | ⟨-, -, hidle, -⟩
  · exact ⟨x, hx, n, y, id, hop, hterm⟩
  · exact absurd hidle (by decide +kernel)

/-- A statement brings "5" as a text under the datatype of integers. Who asks for the integer 5
then gets that text, as both have the same key. -/
theorem integer_answered_as_text :
    let five : Node := .string "5" none (some ⟨transientId, Vocabulary.xsdInteger⟩)
    let s := (opened {} {} [] "w").begin.after 0 (.add (.uri "urn:a") (.uri "urn:a") five none)
    ∃ log, (opened {} {} [] "w").Run log s ∧
      ((s.scope? 0).bind fun x => (perform (Action.createLiteral (.int 5))).run' x) =
        some ⟨3, .literal ⟨.string "5" none, some ⟨2, Vocabulary.xsdInteger⟩⟩⟩ := by
  intro five s
  have hrun := Run.nil (s := opened {} {} [] "w") |>.snoc .begin
    |>.call 0 (.add (.uri "urn:a") (.uri "urn:a") five none)
  exact ⟨_, hrun, by decide +kernel⟩

end OpenStore
end QuadStore
