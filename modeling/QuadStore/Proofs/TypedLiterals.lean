import QuadStore.Proofs.ReadBack
import QuadStore.Proofs.TypedNodes

namespace QuadStore

open Transaction

variable {W : LiteralValue → String → Prop} {w w' : Workspace} {literal : LiteralValue × String}

/-- Whether a literal may be asked for: its language is in lower case, and what is stored for it
goes with its datatype. -/
structure Askable (W : LiteralValue → String → Prop)
    (literal : LiteralValue × String) : Prop where
  lowered : literal.1.Lowered
  fits : W (literal.1.kept literal.2).1 (literal.1.kept literal.2).2

/-- The literal that has to be asked for to store a node, if that is a literal
which is not stored yet. -/
def Node.newLiteral? (n : Node) : Option (LiteralValue × String) :=
  if n.isPersisted then none else n.literal?.map Literal.asked

namespace LiteralValue

variable {value : LiteralValue}

theorem Simple.legible (h : value.Simple) : value.Legible := by
  cases value with
  | string | int | boolean => exact ⟨rfl, trivial⟩
  | double | date => cases h

end LiteralValue

theorem Workspace.Refuses.of_works {e : StoreError} (hrefuses : w'.Refuses e) (h : Works w w') :
    w.Refuses e := by
  rcases h.lock with ⟨hwriting, hlocked⟩ | ⟨-, -, hwriting, -⟩
  · exact ⟨hrefuses.fault, hwriting ▸ hrefuses.idle, hlocked ▸ hrefuses.locked⟩
  · cases hrefuses.idle.symm.trans hwriting

namespace Action

variable {value : LiteralValue} {datatype : UriResource} {n : Node} {r : NodeRow}

theorem resolveValue_concludes (h : w.Typed W) (hsuits : w.view.Suits W ⟨value, some datatype⟩) :
    Concludes W w (fun _ => True) (fun m w' => w'.view.Reflects W m)
      (resolveValue value datatype w) := by
  refine (cached_concludes (Q := fun _ => True) (resolveValue_cached value datatype) h rfl ?_
    (fun _ _ _ => trivial) (fun m hm => ⟨(h.caches.literal _ m hm).2, trivial⟩) (fun r hrow => ?_)
    fun _ _ => trivial).imp (fun _ => id) fun m w' _ hm => hm.1
  · rintro l ⟨⟩
    exact hsuits
  · exact (nodeOfRow_concludes h (Tables.rowOf?_eq_some hrow).1).imp (fun _ => id)
      fun m w' _ hm => ⟨hm.1, trivial⟩

theorem request_concludes_of_number (h : w.Typed W) (hasked : Askable W literal)
    (hnumber : literal.1.isNaN = false)
    (hresolve : ∀ d, resolveLiteral literal.1 d = resolveValue literal.1 d) :
    Concludes W w (fun _ => True) (fun m w' => w'.view.Reflects W m) (request literal w) := by
  obtain ⟨value, datatype⟩ := literal
  obtain ⟨hlowered, hfits⟩ := hasked
  rw [LiteralValue.kept_of_number hnumber] at hfits
  refine ((createDatatype_concludes h datatype).imp (fun _ _ => trivial) fun _ _ _ => id).bind ?_
  rintro d w₁ - h₁ ⟨hheld, rfl⟩
  rw [hresolve]
  exact resolveValue_concludes h₁.typed ⟨hlowered, d, rfl, hfits, hheld⟩

theorem request_concludes (h : w.Typed W) (hasked : Askable W literal) :
    Concludes W w (fun _ => True) (fun m w' => w'.view.Reflects W m) (request literal w) := by
  obtain ⟨value, datatype⟩ := literal
  cases value with
  | string | int | boolean | date => exact request_concludes_of_number h hasked rfl fun _ => rfl
  | double x =>
      cases hx : x.isNaN with
      | false =>
          refine request_concludes_of_number h hasked hx fun d => ?_
          exact if_neg (ne_true_of_eq_false hx)
      | true =>
          -- What is no number is asked for as a text, which is what has to go with its datatype.
          have hfits := hasked.fits
          have hnan : (LiteralValue.double x).isNaN = true := hx
          rw [LiteralValue.kept_of_isNaN hnan] at hfits
          refine ((createDatatype_concludes h datatype).imp
            (fun _ _ => trivial) fun _ _ _ => id).bind ?_
          rintro d w₁ - h₁ -
          have htext : resolveLiteral (.double x) d =
              request (.string x.text none, Vocabulary.xsdString) := if_pos hx
          rw [htext]
          exact request_concludes_of_number h₁.typed ⟨rfl, hfits⟩ rfl fun _ => rfl

section

variable (hgood : w.Good) (h : w.Typed W) (hsuits : w.view.Suits W ⟨value, some datatype⟩)
variable (howns : value.OwnsText W datatype.uri) (hsimple : value.Simple)

include hgood h hsuits howns hsimple

theorem nodeOfRow_concludes_literal {E : StoreError → Prop} {id : Int}
    (hrow : w.view.rowOf? ⟨id, .literal ⟨value, some datatype⟩⟩ = some r) :
    Concludes W w E (fun m w' => w'.view.Reflects W m ∧ m.term = .literal ⟨value, some datatype⟩)
      (nodeOfRow r w) := by
  obtain ⟨_, hl, -, hheld⟩ := hsuits.datatype
  obtain rfl := Option.some.inj hl
  have hr := (Tables.rowOf?_eq_some hrow).1
  -- The row was written for the very literal, so it can be read: a simple
  -- value has all in its columns.
  obtain ⟨n, hrecords, hterm⟩ := h.view.records_of_rowOf? hheld howns hsimple hrow
  have hfits : w.view.Fits (fun _ => True) n := by
    intro l hl
    obtain rfl := Term.literal.inj (hterm.symm.trans hl)
    exact ⟨trivial, datatype, rfl, hheld⟩
  have hlegible : ∀ l, n.term = .literal l → l.value.Legible := by
    intro l hl
    obtain rfl := Term.literal.inj (hterm.symm.trans hl)
    exact hsimple.legible
  obtain ⟨m, w', hop, -⟩ :=
    nodeOfRow_of_records h.view.recorded hgood.sound hr hrecords hfits hlegible w ⟨hgood, rfl⟩
  obtain ⟨htypes, hm, hid⟩ := (nodeOfRow_concludes h hr).of_ok hop
  have hview := ((nodeOfRow_reads r).ok hop).view_eq
  rw [hop]
  refine .ok htypes ⟨hm, ?_⟩
  exact h.view.term_of_rowOf? hheld howns hsimple (hview ▸ hm) hrow hid

theorem resolveValue_concludes_literal :
    Concludes W w (fun e => w.Refuses e ∧ ¬w.view.HoldsValue W value datatype.uri)
      (fun m w' => w'.view.Reflects W m ∧ m.term = .literal ⟨value, some datatype⟩)
      (resolveValue value datatype w) := by
  obtain ⟨_, hl, -, hheld⟩ := hsuits.datatype
  obtain rfl := Option.some.inj hl
  refine cached_concludes (resolveValue_cached value datatype) h rfl ?_
    (fun hrow e hrefuses => ⟨hrefuses, fun hstored => h.view.rowOf?_ne_none hheld hstored _ hrow⟩)
    (fun m hm => ?_) (fun r hrow => nodeOfRow_concludes_literal hgood h hsuits howns hsimple hrow)
      fun _ => id
  · rintro l ⟨⟩
    exact hsuits
  · obtain ⟨hkey, hreflects⟩ := h.caches.literal _ m hm
    exact ⟨hreflects,
      h.view.term_of_key hheld howns hsimple (h.reflects hreflects) hkey hsuits.lowered⟩

end

/-- Who asks for a simple literal that owns its text gets it, or is refused because that has no
row and the lock is held elsewhere. -/
theorem request_concludes_literal {uri : String} (hgood : w.Good)
    (h : w.Typed W) (hsimple : value.Simple)
    (hlowered : value.Lowered) (hfits : W value uri) (howns : value.OwnsText W uri) :
    Concludes W w (fun e => w.Refuses e ∧ ¬w.view.HoldsValue W value uri)
      (fun m w' => w'.view.Reflects W m ∧ ∃ id, m.term = .literal ⟨value, some ⟨id, uri⟩⟩)
      (request (value, uri) w) := by
  have unheld (hmissing : ¬∃ id, w.view.HoldsNode ⟨id, .uri uri⟩) :
      ¬w.view.HoldsValue W value uri := by
    rintro ⟨r, d, hwritten, rfl⟩
    exact hmissing ⟨d.id, hwritten.held⟩
  refine ((createDatatype_concludes h uri).imp (fun e he => ⟨he.1, unheld he.2⟩)
    fun _ _ _ => id).bind ?_
  rintro d w₁ hop h₁ ⟨hheld, rfl⟩
  have hsilent := (createDatatype_silent _).ok hop
  have hresolve : resolveLiteral value d = resolveValue value d := by
    cases value with
    | string | int | boolean => rfl
    | double | date => cases hsimple
  rw [hresolve]
  refine (resolveValue_concludes_literal (hsilent.good hgood) h₁.typed
    ⟨hlowered, d, rfl, hfits, hheld⟩ howns
    hsimple).imp (fun e he =>
      ⟨he.1.of_works hsilent.toWorks, fun hstored => he.2 (hstored.mono h₁.nodes)⟩)
    fun m w' _ hm => ⟨hm.1, d.id, hm.2⟩

theorem request_typing (hasked : Askable W literal) : Keeps (Typing W) (request literal) :=
  fun _ h => (request_concludes h hasked).types

theorem createUri_typing (uri : String) : Keeps (Typing W) (createUri uri) :=
  fun _ h => (createUri_concludes h uri).types

theorem createBlank_typing (label : Option String) : Keeps (Typing W) (createBlank label) := by
  have some_typing : ∀ label : String, Keeps (Typing W) (createBlank (some label)) :=
    fun label _ h => (createBlank_concludes h label).types
  cases label with
  | some label => exact some_typing label
  | none => exact (keeps_of_beside freshLabel_beside).bind some_typing

theorem convert_typing (hasked : ∀ literal ∈ n.newLiteral?, Askable W literal) :
    Keeps (Typing W) (convert n) := by
  cases hnew : n.isPersisted with
  | true =>
      unfold convert
      rw [if_pos hnew]
      exact .pure _
  | false =>
      cases hterm : n.term with
      | literal l =>
          rw [convert_eq_request hnew hterm]
          exact request_typing
            (hasked l.asked (by simp [Node.newLiteral?, hnew, Node.literal?, hterm]))
      | uri uri =>
          unfold convert
          rw [if_neg (by simp [hnew]), hterm]
          exact createUri_typing uri
      | blank label =>
          unfold convert
          rw [if_neg (by simp [hnew]), hterm]
          exact createBlank_typing _

end Action

theorem Concludes.work {α : Type} {x : Transaction.Scope} {a : Action α} {E : StoreError → Prop}
    {Q : α → Workspace → Prop} (h : Concludes W x.work E Q (a x.work)) :
    (∃ v w, Transaction.work a x = .ok v { x with work := w } ∧ Q v w) ∨
      ∃ e w, Transaction.work a x = .error e { x with work := w } ∧ E e := by
  cases hop : a x.work with
  | ok v w => exact .inl ⟨v, w, work_of_ok hop, (h.of_ok hop).2⟩
  | error e w => exact .inr ⟨e, w, work_of_error hop, (h.of_error hop).2⟩

namespace Call

variable {c : Call}

/-- The new literals among the nodes of a statement that a call makes. -/
def brought : Call → List (LiteralValue × String)
  | .statement s p o c | .add s p o c | .addInferred s p o c =>
      ([s, p, o] ++ c.toList).filterMap Node.newLiteral?
  | _ => []

/-- The literals that a call asks for. -/
def asked (c : Call) : List (LiteralValue × String) :=
  c.brought ++ c.literal?.toList

end Call

namespace Transaction

variable {subject predicate object : Node} {context : Option Node}

theorem addInferred_typing (hasked : ∀ n ∈ [subject, predicate, object] ++ context.toList,
    ∀ literal ∈ n.newLiteral?, Askable W literal) :
    Keeps (WorkChanges (Typing W)) (addInferred subject predicate object context) := by
  intro x h
  refine addInferred_leaves (R := WorkChanges (Typing W))
    (work_changes (keeps_inferredContext Action.createUri_typing))
    (fun c w hknown => addMade_keeps_of (fun n hn => Action.convert_typing ?_)
      Action.createUri_typing _ _) h
  refine hknown.forall_mem hasked (fun uri hcreate literal hliteral => ?_) n hn
  have hterm : c.term = _ := ((Action.createUri_concludes h _).of_ok hcreate).2.2
  simp [Node.newLiteral?, Node.literal?, hterm] at hliteral

end Transaction

namespace Call

variable {c : Call} {x : Scope}

theorem typing (hends : c.ends = false) (hasked : ∀ literal ∈ c.asked, Askable W literal) :
    Keeps (WorkChanges (Typing W)) c.run := by
  rw [asked, List.forall_mem_append] at hasked
  obtain ⟨hbrought, hliteral⟩ := hasked
  have requested (literal : LiteralValue × String) (h : c.literal? = some literal) :
      Keeps (WorkChanges (Typing W)) (perform (Action.request literal)) :=
    perform_changes (Action.request_typing (hliteral literal (by simp [h])))
  cases hstores : c.storesNodes with
  | false => exact keeps_aside hends hstores
  | true =>
      cases c with
      | uri uri => exact perform_changes (Action.createUri_typing uri)
      | blank label => exact perform_changes (Action.createBlank_typing label)
      | literal value =>
          rw [run, Action.createLiteral_eq_request]
          exact requested _ rfl
      | string content language =>
          rw [run, Action.createString_eq_request]
          exact requested _ rfl
      | typed content datatype =>
          rw [run, Action.createTyped_eq_request]
          exact requested _ rfl
      | statement s p o c =>
          have hnodes := List.forall_mem_filterMap.mp hbrought
          exact perform_changes (Action.createStatement_keeps_of
            (fun n hn => Action.convert_typing (hnodes n hn)) Action.createUri_typing)
      | add s p o c =>
          have hnodes := List.forall_mem_filterMap.mp hbrought
          exact keeps_whileOpen
            (addMade_keeps_of (fun n hn => Action.convert_typing (hnodes n hn))
            Action.createUri_typing fun t => t)
      | addInferred s p o c => exact addInferred_typing (List.forall_mem_filterMap.mp hbrought)
      | _ => cases hstores

end Call
end QuadStore
