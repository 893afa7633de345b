import Mathlib.Data.List.Basic
import QuadStore.Query.Render
import QuadStore.Query.Run

namespace QuadStore

/-- The number on the right side of an equation, if there is one. -/
def Condition.number? (c : Condition) : Option Int :=
  match c.right with
  | .param value => some value
  | .column _ => none

theorem params_append (ps qs : List Piece) : params (ps ++ qs) = params ps ++ params qs :=
  List.filterMap_append

@[simp] theorem params_text (text : String) (ps : List Piece) :
    params (.text text :: ps) = params ps := rfl

@[simp] theorem params_param (value : Int) (ps : List Piece) :
    params (.param value :: ps) = value :: params ps := rfl

namespace Dialect

variable {d : Dialect}

theorem fill_append (d : Dialect) (next : Nat) (ps qs : List Piece) :
    d.fill next (ps ++ qs) = d.fill next ps ++ d.fill (next + (params ps).length) qs := by
  induction ps generalizing next with
  | nil => rfl
  | cons p ps ih =>
      cases p with
      | text text => simp [fill, ih]
      | param value =>
          simp only [List.cons_append, fill, ih, params_param, List.length_cons]
          rw [Nat.add_assoc, Nat.add_comm 1]

/-- A text with placeholders from number `next` on: texts before equations with numbers, each with
its equation, and the text after the last number. -/
def numbered (d : Dialect) (next : Nat) (parts : List (String × Condition))
    (last : String) : String :=
  String.join ((parts.zipIdx next).map fun (part, number) =>
    part.1 ++ d.column part.2.left ++ " = " ++ d.placeholder number) ++ last

/-- Whether pieces have gaps for the numbers of the given equations, in this order, each after the
left side of its equation, however the gaps are filled. -/
def GapsFor (quote : String → String) (ps : List Piece) (equations : List Condition) : Prop :=
  params ps = equations.filterMap Condition.number? ∧
    ∃ parts last, parts.map Prod.snd = equations.filter (·.number?.isSome) ∧
      ∀ placeholder next, String.join (fill ⟨placeholder, quote⟩ next ps) =
        numbered ⟨placeholder, quote⟩ next parts last

namespace GapsFor

variable {quote : String → String}

theorem nil : GapsFor quote [] [] :=
  ⟨rfl, [], "", rfl, fun _ _ => rfl⟩

theorem text (text : String) : GapsFor quote [.text text] [] := by
  refine ⟨rfl, [], text, rfl, fun placeholder next => ?_⟩
  simp [fill, numbered]

theorem append {ps qs : List Piece} {cs es : List Condition} (h : GapsFor quote ps cs)
    (h' : GapsFor quote qs es) : GapsFor quote (ps ++ qs) (cs ++ es) := by
  obtain ⟨hparams, parts, last, hparts, htext⟩ := h
  obtain ⟨hparams', parts', last', hparts', htext'⟩ := h'
  have hcount : (params ps).length = parts.length := by
    rw [← List.length_map Prod.snd, hparts, hparams, List.length_filterMap_eq_countP,
      List.countP_eq_length_filter]
  refine ⟨by rw [params_append, List.filterMap_append, hparams, hparams'], ?_⟩
  cases parts' with
  | nil =>
      refine ⟨parts, last ++ last', ?_, ?_⟩
      · rw [List.filter_append, ← hparts', List.map_nil, List.append_nil]
        exact hparts
      · intro placeholder next
        rw [fill_append, String.join_append, htext, htext']
        simp [numbered, String.append_assoc]
  | cons part rest =>
      refine ⟨parts ++ (last ++ part.1, part.2) :: rest, last', ?_, ?_⟩
      · simpa [hparts] using hparts'
      · intro placeholder next
        rw [fill_append, String.join_append, htext, htext', hcount]
        simp [numbered, List.zipIdx_append, String.append_assoc]

theorem flatMap {α : Type} {f : α → List Piece} {g : α → List Condition} {xs : List α}
    (h : ∀ x ∈ xs, GapsFor quote (f x) (g x)) : GapsFor quote (xs.flatMap f) (xs.flatMap g) := by
  induction xs with
  | nil => exact nil
  | cons x xs ih => exact (h x (by simp)).append (ih fun y hy => h y (by simp [hy]))

theorem joinWith {α : Type} {f : α → List Piece} {g : α → List Condition} (separator : String)
    {xs : List α} (h : ∀ x ∈ xs, GapsFor quote (f x) (g x)) :
    GapsFor quote (joinWith (.text separator) (xs.map f)) (xs.flatMap g) := by
  induction xs with
  | nil => exact nil
  | cons x xs ih =>
      have hfirst := h x (by simp)
      have hrest := ih fun y hy => h y (by simp [hy])
      cases xs with
      | nil => simpa [QuadStore.joinWith] using hfirst
      | cons y ys => exact hfirst.append ((text separator).append hrest)

theorem optional {ps : List Piece} {cs : List Condition} {p : Prop} [Decidable p]
    (hnone : p → cs = []) (h : GapsFor quote ps cs) :
    GapsFor quote (if p then [] else ps) cs := by
  split
  · rw [hnone ‹_›]
    exact nil
  · exact h

end GapsFor

theorem gapsFor_condition (d : Dialect) (c : Condition) :
    GapsFor d.quote (d.condition c) [c] := by
  obtain ⟨left, right⟩ := c
  cases right with
  | column right =>
      exact GapsFor.text _
  | param value =>
      refine ⟨rfl, [("", ⟨left, .param value⟩)], "", rfl, fun placeholder next => ?_⟩
      simp [condition, fill, numbered, column, String.append_assoc]

theorem gapsFor_conditions (d : Dialect) (separator : String) (cs : List Condition) :
    GapsFor d.quote (d.conditions separator cs) cs := by
  have h := GapsFor.joinWith (g := fun c => [c]) separator fun c (_ : c ∈ cs) =>
    d.gapsFor_condition c
  rwa [List.flatMap_singleton'] at h

theorem gapsFor_source (d : Dialect) (s : TableRef) :
    GapsFor d.quote (d.source s) (s.joins.flatMap Join.on) := by
  refine (GapsFor.text _).append (GapsFor.flatMap fun j _ => ?_)
  exact (GapsFor.text _).append (d.gapsFor_conditions " AND " j.on)

theorem gapsFor_texts {α : Type} (quote : String → String) (separator : String) (f : α → String)
    (xs : List α) :
    GapsFor quote (joinWith (.text separator) (xs.map fun x => [.text (f x)])) [] := by
  have hall : ∀ x ∈ xs, GapsFor quote [.text (f x)] [] := fun x _ => GapsFor.text (f x)
  have h := GapsFor.joinWith separator hall
  rwa [List.flatMap_eq_nil_iff.mpr fun _ _ => rfl] at h

theorem pieces_eq (d : Dialect) (q : SelectQuery) :
    d.pieces q = .text "SELECT " :: ((if q.projections.isEmpty then [.text "1"]
        else joinWith (.text ", ") (q.projections.map d.projection)) ++
      .text "\nFROM " :: (joinWith (.text ",\n     ") (q.sources.map d.source) ++
        ((if q.conditions.isEmpty then []
          else .text "\nWHERE " :: d.conditions "\n  AND " q.conditions) ++
        ((if q.orderBy.isEmpty then []
          else .text "\nORDER BY " :: joinWith (.text ", ") (q.orderBy.map d.orderTerm)) ++
        q.limit.elim [] fun n => [.text ("\nLIMIT " ++ Text.natText n)])))) := by
  cases hlimit : q.limit <;> simp [pieces, hlimit]

theorem gapsFor_pieces (d : Dialect) (q : SelectQuery) :
    GapsFor d.quote (d.pieces q) q.equations := by
  have hprojections : GapsFor d.quote (if q.projections.isEmpty then [.text "1"]
      else joinWith (.text ", ") (q.projections.map d.projection)) [] := by
    split
    · exact GapsFor.text "1"
    · exact gapsFor_texts d.quote ", " _ q.projections
  have hsources := GapsFor.joinWith ",\n     " fun s (_ : s ∈ q.sources) => d.gapsFor_source s
  have hconditions := ((GapsFor.text "\nWHERE ").append
    (d.gapsFor_conditions "\n  AND " q.conditions)).optional
      (List.isEmpty_iff (l := q.conditions)).mp
  have horder : GapsFor d.quote (if q.orderBy.isEmpty then []
      else .text "\nORDER BY " :: joinWith (.text ", ") (q.orderBy.map d.orderTerm)) [] :=
    ((GapsFor.text "\nORDER BY ").append (gapsFor_texts d.quote ", " _ q.orderBy)).optional
      fun _ => rfl
  have hlimit : GapsFor d.quote
      (q.limit.elim [] fun n => [.text ("\nLIMIT " ++ Text.natText n)]) [] := by
    cases q.limit with
    | none => exact GapsFor.nil
    | some n => exact GapsFor.text _
  have h := (GapsFor.text "SELECT ").append (hprojections.append ((GapsFor.text "\nFROM ").append
    (hsources.append (hconditions.append (horder.append hlimit)))))
  rw [pieces_eq, SelectQuery.equations]
  simpa only [List.nil_append, List.append_nil, List.cons_append] using h

/-- Every parameter of a text is the number of an equation, and the placeholder with its number
stands after the left side of that equation. -/
theorem exists_render_eq (quote : String → String) (q : SelectQuery) :
    ∃ parts last, parts.map Prod.snd = q.equations.filter (·.number?.isSome) ∧
      ∀ placeholder, render ⟨placeholder, quote⟩ q =
        (numbered ⟨placeholder, quote⟩ 1 parts last,
          q.equations.filterMap Condition.number?) := by
  obtain ⟨hparams, parts, last, hparts, htext⟩ := gapsFor_pieces ⟨fun _ => "", quote⟩ q
  refine ⟨parts, last, hparts, fun placeholder => ?_⟩
  exact Prod.ext (htext placeholder 1) hparams

end Dialect
end QuadStore
