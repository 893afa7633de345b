import QuadStore.Proofs.LegibleRows
import QuadStore.Proofs.RecordedNodes

namespace QuadStore

namespace LiteralValue

/-- Whether a value is the same when it is read back from its row, and can be read back: a
floating point number is a number, and a moment is one that a column can hold. -/
def Readable : LiteralValue → Prop
  | .double x => x.isNaN = false ∧ (x.isZero = true → x.negative = false)
  | .date m => m.InColumn
  | value => value.Lasts

instance : DecidablePred Readable
  | .string content language =>
      inferInstanceAs (Decidable (LiteralValue.string content language).Lasts)
  | .int _ | .boolean _ => inferInstanceAs (Decidable True)
  | .double x =>
      inferInstanceAs (Decidable (x.isNaN = false ∧ (x.isZero = true → x.negative = false)))
  | .date m => inferInstanceAs (Decidable m.InColumn)

theorem Readable.lasts {value : LiteralValue} (h : value.Readable) : value.Lasts := by
  cases value with
  | string | int | boolean => exact h
  | double | date => exact h.2

theorem Readable.isNumber {value : LiteralValue} (h : value.Readable) : value.isNaN = false := by
  cases value with
  | string | int | boolean | date => rfl
  | double => exact h.1

theorem Readable.legible {value : LiteralValue} (h : value.Readable) : value.Legible := by
  refine ⟨h.isNumber, ?_⟩
  cases value with
  | string | int | boolean | double => trivial
  | date => exact h.1

instance : Lasting Readable :=
  ⟨Readable.lasts, id⟩

end LiteralValue

namespace Workspace

/-- Whether a workspace shows the given tables and all of their rows of nodes can be read. -/
structure Offers (t : Tables) (w : Workspace) : Prop where
  good : w.Good
  recorded : w.Recorded LiteralValue.Readable
  view : w.view = t

theorem Offers.sees {t : Tables} {w : Workspace} (h : w.Offers t) : w.Sees t :=
  ⟨h.good, h.view⟩

theorem Offers.legible {t : Tables} {w : Workspace} (h : w.Offers t) :
    t.Recorded LiteralValue.Legible ∧ t.Sound := by
  obtain ⟨hgood, hrecorded, rfl⟩ := h
  exact ⟨hrecorded.view.imp fun _ => LiteralValue.Readable.legible, hgood.sound⟩

end Workspace

namespace Action

variable {α β : Type} {t : Tables} {w w' : Workspace} {n : Node} {r : NodeRow}

/-- Whether an action that is run on some tables succeeds, leaves them and answers what
satisfies a condition. -/
abbrev Yields (t : Tables) (a : Action α) (Q : α → Prop) : Prop :=
  Delivers (Workspace.Offers t) a Q

namespace Yields

variable {Q Q' : α → Prop}

section

variable {a : Action α}
  (h : t.Recorded LiteralValue.Legible → t.Sound → Delivers (Workspace.Sees t) a Q)

include h

theorem of_ends {P : α → Workspace → Prop}
    (hends : ∀ w, w.Offers t → Ends LiteralValue.Readable w P (a w))
    (hP : ∀ v w, w.Offers t → Q v → P v w → Q' v) : Yields t a Q' := by
  intro w hw
  obtain ⟨hlegible, hsound⟩ := hw.legible
  obtain ⟨v, w', hop, hsees, hv⟩ := h hlegible hsound w hw.sees
  obtain ⟨hkept, hanswer⟩ := (hends w hw).of_ok hop
  have hw' : w'.Offers t := ⟨hkept.good, hkept.recorded, hsees.view⟩
  exact ⟨v, w', hop, hw', hP v w' hw' hv hanswer⟩

theorem of_keeps (hkeeps : Keeps (Recording LiteralValue.Readable) a) : Yields t a Q :=
  of_ends h (fun _ hw => .of_keeps hkeeps hw.good hw.recorded fun _ _ _ =>
    trivial) fun _ _ _ hv _ => hv

end

end Yields

/-- A node that is read by its id is in the row of that id; if there is
one then there is a node. -/
theorem resolveNode_yields (id : Int) :
    Yields t (resolveNode id) fun found =>
      (∀ n, found = some n → t.Identifies n ∧ n.id = id) ∧
      ((∃ r ∈ t.nodes, r.id = id) → found ≠ none) :=
  .of_ends (fun h hsound => resolveNode_delivers h hsound id)
    (fun _ hw => resolveNode_ends hw.good hw.recorded id)
    fun _ _ hw hfound hn => ⟨fun n hsome => hw.view ▸ hn n hsome, hfound.2⟩

theorem nodeId_yields (n : Node) : Yields t (nodeId n) (· = t.storedId? n) :=
  .of_keeps (fun h hsound => nodeId_delivers h hsound n) (nodeId_keeps n)

theorem slotIds_yields (slots : List (Option Node)) : Yields t (slotIds slots) fun _ => True :=
  .of_keeps (fun h hsound => slotIds_delivers h hsound slots) (slotIds_keeps slots)

theorem resolves_readable : Resolves t (Workspace.Offers t) t.Identifies :=
  ⟨fun _ hw => hw.view, fun _ hn => hn.holdsNode, slotIds_yields, resolveNode_yields⟩

end Action
end QuadStore
