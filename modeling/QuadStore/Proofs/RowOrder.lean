import Mathlib.Data.Prod.Lex
import Mathlib.Data.String.Basic
import QuadStore.Query.Run

namespace QuadStore

namespace Cell

/-- The place of a cell among all cells: by its rank, then by its number or its text. -/
def place : Cell → Nat ×ₗ Int ×ₗ String
  | .text s => toLex (2, toLex (0, s))
  | c => toLex (c.rank, toLex (c.number, ""))

theorem lt_iff {a b : Cell} : a.lt b = true ↔ a.place < b.place := by
  cases a <;> cases b <;> simp [lt, place, rank, number, Prod.Lex.toLex_lt_toLex] <;>
    exact decide_eq_true_iff

end Cell

theorem keyLe_cons {ascending ascending' : Bool} {a b : Cell} {as bs : List (Bool × Cell)} :
    keyLe ((ascending, a) :: as) ((ascending', b) :: bs) = true ↔
      (if ascending then a.place < b.place else b.place < a.place) ∨
        a.place = b.place ∧ keyLe as bs = true := by
  rw [keyLe]
  rcases lt_trichotomy a.place b.place with hlt | heq | hgt
  · have hab := Cell.lt_iff.mpr hlt
    cases ascending <;> simp [hab, hlt, hlt.not_gt, hlt.ne]
  · have hab : a.lt b = false := by simp [← Bool.not_eq_true, Cell.lt_iff, heq]
    have hba : b.lt a = false := by simp [← Bool.not_eq_true, Cell.lt_iff, heq]
    simp [hab, hba, heq]
  · have hab : a.lt b = false := by simp [← Bool.not_eq_true, Cell.lt_iff, hgt.le]
    have hba := Cell.lt_iff.mpr hgt
    cases ascending <;> simp [hab, hba, hgt, hgt.not_gt, hgt.ne']

namespace Choice

variable {a b c : Choice} {terms : List OrderTerm}

theorem keyLe_total : (keyLe (a.orderKey terms) (b.orderKey terms) ||
    keyLe (b.orderKey terms) (a.orderKey terms)) = true := by
  rw [Bool.or_eq_true]
  induction terms with
  | nil => exact .inl rfl
  | cons o terms ih =>
      simp only [orderKey, List.map_cons, keyLe_cons] at ih ⊢
      rcases lt_trichotomy ((a.cell? o.column).getD .null).place
          ((b.cell? o.column).getD .null).place with
        hlt | heq | hgt
      · cases o.ascending <;> simp [hlt]
      · exact ih.imp (fun hle => .inr ⟨heq, hle⟩) fun hle => .inr ⟨heq.symm, hle⟩
      · cases o.ascending <;> simp [hgt]

theorem keyLe_trans (hab : keyLe (a.orderKey terms) (b.orderKey terms) = true)
    (hbc : keyLe (b.orderKey terms) (c.orderKey terms) = true) :
    keyLe (a.orderKey terms) (c.orderKey terms) = true := by
  induction terms with
  | nil => rfl
  | cons o terms ih =>
      simp only [orderKey, List.map_cons, keyLe_cons] at ih hab hbc ⊢
      rcases hab with hlt | ⟨heq, hle⟩ <;> rcases hbc with hlt' | ⟨heq', hle'⟩
      · left
        split at hlt
        · rw [if_pos ‹_›] at hlt' ⊢
          exact hlt.trans hlt'
        · rw [if_neg ‹_›] at hlt' ⊢
          exact hlt'.trans hlt
      · exact .inl (heq' ▸ hlt)
      · exact .inl (heq ▸ hlt')
      · exact .inr ⟨heq.trans heq', ih hle hle'⟩

end Choice

namespace SelectQuery

variable {q : SelectQuery} {t : Tables} {rows : List (List Cell)}

theorem exists_ordered_choices (h : q.run t = .ok rows) :
    ∃ choices : List Choice, rows = choices.map q.project ∧
    (∀ choice ∈ choices, choice ∈ q.choices t) ∧
      choices.Pairwise fun a b => keyLe (a.orderKey q.orderBy) (b.orderKey q.orderBy) = true := by
  have hsorted : (q.ordered t).Pairwise fun a b =>
      keyLe (a.orderKey q.orderBy) (b.orderKey q.orderBy) = true := by
    apply List.pairwise_mergeSort
    · exact fun _ _ _ => Choice.keyLe_trans
    · exact fun _ _ => Choice.keyLe_total
  have hmem : ∀ choice ∈ q.ordered t, choice ∈ q.choices t := fun _ => List.mem_mergeSort.mp
  unfold run at h
  cases hcheck : q.check with
  | error fault =>
      rw [hcheck] at h
      cases h
  | ok u =>
      rw [hcheck] at h
      rw [← Except.ok.inj h]
      cases q.limit with
      | none => exact ⟨q.ordered t, rfl, hmem, hsorted⟩
      | some n =>
          refine ⟨(q.ordered t).take n, List.map_take.symm, fun choice hchoice => ?_,
            hsorted.sublist (List.take_sublist _ _)⟩
          exact hmem choice (List.mem_of_mem_take hchoice)

/-- The rows of a statement without a limit are what its choices are projected
to, sorted by their keys. -/
theorem run_eq_sorted (hcheck : q.check = .ok ()) (hlimit : q.limit = none) (t : Tables) :
    q.run t = .ok ((((q.choices t).map fun choice =>
      (choice.orderKey q.orderBy, q.project choice)).mergeSort
      fun a b => keyLe a.1 b.1).map Prod.snd) := by
  let keyed (choice : Choice) := (choice.orderKey q.orderBy, q.project choice)
  have hsorted : (q.ordered t).map keyed = ((q.choices t).map keyed).mergeSort fun a b =>
      keyLe a.1 b.1 :=
    List.map_mergeSort fun _ _ _ _ => rfl
  rw [← hsorted, List.map_map]
  unfold run
  rw [hcheck]
  simp only [hlimit]
  rfl

end SelectQuery
end QuadStore
