import Mathlib.Data.List.Nodup
import Mathlib.Data.List.TakeWhile
import QuadStore.Query.Compile

namespace QuadStore

namespace Text

theorem toNat_digitChar {d : Nat} (h : d < 10) : (digitChar d).toNat = 48 + d := by
  have hall : ∀ d : Fin 10, (digitChar d.val).toNat = 48 + d.val := by decide
  exact hall ⟨d, h⟩

theorem isDigit_of_mem_digits {n : Nat} {c : Char} (h : c ∈ digits n) : isDigit c = true := by
  induction n using Nat.strongRecOn with
  | ind n ih =>
      have digit_ok : ∀ d, d < 10 → isDigit (digitChar d) = true := by
        intro d hd
        simp [isDigit, toNat_digitChar hd]
        omega
      rw [digits] at h
      split at h
      · rw [List.mem_singleton.mp h]
        exact digit_ok n ‹_›
      · rcases List.mem_append.mp h with h | h
        · exact ih (n / 10) (by omega) h
        · rw [List.mem_singleton.mp h]
          exact digit_ok _ (Nat.mod_lt _ (by decide))

theorem natOfDigits_digits (n : Nat) : natOfDigits (digits n) = n := by
  induction n using Nat.strongRecOn with
  | ind n ih =>
      rw [digits]
      split
      · rename_i hn
        simp [natOfDigits, digitValue, toNat_digitChar hn]
      · have hrest : natOfDigits (digits (n / 10)) = n / 10 := ih (n / 10) (by omega)
        unfold natOfDigits at hrest ⊢
        rw [List.foldl_append, hrest]
        simp only [List.foldl_cons, List.foldl_nil, digitValue,
          toNat_digitChar (Nat.mod_lt n (by decide))]
        omega

theorem digits_injective : Function.Injective digits := by
  intro m n h
  rw [← natOfDigits_digits m, h, natOfDigits_digits]

end Text

/-- The characters of a name up to the first underscore. -/
def stem (s : String) : List Char :=
  s.toList.takeWhile (· ≠ '_')

theorem toList_patternLabel (i : Nat) :
    (patternLabel i).toList = 'P' :: Text.digits (i + 1) := by
  simp [patternLabel, Text.natText]

theorem ne_underscore_of_mem_patternLabel {i : Nat} {c : Char}
    (hc : c ∈ (patternLabel i).toList) : c ≠ '_' := by
  rw [toList_patternLabel] at hc
  rintro rfl
  rcases List.mem_cons.mp hc with h | h
  · revert h
    decide
  · have hdigit := Text.isDigit_of_mem_digits h
    revert hdigit
    decide

theorem patternLabel_injective : Function.Injective patternLabel := by
  intro i j h
  have hlist := congrArg String.toList h
  rw [toList_patternLabel, toList_patternLabel] at hlist
  have hdigits := Text.digits_injective (List.cons.inj hlist).2
  omega

theorem stem_patternLabel (i : Nat) : stem (patternLabel i) = (patternLabel i).toList := by
  rw [stem, List.takeWhile_eq_self_iff]
  intro c hc
  simpa using ne_underscore_of_mem_patternLabel hc

namespace Occurrence

variable {q : ResolvedQuery} {o o' : Occurrence}

theorem letter_injective : Function.Injective Slot.letter := by
  intro a b h
  cases a <;> cases b <;> first | rfl | exact absurd h (by decide)

theorem toList_nodeLabel (q : ResolvedQuery) (o : Occurrence) :
    (o.nodeLabel q).toList =
      (patternLabel o.pattern).toList ++ ('_' :: (o.slot.letter.toList ++
        ('_' :: (variableLabel (q.varNames.idxOf o.name)).toList))) := by
  simp [nodeLabel]

theorem stem_nodeLabel (q : ResolvedQuery) (o : Occurrence) :
    stem (o.nodeLabel q) = (patternLabel o.pattern).toList := by
  rw [stem, toList_nodeLabel, List.takeWhile_append_of_pos]
  · simp
  · intro c hc
    simpa using ne_underscore_of_mem_patternLabel hc

theorem pattern_eq_of_nodeLabel_eq (h : o.nodeLabel q = o'.nodeLabel q) :
    o.pattern = o'.pattern := by
  apply patternLabel_injective
  rw [← String.toList_inj, ← stem_nodeLabel q o, h, stem_nodeLabel]

theorem slot_eq_of_nodeLabel_eq (h : o.nodeLabel q = o'.nodeLabel q) : o.slot = o'.slot := by
  have hlist := congrArg String.toList h
  rw [toList_nodeLabel, toList_nodeLabel, pattern_eq_of_nodeLabel_eq h] at hlist
  have hletter := List.cons.inj (List.append_cancel_left hlist) |>.2
  have hlength : o.slot.letter.toList.length = o'.slot.letter.toList.length := by
    cases o.slot <;> cases o'.slot <;> rfl
  apply letter_injective
  rw [← String.toList_inj]
  exact (List.append_inj hletter hlength).1

theorem nodeLabel_ne_patternLabel (q : ResolvedQuery) (o : Occurrence) (i : Nat) :
    o.nodeLabel q ≠ patternLabel i := by
  intro h
  have hmem : '_' ∈ (o.nodeLabel q).toList := by simp [toList_nodeLabel]
  rw [h] at hmem
  exact ne_underscore_of_mem_patternLabel hmem rfl

end Occurrence
end QuadStore
