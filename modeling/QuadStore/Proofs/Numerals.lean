import Mathlib.Data.List.DropRight
import Mathlib.Data.Nat.Digits.Defs
import QuadStore.Node.Typed
import QuadStore.Proofs.Labels

namespace QuadStore

namespace Text

variable {s t ds : List Char} {v : Int}

/-- Whether a text is what is left of another one without the blanks on both sides. -/
structure Trims (s t : List Char) : Prop where
  parts : ∃ before after, s = before ++ t ++ after ∧ (∀ c ∈ before, isBlank c = true) ∧
    ∀ c ∈ after, isBlank c = true
  first : ∀ c ∈ t.head?, isBlank c = false
  last : ∀ c ∈ t.getLast?, isBlank c = false

theorem not_blank_head?_trimStart (s : List Char) :
    ∀ c ∈ (trimStart s).head?, isBlank c = false := by
  intro c hc
  have hnot := List.head?_dropWhile_not isBlank s
  rw [show (s.dropWhile isBlank).head? = some c from hc] at hnot
  simpa using hnot

theorem trims_trim (s : List Char) : Trims s (trim s) := by
  have hstart : s.takeWhile isBlank ++ trimStart s = s := List.takeWhile_append_dropWhile
  have hend : trim s ++ ((trimStart s).reverse.takeWhile isBlank).reverse = trimStart s := by
    rw [trim, ← List.reverse_append]
    exact (congrArg List.reverse List.takeWhile_append_dropWhile).trans (List.reverse_reverse _)
  refine ⟨⟨s.takeWhile isBlank, ((trimStart s).reverse.takeWhile isBlank).reverse,
    ?_, ?_, ?_⟩, ?_, ?_⟩
  · rw [List.append_assoc, hend, hstart]
  · exact fun c => List.mem_takeWhile_imp
  · exact fun c hc => List.mem_takeWhile_imp (List.mem_reverse.mp hc)
  · intro c hc
    refine not_blank_head?_trimStart s c ?_
    rw [← hend, List.head?_append, hc]
    rfl
  · rw [trim, List.getLast?_reverse]
    exact not_blank_head?_trimStart _

theorem Trims.eq_trim (h : Trims s t) : trim s = t := by
  obtain ⟨before, after, rfl, hbefore, hafter⟩ := h.parts
  have hstart : trimStart (before ++ t ++ after) = trimStart (t ++ after) := by
    rw [trimStart, List.append_assoc, List.dropWhile_append_of_pos hbefore]
    rfl
  cases t with
  | nil =>
      have hnone : trimStart after = [] := List.dropWhile_eq_nil_iff.mpr hafter
      rw [trim, hstart, List.nil_append, hnone]
      rfl
  | cons c rest =>
      have hfirst : trimStart (c :: rest ++ after) = c :: rest ++ after :=
        trimStart_of_not_blank h.first
      have hlast : trimStart (c :: rest).reverse = (c :: rest).reverse :=
        trimStart_of_not_blank (List.head?_reverse ▸ h.last)
      have hreverse : ∀ c ∈ after.reverse, isBlank c = true :=
        fun c hc => hafter c (List.mem_reverse.mp hc)
      rw [trim, hstart, hfirst, List.reverse_append, trimStart,
        List.dropWhile_append_of_pos hreverse]
      exact (congrArg List.reverse hlast).trans (List.reverse_reverse _)

theorem trims_iff : Trims s t ↔ trim s = t :=
  ⟨Trims.eq_trim, fun h => h ▸ trims_trim s⟩

theorem isDigit_iff {c : Char} : isDigit c = true ↔ '0' ≤ c ∧ c ≤ '9' := by
  rw [isDigit, Bool.and_eq_true, decide_eq_true_iff, decide_eq_true_iff]
  exact Iff.rfl

/-- The number that decimal digits stand for, the last of which counts ones. -/
def decimalValue (ds : List Char) : Nat :=
  Nat.ofDigits 10 (ds.reverse.map digitValue)

/-- Whether a text consists of decimal digits, of which there is at least one. -/
structure Digits (ds : List Char) : Prop where
  ne_nil : ds ≠ []
  digit : ∀ c ∈ ds, '0' ≤ c ∧ c ≤ '9'

/-- What a numeral denotes. -/
inductive Denotes : List Char → Int → Prop
  | unsigned {ds : List Char} (h : Digits ds) : Denotes ds (decimalValue ds)
  | plus {ds : List Char} (h : Digits ds) : Denotes ('+' :: ds) (decimalValue ds)
  | minus {ds : List Char} (h : Digits ds) : Denotes ('-' :: ds) (-decimalValue ds)

theorem natOfDigits_eq_decimalValue (ds : List Char) : natOfDigits ds = decimalValue ds := by
  induction ds using List.reverseRecOn with
  | nil => rfl
  | append_singleton ds c ih =>
      have hvalue : decimalValue (ds ++ [c]) = digitValue c + 10 * decimalValue ds := by
        simp [decimalValue, Nat.ofDigits_cons]
      rw [hvalue, ← ih, natOfDigits, List.foldl_append, Nat.add_comm]
      rfl

theorem readNat_eq_some_iff {n : Nat} :
    readNat ds = some n ↔ Digits ds ∧ n = decimalValue ds := by
  rw [readNat, natOfDigits_eq_decimalValue]
  constructor
  · intro h
    split at h
    · rename_i hdigits
      rw [Bool.and_eq_true, Bool.not_eq_true', List.isEmpty_eq_false_iff,
        List.all_eq_true] at hdigits
      exact ⟨⟨hdigits.1, fun c hc => isDigit_iff.mp (hdigits.2 c hc)⟩, (Option.some.inj h).symm⟩
    · cases h
  · rintro ⟨⟨hne, hdigit⟩, rfl⟩
    refine if_pos ?_
    rw [Bool.and_eq_true, Bool.not_eq_true', List.isEmpty_eq_false_iff, List.all_eq_true]
    exact ⟨hne, fun c hc => isDigit_iff.mpr (hdigit c hc)⟩

theorem splitSign_of_digits (h : Digits ds) : splitSign ds = (false, ds) := by
  cases ds with
  | nil => rfl
  | cons c rest =>
      have hc := (h.digit c List.mem_cons_self).1
      unfold splitSign
      split
      · rename_i heq
        obtain ⟨rfl, -⟩ := List.cons.inj heq
        exact absurd hc (by decide)
      · rename_i heq
        obtain ⟨rfl, -⟩ := List.cons.inj heq
        exact absurd hc (by decide)
      · rfl

theorem isInt64_iff : isInt64 v = true ↔ -2 ^ 63 ≤ v ∧ v < 2 ^ 63 := by
  rw [isInt64, Bool.and_eq_true, decide_eq_true_iff, decide_eq_true_iff]
  omega

theorem denotes_iff : Denotes s v ↔ Digits (splitSign s).2 ∧
    v = (if (splitSign s).1 then -decimalValue (splitSign s).2 else decimalValue
      (splitSign s).2 : Int) := by
  constructor
  · intro h
    cases h with
    | unsigned hdigits =>
        rw [splitSign_of_digits hdigits]
        exact ⟨hdigits, rfl⟩
    | plus hdigits | minus hdigits => exact ⟨hdigits, rfl⟩
  · rintro ⟨hdigits, rfl⟩
    revert hdigits
    unfold splitSign
    split
    · exact .minus
    · exact .plus
    · exact .unsigned

theorem Denotes.eq {v' : Int} (h : Denotes s v) (h' : Denotes s v') : v = v' :=
  (denotes_iff.mp h).2.trans (denotes_iff.mp h').2.symm

theorem readInt64_eq_some_iff :
    readInt64 s = some v ↔ Denotes s v ∧ -2 ^ 63 ≤ v ∧ v < 2 ^ 63 := by
  rw [denotes_iff, ← isInt64_iff, and_assoc]
  unfold readInt64
  rw [Option.bind_eq_some_iff]
  simp only [readNat_eq_some_iff, Option.ite_none_right_eq_some, Option.some.injEq]
  constructor
  · rintro ⟨n, ⟨hdigits, rfl⟩, hbits, rfl⟩
    exact ⟨hdigits, rfl, hbits⟩
  · rintro ⟨hdigits, rfl, hbits⟩
    exact ⟨_, ⟨hdigits, rfl⟩, hbits, rfl⟩

theorem digits_digits (n : Nat) : Digits (digits n) := by
  refine ⟨?_, fun c hc => isDigit_iff.mp (isDigit_of_mem_digits hc)⟩
  rw [digits]
  split <;> simp

/-- The decimal text of an integer denotes it. -/
theorem denotes_intText (v : Int) : Denotes (intText v).toList v := by
  -- The digits are those of the size; a sign stands before them if there is one.
  have hvalue : decimalValue (digits v.natAbs) = v.natAbs := by
    rw [← natOfDigits_eq_decimalValue, natOfDigits_digits]
  unfold intText
  split
  · rw [String.toList_ofList]
    have hminus := Denotes.minus (digits_digits v.natAbs)
    rwa [hvalue, show -(v.natAbs : Int) = v by omega] at hminus
  · rw [String.toList_ofList]
    have hplain := Denotes.unsigned (digits_digits v.natAbs)
    rwa [hvalue, show (v.natAbs : Int) = v by omega] at hplain

theorem digits_eq_toDigits (n : Nat) : digits n = Nat.toDigits 10 n := by
  induction n using Nat.strongRecOn with
  | ind n ih =>
      have hchar : ∀ d < 10, digitChar d = Nat.digitChar d := by decide
      rw [digits]
      split
      · rename_i hlt
        rw [Nat.toDigits_of_lt_base hlt, hchar n hlt]
      · rename_i hge
        rw [Nat.toDigits_of_base_le (by omega) (by omega), ih (n / 10) (by omega),
          hchar _ (Nat.mod_lt n (by omega))]

theorem intText_eq_toString (v : Int) : intText v = toString v := by
  unfold intText
  rw [digits_eq_toDigits]
  cases v with
  | ofNat n => exact if_neg (not_lt.mpr (Int.natCast_nonneg n))
  | negSucc n =>
      rw [if_pos (Int.negSucc_lt_zero n)]
      show _ = "-" ++ String.ofList (Nat.toDigits 10 (n + 1))
      rw [← String.toList_inj]
      simp

theorem intText_injective : Function.Injective intText := fun v v' h =>
  (denotes_intText v).eq (h ▸ denotes_intText v')

theorem not_blank_of_isDigit {c : Char} (h : isDigit c = true) : isBlank c = false := by
  rw [isDigit, Bool.and_eq_true, decide_eq_true_iff, decide_eq_true_iff] at h
  simp only [isBlank, inRanges, blankRanges, List.any_cons, List.any_nil, Bool.or_false,
    Bool.or_eq_false_iff, Bool.and_eq_false_iff, decide_eq_false_iff_not]
  omega

theorem not_blank_of_mem_intText {c : Char} (h : c ∈ (intText v).toList) : isBlank c = false := by
  unfold intText at h
  split at h
  · rw [String.toList_ofList, List.mem_cons] at h
    rcases h with rfl | h
    · decide
    · exact not_blank_of_isDigit (isDigit_of_mem_digits h)
  · rw [String.toList_ofList] at h
    exact not_blank_of_isDigit (isDigit_of_mem_digits h)

theorem trim_of_not_blank (h : ∀ c ∈ s, isBlank c = false) : trim s = s :=
  Trims.eq_trim ⟨⟨[], [], by simp, by simp, by simp⟩, fun c hc => h c (List.mem_of_mem_head? hc),
    fun c hc => h c (List.mem_of_mem_getLast? hc)⟩

theorem trim_intText (v : Int) : trim (intText v).toList = (intText v).toList :=
  trim_of_not_blank fun _ => not_blank_of_mem_intText

end Text
end QuadStore
