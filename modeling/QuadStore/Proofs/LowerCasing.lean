import Mathlib.Data.Nat.Bitwise
import QuadStore.Text.LowerCase

namespace QuadStore.Text

/-- The number whose bits are set at the given places. -/
def bitsAt (places : List Nat) : Nat :=
  places.foldr (fun place bits => 1 <<< place ||| bits) 0

theorem testBit_bitsAt {places : List Nat} {place : Nat} (h : place ∈ places) :
    (bitsAt places).testBit place = true := by
  induction places with
  | nil => cases h
  | cons first rest ih =>
      simp only [bitsAt, List.foldr_cons, Nat.testBit_or, Bool.or_eq_true] at ih ⊢
      rcases List.mem_cons.mp h with rfl | h
      · exact .inl (by simp)
      · exact .inr (ih h)

namespace CapitalRun

/-- The code points of the capitals of a run. -/
def codes (run : CapitalRun) : List Nat :=
  ((List.range (run.last - run.first + 1)).map fun k => run.first + k).filter run.holds

def form (run : CapitalRun) (code : Nat) : Nat :=
  (code + run.shift).toNat

theorem mem_codes {run : CapitalRun} {code : Nat} (h : run.holds code = true) :
    code ∈ run.codes := by
  refine List.mem_filter.mpr ⟨?_, h⟩
  simp only [holds, Bool.and_eq_true, decide_eq_true_eq] at h
  exact List.mem_map.mpr ⟨code - run.first, List.mem_range.mpr (by omega), by omega⟩

end CapitalRun

/-- The bits that are set for each run. -/
def bitsOf (places : CapitalRun → List Nat) (runs : List CapitalRun) : Nat :=
  runs.foldr (fun run bits => bitsAt (places run) ||| bits) 0

theorem testBit_bitsOf {places : CapitalRun → List Nat}
    {runs : List CapitalRun} {run : CapitalRun}
    (hrun : run ∈ runs) {place : Nat} (h : place ∈ places run) :
    (bitsOf places runs).testBit place = true := by
  induction runs with
  | nil => cases hrun
  | cons first rest ih =>
      simp only [bitsOf, List.foldr_cons, Nat.testBit_or, Bool.or_eq_true] at ih ⊢
      rcases List.mem_cons.mp hrun with rfl | hrun
      · exact .inl (testBit_bitsAt h)
      · exact .inr (ih hrun)

/-- The capitals, with the one that has two characters for its form. -/
def capitalBits : Nat :=
  1 <<< 'İ'.toNat ||| bitsOf CapitalRun.codes capitalRuns

def formBits : Nat :=
  bitsOf (fun run => run.codes.map run.form) capitalRuns

theorem forms_disjoint : capitalBits &&& formBits = 0 := by
  decide +kernel

theorem testBit_capitalBits {run : CapitalRun} (hrun : run ∈ capitalRuns) {code : Nat}
    (h : run.holds code = true) : capitalBits.testBit code = true := by
  rw [capitalBits, Nat.testBit_or, testBit_bitsOf hrun (CapitalRun.mem_codes h), Bool.or_true]

/-- Whether a character is its own lower case form, wherever it stands. -/
def Lowered (c : Char) : Prop :=
  c ≠ 'Σ' ∧ lowerChar c = [c]

theorem lowered_of_testBit {c : Char} (h : capitalBits.testBit c.toNat = false) : Lowered c := by
  have hnone : capitalRuns.find? (fun run => run.holds c.toNat) = none := by
    refine List.find?_eq_none.mpr fun run hrun hholds => ?_
    rw [testBit_capitalBits hrun (by simpa using hholds)] at h
    cases h
  have hdotted : c ≠ 'İ' := by
    rintro rfl
    rw [capitalBits, Nat.testBit_or] at h
    generalize 'İ'.toNat = code at h
    simp at h
  refine ⟨?_, by simp only [lowerChar, if_neg hdotted, hnone]⟩
  rintro rfl
  exact absurd hnone (by decide +kernel)

/-- The form of a capital is none itself. -/
theorem lowered_form {run : CapitalRun} (hrun : run ∈ capitalRuns) {code : Nat}
    (h : run.holds code = true) : Lowered (Char.ofNat (run.form code)) := by
  by_cases hvalid : (run.form code).isValidChar
  · apply lowered_of_testBit
    have hform : formBits.testBit (run.form code) = true :=
      testBit_bitsOf hrun (List.mem_map_of_mem (CapitalRun.mem_codes h))
    have hboth := congrArg (fun bits => bits.testBit (run.form code)) forms_disjoint
    simp only [Nat.testBit_and, hform, Bool.and_true, Nat.zero_testBit] at hboth
    have htoNat : (Char.ofNat (run.form code)).toNat = run.form code := by
      rw [Char.ofNat, dif_pos hvalid]
      rfl
    rw [htoNat, hboth]
  · have hzero : Char.ofNat (run.form code) = '\x00' := by
      rw [Char.ofNat, dif_neg hvalid]
      rfl
    rw [hzero]
    exact ⟨by decide, by decide +kernel⟩

theorem lowered_of_mem_lowerChar {c d : Char} (hc : c ≠ 'Σ') (hd : d ∈ lowerChar c) :
    Lowered d := by
  unfold lowerChar at hd
  split at hd
  · simp only [List.mem_cons, List.not_mem_nil, or_false] at hd
    rcases hd with rfl | rfl <;> exact ⟨by decide, by decide +kernel⟩
  · rename_i hdotted
    split at hd
    · rename_i run hrun
      rw [List.mem_singleton.mp hd]
      exact lowered_form (List.mem_of_find?_eq_some hrun) (by simpa using List.find?_some hrun)
    · rename_i hnone
      rw [List.mem_singleton.mp hd]
      exact ⟨hc, by simp only [lowerChar, if_neg hdotted, hnone]⟩

theorem lowered_of_mem_lowerAfter {before s : List Char} {d : Char}
    (hd : d ∈ lowerAfter before s) : Lowered d := by
  induction s generalizing before with
  | nil => cases hd
  | cons c rest ih =>
      rcases List.mem_append.mp hd with hd | hd
      · split at hd
        · split at hd <;>
            (rw [List.mem_singleton.mp hd]; exact ⟨by decide, by decide +kernel⟩)
        · exact lowered_of_mem_lowerChar ‹_› hd
      · exact ih hd

theorem lowerAfter_of_lowered {before s : List Char} (h : ∀ c ∈ s, Lowered c) :
    lowerAfter before s = s := by
  induction s generalizing before with
  | nil => rfl
  | cons c rest ih =>
      obtain ⟨hsigma, hform⟩ := h c (by simp)
      simp only [lowerAfter, if_neg hsigma, hform, ih fun d hd => h d (by simp [hd])]
      rfl

theorem lowerCase_lowerCase (s : String) : lowerCase (lowerCase s) = lowerCase s := by
  rw [lowerCase, lowerCase, String.toList_ofList,
    lowerAfter_of_lowered fun _ hd => lowered_of_mem_lowerAfter hd]

end QuadStore.Text
