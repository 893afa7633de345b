import Mathlib.Algebra.Group.Basic
import Mathlib.Data.Nat.Cast.Defs
import Mathlib.Data.Nat.Find
import Mathlib.Tactic.IntervalCases
import QuadStore.Calendar.Date

/-!
Days and dates. Every day has a valid date, and the date denotes that day. Dates are computed by
eras of four hundred years, all of which have the same days.
-/

namespace QuadStore.Date

/-- Days of an era of four hundred years before its `y`-th year. -/
def daysBefore (y : Nat) : Nat :=
  365 * y + y / 4 - y / 100 + y / 400

/-- The days of an era without those that leap years add to it. -/
def commonDays (n : Nat) : Nat :=
  n - n / 1460 + n / 36524 - n / 146096

theorem commonDays_mono {m n : Nat} (h : m ≤ n) (hn : n < 146097) :
    commonDays m ≤ commonDays n := by
  have hfours : m - m / 1460 ≤ n - n / 1460 := by omega
  have hlast : m / 36524 - m / 146096 ≤ n / 36524 - n / 146096 := by omega
  unfold commonDays
  omega

theorem commonDays_bounds : ∀ y < 400, 365 * y ≤ commonDays (daysBefore y) ∧
    commonDays (daysBefore (y + 1) - 1) < 365 * (y + 1) := by
  decide +kernel

theorem exists_year {n : Nat} (hn : n < 146097) :
    ∃ y < 400, daysBefore y ≤ n ∧ n < daysBefore (y + 1) := by
  have hex : ∃ y, n < daysBefore (y + 1) := ⟨399, hn⟩
  refine ⟨Nat.find hex, ?_, ?_, Nat.find_spec hex⟩
  · have := Nat.find_min' hex (m := 399) hn
    omega
  · cases hy : Nat.find hex with
    | zero => exact Nat.zero_le _
    | succ y => exact Nat.not_lt.mp (Nat.find_min hex (by omega))

theorem yearOfEra_eq {n y : Nat} (hy : y < 400) (hle : daysBefore y ≤ n)
    (hlt : n < daysBefore (y + 1)) :
    commonDays n / 365 = y := by
  obtain ⟨hlow, hhigh⟩ := commonDays_bounds y hy
  have hend : daysBefore (y + 1) - 1 < 146097 := by
    unfold daysBefore
    omega
  have hn : n < 146097 := by omega
  have h₁ := commonDays_mono hle hn
  have h₂ := commonDays_mono (show n ≤ daysBefore (y + 1) - 1 by omega) hend
  omega

theorem isLeapYear_iff (era : Int) (y : Nat) : isLeapYear (400 * era + y) = true ↔
    y % 4 = 0 ∧ (y % 100 ≠ 0 ∨ y % 400 = 0) := by
  simp only [isLeapYear, Bool.and_eq_true, Bool.or_eq_true, beq_iff_eq, bne_iff_ne, ne_eq]
  omega

/-- The date of a day by its era, its year within the era and its place in that year,
which begins in March. -/
def ofParts (era : Int) (y doy : Nat) : Date :=
  let n := (5 * doy + 2) / 153
  let month := if n < 10 then n + 3 else n - 9
  let year : Int := 400 * era + y
  ⟨if month ≤ 2 then year + 1 else year, month, doy - daysAfterMarch n + 1⟩

theorem ofDays_eq (days : Int) : ∃ (era : Int) (y doy : Nat), y < 400 ∧
    daysBefore y + doy < daysBefore (y + 1) ∧ days + 719468 = 146097 * era + daysBefore y + doy ∧
      ofDays days = ofParts era y doy := by
  have hn : ((days + 719468) % 146097).toNat < 146097 := by omega
  obtain ⟨y, hy, hle, hlt⟩ := exists_year hn
  have hyear := yearOfEra_eq hy hle hlt
  have hdoy : ((days + 719468) % 146097).toNat - (365 * y + y / 4 - y / 100) =
      ((days + 719468) % 146097).toNat - daysBefore y := by
    unfold daysBefore
    omega
  refine ⟨(days + 719468) / 146097, y,
    ((days + 719468) % 146097).toNat - daysBefore y, hy, by omega,
    by omega, ?_⟩
  unfold commonDays at hyear
  simp only [ofDays, hyear, hdoy]
  rfl

/-- A year has 366 days when February, which comes last, belongs to a leap year. -/
theorem daysBefore_succ {y : Nat} (hy : y < 400) (era : Int) : daysBefore (y + 1) =
    daysBefore y + if isLeapYear (400 * era + y + 1) then 366 else 365 := by
  have hleap := isLeapYear_iff era (y + 1)
  rw [Nat.cast_succ, ← add_assoc] at hleap
  simp only [daysBefore, hleap]
  split <;> omega

theorem toDays_ofParts {era : Int} {y doy : Nat} (hy : y < 400) (hdoy : doy < 366) :
    (ofParts era y doy).toDays = 146097 * era + daysBefore y + doy - 719468 := by
  have hmonth : (5 * doy + 2) / 153 < 12 := by omega
  have hle : daysAfterMarch ((5 * doy + 2) / 153) ≤ doy := by
    unfold daysAfterMarch
    omega
  have hyear : daysBeforeMarch (400 * era + y) = 146097 * era + daysBefore y := by
    unfold daysBeforeMarch daysBefore
    omega
  unfold ofParts toDays
  by_cases h : (5 * doy + 2) / 153 < 10
  · have hmod : ((5 * doy + 2) / 153 + 3 + 9) % 12 = (5 * doy + 2) / 153 := by omega
    have hmarch : ¬ (5 * doy + 2) / 153 + 3 ≤ 2 := by omega
    simp only [if_pos h, if_neg hmarch, hmod, hyear]
    omega
  · have hmod : ((5 * doy + 2) / 153 - 9 + 9) % 12 = (5 * doy + 2) / 153 := by omega
    have hjanuary : (5 * doy + 2) / 153 - 9 ≤ 2 := by omega
    simp only [if_neg h, if_pos hjanuary, hmod, add_sub_cancel_right, hyear]
    omega

theorem toDays_ofDays (days : Int) : (ofDays days).toDays = days := by
  obtain ⟨era, y, doy, hy, hdoy, hdays, heq⟩ := ofDays_eq days
  have hlt : doy < 366 := by
    rw [daysBefore_succ hy era] at hdoy
    split at hdoy <;> omega
  rw [heq, toDays_ofParts hy hlt]
  omega

theorem isValid_iff {d : Date} : d.isValid = true ↔
    1 ≤ d.month ∧ d.month ≤ 12 ∧ 1 ≤ d.day ∧ d.day ≤ daysInMonth d.year d.month := by
  simp [isValid, and_assoc]

theorem daysInMonth_le (year : Int) (month : Nat) : daysInMonth year month ≤ 31 := by
  unfold daysInMonth
  split
  · split <;> omega
  · split <;> omega

theorem isValid_ofParts {era : Int} {y doy : Nat} (hy : y < 400)
    (hdoy : daysBefore y + doy < daysBefore (y + 1)) : (ofParts era y doy).isValid = true := by
  rw [daysBefore_succ hy era, add_lt_add_iff_left] at hdoy
  have hmonth : (5 * doy + 2) / 153 < 12 := by split at hdoy <;> omega
  rw [isValid_iff, ofParts]
  dsimp only
  generalize hn : (5 * doy + 2) / 153 = n at hmonth
  interval_cases n
  case «11» =>
    -- The last month is February.
    refine ⟨by decide, by decide, Nat.le_add_left _ _, ?_⟩
    show doy - daysAfterMarch 11 + 1 ≤ if isLeapYear (400 * era + y + 1) then 29 else 28
    unfold daysAfterMarch
    split at hdoy
    · rw [if_pos ‹_›]
      omega
    · rw [if_neg ‹_›]
      omega
  all_goals
    refine ⟨by decide, by decide, Nat.le_add_left _ _, ?_⟩
    have hdays : doy < 366 := by split at hdoy <;> omega
    clear hdoy
    simp [daysAfterMarch, daysInMonth]
    omega

theorem isValid_ofDays (days : Int) : (ofDays days).isValid = true := by
  obtain ⟨era, y, doy, hy, hdoy, -, heq⟩ := ofDays_eq days
  rw [heq, isValid_ofParts hy hdoy]

end QuadStore.Date
