import Mathlib.Algebra.Order.Ring.Int
import QuadStore.Table.NodeRow

/-!
Integers as floating point numbers. Rounding keeps the order of integers, and it keeps integers
apart one of which has at most 53 binary digits.
-/

namespace QuadStore.Binary64

variable {m n num num' den : Nat}

theorem roundHalfEven_mul (a : Nat) (hden : 0 < den) : roundHalfEven (a * den) den = a := by
  simp [roundHalfEven, Nat.mul_div_cancel a hden, hden]

theorem roundHalfEven_mono (h : num ≤ num') :
    roundHalfEven num den ≤ roundHalfEven num' den := by
  have hfloor : num / den ≤ num' / den := Nat.div_le_div_right h
  have hnum := Nat.div_add_mod num den
  have hnum' := Nat.div_add_mod num' den
  rcases Nat.lt_or_eq_of_le hfloor with hlt | heq
  · -- Half a unit is not enough to pass the next quotient.
    have hup : roundHalfEven num den ≤ num / den + 1 := by
      unfold roundHalfEven
      dsimp only
      split
      · omega
      · split <;> omega
    have hdown : num' / den ≤ roundHalfEven num' den := by
      unfold roundHalfEven
      dsimp only
      split
      · omega
      · split <;> omega
    omega
  · have hrest : num % den ≤ num' % den := by
      rw [← heq] at hnum'
      omega
    unfold roundHalfEven
    rw [← heq]
    dsimp only
    split
    · split
      · omega
      · split <;> omega
    · split
      · split
        · omega
        · split <;> omega
      · split
        · omega
        · split <;> omega

/-- The greatest power of two in a number, as an exponent above that of 53 binary digits. -/
def digitsAbove (n : Nat) : Int :=
  n.log2 - 52

/-- The 53 leading binary digits of a number, rounded. -/
def leadingDigits (n : Nat) : Nat :=
  roundHalfEven (n * 2 ^ (-digitsAbove n).toNat) (2 ^ (digitsAbove n).toNat)

theorem roundMagnitude_eq (hn : n ≠ 0) :
    roundMagnitude n 1 = (n.log2 + 1022) * 2 ^ 52 + leadingDigits n := by
  have hlog : floorLog2 n 1 = n.log2 := by
    have hle : ¬ n * twoPow (-((n.log2 : Int) - Nat.log2 1)).toNat <
        1 * twoPow ((n.log2 : Int) - Nat.log2 1).toNat := by
      have hone : Nat.log2 1 = 0 := rfl
      have hneg : (-((n.log2 : Int) - (0 : Nat))).toNat = 0 := by omega
      have hpos : ((n.log2 : Int) - (0 : Nat)).toNat = n.log2 := by omega
      rw [hone, hneg, hpos, Nat.one_mul]
      show ¬ n * 2 ^ 0 < 2 ^ n.log2
      have := Nat.log2_self_le hn
      omega
    rw [floorLog2, if_neg hle]
    exact Int.sub_zero _
  have hmax : max (-1074) (floorLog2 n 1 - 52) = digitsAbove n := by
    rw [hlog, digitsAbove]
    omega
  have hexponent : (digitsAbove n + 1074).toNat = n.log2 + 1022 := by
    unfold digitsAbove
    omega
  rw [roundMagnitude, if_neg hn]
  dsimp only
  rw [hmax, hexponent, Nat.one_mul]
  rfl

theorem leadingDigits_bounds (hn : n ≠ 0) :
    2 ^ 52 ≤ leadingDigits n ∧ leadingDigits n ≤ 2 ^ 53 := by
  have hlow := Nat.log2_self_le hn
  have hhigh : n < 2 ^ (n.log2 + 1) := Nat.lt_log2_self
  have hpos : 0 < 2 ^ (digitsAbove n).toNat := Nat.two_pow_pos _
  have hscale : 52 + (digitsAbove n).toNat = n.log2 + (-digitsAbove n).toNat := by
    unfold digitsAbove
    omega
  constructor
  · rw [← roundHalfEven_mul (2 ^ 52) hpos]
    refine roundHalfEven_mono ?_
    rw [← Nat.pow_add, hscale, Nat.pow_add]
    exact Nat.mul_le_mul_right _ hlow
  · rw [← roundHalfEven_mul (2 ^ 53) hpos]
    refine roundHalfEven_mono ?_
    rw [← Nat.pow_add, show 53 + (digitsAbove n).toNat =
      n.log2 + 1 + (-digitsAbove n).toNat by omega,
      Nat.pow_add]
    exact Nat.mul_le_mul_right _ hhigh.le

theorem leadingDigits_small (h : n.log2 ≤ 52) : leadingDigits n = n * 2 ^ (52 - n.log2) := by
  have habove : (digitsAbove n).toNat = 0 := by
    unfold digitsAbove
    omega
  have hbelow : (-digitsAbove n).toNat = 52 - n.log2 := by
    unfold digitsAbove
    omega
  rw [leadingDigits, habove, hbelow]
  simpa using roundHalfEven_mul (n * 2 ^ (52 - n.log2)) (Nat.one_pos)

theorem leadingDigits_mono (hlog : m.log2 = n.log2) (h : m ≤ n) :
    leadingDigits m ≤ leadingDigits n := by
  rw [leadingDigits, leadingDigits, digitsAbove, digitsAbove, hlog]
  exact roundHalfEven_mono (Nat.mul_le_mul_right _ h)

theorem log2_mono (h : m ≤ n) (hm : m ≠ 0) : m.log2 ≤ n.log2 :=
  (Nat.le_log2 (by omega)).mpr ((Nat.log2_self_le hm).trans h)

theorem roundMagnitude_pos (hn : n ≠ 0) : 0 < roundMagnitude n 1 := by
  rw [roundMagnitude_eq hn]
  have := (leadingDigits_bounds hn).1
  omega

theorem roundMagnitude_mono (h : m ≤ n) : roundMagnitude m 1 ≤ roundMagnitude n 1 := by
  by_cases hm : m = 0
  · rw [hm, roundMagnitude, if_pos rfl]
    exact Nat.zero_le _
  · have hn : n ≠ 0 := by omega
    have hlow := leadingDigits_bounds hn
    have hhigh := leadingDigits_bounds hm
    rw [roundMagnitude_eq hm, roundMagnitude_eq hn]
    rcases Nat.lt_or_eq_of_le (log2_mono h hm) with hlt | heq
    · -- The significand of the smaller number may be rounded up to the next power of two.
      omega
    · have hdigits := leadingDigits_mono heq h
      omega

theorem log2_le_of_lt (h : m < 2 ^ 53) : m.log2 ≤ 52 := by
  by_cases hm : m = 0
  · rw [hm]
    decide
  · exact Nat.le_of_lt_succ ((Nat.log2_lt hm).mpr h)

theorem roundMagnitude_lt (hm : m < 2 ^ 53) (h : m < n) :
    roundMagnitude m 1 < roundMagnitude n 1 := by
  have hn : n ≠ 0 := by omega
  by_cases hzero : m = 0
  · rw [hzero, roundMagnitude, if_pos rfl]
    exact roundMagnitude_pos hn
  · have hsmall := log2_le_of_lt hm
    have hlow := (leadingDigits_bounds hn).1
    rw [roundMagnitude_eq hzero, roundMagnitude_eq hn]
    rcases Nat.lt_or_eq_of_le (log2_mono h.le hzero) with hlt | heq
    · have hexact : leadingDigits m < 2 ^ 53 := by
        rw [leadingDigits_small hsmall]
        calc m * 2 ^ (52 - m.log2) < 2 ^ (m.log2 + 1) * 2 ^ (52 - m.log2) :=
              Nat.mul_lt_mul_of_pos_right Nat.lt_log2_self (Nat.two_pow_pos _)
          _ = 2 ^ 53 := by rw [← Nat.pow_add, show m.log2 + 1 + (52 - m.log2) = 53 by omega]
      omega
    · have hdigits : leadingDigits m < leadingDigits n := by
        rw [leadingDigits_small hsmall, leadingDigits_small (heq ▸ hsmall), heq]
        exact Nat.mul_lt_mul_of_pos_right h (Nat.two_pow_pos _)
      omega

theorem orderKey_ofInt (i : Int) : (ofInt i).orderKey =
    if i < 0 then -((min (roundMagnitude i.natAbs 1) infinity : Nat) : Int)
    else (min (roundMagnitude i.natAbs 1) infinity : Nat) := by
  simp [ofInt, ofQuotient, ofMagnitude, orderKey]

theorem orderKey_ofInt_mono {i j : Int} (h : i ≤ j) :
    (ofInt i).orderKey ≤ (ofInt j).orderKey := by
  rw [orderKey_ofInt, orderKey_ofInt]
  by_cases hi : i < 0
  · by_cases hj : j < 0
    · have hmono := roundMagnitude_mono (show j.natAbs ≤ i.natAbs by omega)
      rw [if_pos hi, if_pos hj]
      omega
    · rw [if_pos hi, if_neg hj]
      omega
  · have hmono := roundMagnitude_mono (show i.natAbs ≤ j.natAbs by omega)
    rw [if_neg hi, if_neg (by omega)]
    omega

theorem ofInt_eq_of_orderKey_eq {i j : Int} (h : (ofInt i).orderKey = (ofInt j).orderKey) :
    ofInt i = ofInt j := by
  have hinfinity : 0 < infinity := by decide
  have hsign : i < 0 ↔ j < 0 := by
    have hi := fun hi : i < 0 => roundMagnitude_pos (show i.natAbs ≠ 0 by omega)
    have hj := fun hj : j < 0 => roundMagnitude_pos (show j.natAbs ≠ 0 by omega)
    rw [orderKey_ofInt, orderKey_ofInt] at h
    split at h
    · have hpos := hi ‹_›
      split at h <;> omega
    · split at h
      · have hpos := hj ‹_›
        omega
      · omega
  have hmagnitude : min (roundMagnitude i.natAbs 1) infinity =
      min (roundMagnitude j.natAbs 1) infinity := by
    rw [orderKey_ofInt, orderKey_ofInt] at h
    simp only [hsign] at h
    split at h <;> omega
  simp [ofInt, ofQuotient, ofMagnitude, hsign, hmagnitude]

theorem roundMagnitude_lt_infinity (hm : m < 2 ^ 53) : roundMagnitude m 1 < infinity := by
  by_cases hzero : m = 0
  · rw [hzero]
    decide
  · have hsmall := log2_le_of_lt hm
    have hhigh := (leadingDigits_bounds hzero).2
    have hinfinity : infinity = 2047 * 2 ^ 52 := rfl
    rw [roundMagnitude_eq hzero, hinfinity]
    omega

theorem orderKey_ofInt_lt {i j : Int}
    (hsmall : i.natAbs < 2 ^ 53 ∨ j.natAbs < 2 ^ 53) (h : i < j) :
    (ofInt i).orderKey < (ofInt j).orderKey := by
  have hinfinity : 0 < infinity := by decide
  rw [orderKey_ofInt, orderKey_ofInt]
  by_cases hi : i < 0
  · by_cases hj : j < 0
    · have hj' : j.natAbs < 2 ^ 53 := by omega
      have hlt := roundMagnitude_lt hj' (show j.natAbs < i.natAbs by omega)
      have hfinite := roundMagnitude_lt_infinity hj'
      rw [if_pos hi, if_pos hj]
      omega
    · have hpos := roundMagnitude_pos (show i.natAbs ≠ 0 by omega)
      rw [if_pos hi, if_neg hj]
      omega
  · have hi' : i.natAbs < 2 ^ 53 := by omega
    have hlt := roundMagnitude_lt hi' (show i.natAbs < j.natAbs by omega)
    have hfinite := roundMagnitude_lt_infinity hi'
    rw [if_neg hi, if_neg (by omega)]
    omega

/-- The place of a number in the order of numbers is the place of what a column keeps. -/
theorem orderKey_of_stored {x y : Binary64} (h : x.stored = some y) :
    y.orderKey = x.orderKey := by
  unfold stored at h
  split at h
  · cases h
  · split at h
    · rename_i hzero
      have hmagnitude : x.magnitude = 0 := by simpa [isZero] using hzero
      rw [← Option.some.inj h]
      simp [orderKey, ofMagnitude, hmagnitude]
    · rw [← Option.some.inj h]

theorem isNaN_ofInt (i : Int) : (ofInt i).isNaN = false := by
  simp [ofInt, ofQuotient, ofMagnitude, isNaN]

end QuadStore.Binary64
