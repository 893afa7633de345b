import Mathlib.Data.String.Basic
import QuadStore.Calendar.Timestamp
import QuadStore.Proofs.CalendarDays
import QuadStore.Proofs.Labels

namespace QuadStore

namespace Text

theorem length_digits_le {width n : Nat} (hpos : 0 < width) (h : n < tenPow width) :
    (digits n).length ≤ width := by
  induction width generalizing n with
  | zero => cases hpos
  | succ width ih =>
      rw [digits]
      split
      · simp
      · rename_i hn
        rw [tenPow_succ] at h
        cases width with
        | zero => 
          have : tenPow 0 = 1 := rfl
          omega
        | succ width =>
            have hrest := ih (n := n / 10) (by omega) (by omega)
            simp only [List.length_append, List.length_singleton]
            omega

theorem length_paddedDigits {width n : Nat} (hpos : 0 < width) (h : n < tenPow width) :
    (paddedDigits width n).length = width := by
  have := length_digits_le hpos h
  simp only [paddedDigits, List.length_append, List.length_replicate]
  omega

theorem isDigit_of_mem_paddedDigits {width n : Nat} {c : Char} (h : c ∈ paddedDigits width n) :
    isDigit c = true := by
  rcases List.mem_append.mp h with h | h
  · rw [List.eq_of_mem_replicate h]
    rfl
  · exact isDigit_of_mem_digits h

theorem natOfDigits_paddedDigits (width n : Nat) : natOfDigits (paddedDigits width n) = n := by
  have zeros : ∀ k, (List.replicate k '0').foldl (fun n c => 10 * n + digitValue c) 0 = 0 := by
    intro k
    induction k with
    | zero => rfl
    | succ k ih => exact ih
  rw [paddedDigits, natOfDigits, List.foldl_append, zeros]
  exact natOfDigits_digits n

end Text

theorem length_le_utf8ByteSize (s : List Char) : s.length ≤ (String.ofList s).utf8ByteSize := by
  rw [String.utf8ByteSize_ofList]
  induction s with
  | nil => exact Nat.zero_le _
  | cons c rest ih => exact Nat.add_le_add ih c.utf8Size_pos

namespace Moment

open Text

variable {width n : Nat} {rest : List Char}

theorem readDigits_paddedDigits (hpos : 0 < width) (h : n < tenPow width) (rest : List Char) :
    readDigits width (paddedDigits width n ++ rest) = .ok (n, rest) := by
  have hlength := length_paddedDigits hpos h
  have htake : (paddedDigits width n ++ rest).take width = paddedDigits width n := by
    rw [List.take_append_of_le_length hlength.ge, List.take_of_length_le hlength.le]
  have hdrop : (paddedDigits width n ++ rest).drop width = rest := by
    rw [List.drop_append_of_le_length hlength.ge,
      List.drop_of_length_le hlength.le, List.nil_append]
  have hall : (paddedDigits width n).all isDigit = true :=
    List.all_eq_true.mpr fun c hc => isDigit_of_mem_paddedDigits hc
  rw [readDigits, htake, hdrop, if_pos hall, natOfDigits_paddedDigits]

theorem readFraction_paddedDigits (h : n < tenPow 9)
    (hrest : ∀ c, rest.head? = some c → isDigit c = false) :
    readFraction ('.' :: paddedDigits 9 n ++ rest) = .ok (n, rest) := by
  have hlength := length_paddedDigits (by decide) h
  have hall : ∀ c ∈ paddedDigits 9 n, isDigit c = true :=
    fun c hc => isDigit_of_mem_paddedDigits hc
  have hnone : rest.takeWhile isDigit = [] ∧ rest.dropWhile isDigit = rest := by
    cases rest with
    | nil => exact ⟨rfl, rfl⟩
    | cons c rest => simp [hrest c rfl]
  have htakeWhile : (paddedDigits 9 n ++ rest).takeWhile isDigit = paddedDigits 9 n := by
    rw [List.takeWhile_append_of_pos hall, hnone.1, List.append_nil]
  have hdropWhile : (paddedDigits 9 n ++ rest).dropWhile isDigit = rest := by
    rw [List.dropWhile_append_of_pos hall, hnone.2]
  have hnonempty : paddedDigits 9 n ≠ [] := by
    rw [← List.length_pos_iff, hlength]
    decide
  have htake : (paddedDigits 9 n ++ List.replicate 9 '0').take 9 = paddedDigits 9 n := by
    rw [List.take_append_of_le_length hlength.ge, List.take_of_length_le hlength.le]
  rw [List.cons_append, readFraction]
  simp only [htakeWhile, hdropWhile, htake, natOfDigits_paddedDigits]
  simp [hnonempty]

theorem readMark_cons {test : Char → Bool} {c : Char} (h : test c = true) (rest : List Char) :
    readMark test (c :: rest) = .ok rest := by
  rw [readMark, if_pos h]

theorem reads_on {α β : Type} {x : Except TimestampError α} {v : α} (h : x = .ok v)
    (f : α → Except TimestampError β) : x >>= f = f v := by
  rw [h]
  rfl

/-- The text of a timestamp in universal time with nine places of a fraction. -/
def timestampText (year month day hour minute second nanos : Nat) : List Char :=
  paddedDigits 4 year ++ '-' :: (paddedDigits 2 month ++ '-' :: (paddedDigits 2 day ++ 'T' ::
    (paddedDigits 2 hour ++ ':' :: (paddedDigits 2 minute ++ ':' :: (paddedDigits 2 second ++
      ('.' :: paddedDigits 9 nanos ++ ['Z']))))))

section

variable {year month day hour minute second nanos : Nat} {m : Moment}

theorem length_timestampText (hyear : year < tenPow 4) (hmonth : month < tenPow 2)
    (hday : day < tenPow 2) (hhour : hour < tenPow 2) (hminute : minute < tenPow 2)
    (hsecond : second < tenPow 2) (hnanos : nanos < tenPow 9) :
    (timestampText year month day hour minute second nanos).length = 30 := by
  have hpos : 0 < 2 := by decide
  simp only [timestampText, List.length_append, List.length_cons, List.length_nil,
    length_paddedDigits (show 0 < 4 by decide) hyear, length_paddedDigits hpos hmonth,
    length_paddedDigits hpos hday, length_paddedDigits hpos hhour,
      length_paddedDigits hpos hminute,
    length_paddedDigits hpos hsecond, length_paddedDigits (show 0 < 9 by decide) hnanos]

theorem readTimestamp_timestampText (hyear : year < 10000)
    (hdate : (⟨year, month, day⟩ : Date).isValid = true)
    (hhour : hour < 24) (hminute : minute < 60)
    (hsecond : second ≤ 60) (hnanos : nanos < 1000000000)
    (hm : ofParts? (secondsOf ⟨year, month, day⟩ hour minute (second - second / 60) - 0)
      (nanos + second / 60 * 1000000000) 0 = some m) :
    readTimestamp (String.ofList (timestampText year month day hour minute second nanos)) =
      .ok m := by
  have htwo : tenPow 2 = 100 := by decide
  have hyear' : year < tenPow 4 := lt_of_lt_of_eq hyear (by decide)
  have hnanos' : nanos < tenPow 9 := lt_of_lt_of_eq hnanos (by decide)
  obtain ⟨-, hmonth, -, hday⟩ := Date.isValid_iff.mp hdate
  have hmonth' : month < tenPow 2 := by
    dsimp only at hmonth
    omega
  have hday' : day < tenPow 2 := by
    have hdays := Date.daysInMonth_le year month
    dsimp only at hday
    omega
  have hsize : ¬(String.ofList
      (timestampText year month day hour minute second nanos)).utf8ByteSize <
      19 := by
    have hhour' : hour < tenPow 2 := by omega
    have hminute' : minute < tenPow 2 := by omega
    have hsecond' : second < tenPow 2 := by omega
    have hlength := length_timestampText hyear' hmonth' hday' hhour' hminute' hsecond' hnanos'
    have hle := length_le_utf8ByteSize (timestampText year month day hour minute second nanos)
    omega
  have hrange : ¬(23 < hour || 59 < minute || 60 < second) = true := by
    simp
    omega
  have pair : ∀ {n : Nat}, n < tenPow 2 → ∀ rest,
      readDigits 2 (paddedDigits 2 n ++ rest) = .ok (n, rest) :=
    fun hn => readDigits_paddedDigits (by decide) hn
  unfold readTimestamp
  rw [if_neg hsize, String.toList_ofList, timestampText]
  refine (reads_on (readDigits_paddedDigits (by decide) hyear' _) _).trans ?_
  refine (reads_on (readMark_cons rfl _) _).trans ?_
  refine (reads_on (pair hmonth' _) _).trans ?_
  refine (reads_on (readMark_cons rfl _) _).trans ?_
  refine (reads_on (pair hday' _) _).trans ?_
  refine (if_neg (by simp [hdate])).trans ?_
  refine (reads_on (readMark_cons rfl _) _).trans ?_
  refine (reads_on (pair (by omega) _) _).trans ?_
  refine (reads_on (readMark_cons rfl _) _).trans ?_
  refine (reads_on (pair (by omega) _) _).trans ?_
  refine (reads_on (readMark_cons rfl _) _).trans ?_
  refine (reads_on (pair (by omega) _) _).trans ?_
  refine (reads_on (readFraction_paddedDigits hnanos' (by rintro c ⟨⟩; rfl)) _).trans ?_
  refine (if_neg hrange).trans ?_
  refine (reads_on (v := ((0 : Int), [])) rfl _).trans ?_
  refine (if_neg (by simp)).trans ?_
  dsimp only
  rw [hm]

end

/-- Whether the year of a moment has four digits in universal time. -/
def InYears (m : Moment) : Prop :=
  0 ≤ m.toUtc.date.year ∧ m.toUtc.date.year ≤ 9999

instance : DecidablePred InYears := fun m =>
  inferInstanceAs (Decidable (0 ≤ m.toUtc.date.year ∧ m.toUtc.date.year ≤ 9999))

/-- Whether a moment can be read back from a column: the year has four digits in universal time,
and a leap second follows the last second of a minute. -/
def InColumn (m : Moment) : Prop :=
  (0 ≤ m.toUtc.date.year ∧ m.toUtc.date.year ≤ 9999) ∧
    (m.nanos < 1000000000 ∨ m.seconds % 60 = 59)

instance : DecidablePred InColumn := fun m =>
  inferInstanceAs (Decidable ((0 ≤ m.toUtc.date.year ∧ m.toUtc.date.year ≤ 9999) ∧
    (m.nanos < 1000000000 ∨ m.seconds % 60 = 59)))

theorem columnText_eq {m : Moment} (hyear : 0 ≤ m.toUtc.date.year ∧ m.toUtc.date.year ≤ 9999) :
    m.columnText = String.ofList (timestampText m.toUtc.date.year.toNat m.toUtc.date.month
      m.toUtc.date.day (m.toUtc.secondOfDay / 3600) (m.toUtc.secondOfDay / 60 % 60)
      (m.toUtc.secondOfDay % 60 + m.nanos / 1000000000) (m.nanos % 1000000000)) := by
  have hnanos : m.toUtc.nanos = m.nanos := rfl
  have hplaces : m.nanos % 1000000000 / tenPow (9 - 9) = m.nanos % 1000000000 := Nat.div_one _
  simp only [columnText, calendarText, yearText, if_pos hyear,
    clockText, fractionText, timestampText, hnanos, hplaces, List.append_assoc, List.cons_append]

theorem readTimestamp_columnText_of_parts {m m' : Moment} (hyear : m.InYears) {second : Nat}
    (hsecond : second = m.toUtc.secondOfDay % 60 + m.nanos / 1000000000)
    (hm : ofParts? (secondsOf m.toUtc.date (m.toUtc.secondOfDay / 3600)
      (m.toUtc.secondOfDay / 60 % 60)
      (second - second / 60)) (m.nanos % 1000000000 + second / 60 * 1000000000) 0 = some m') :
    readTimestamp m.columnText = .ok m' := by
  subst hsecond
  have hday : m.toUtc.secondOfDay < 86400 := by
    simp only [secondOfDay]
    omega
  have hdate : (⟨m.toUtc.date.year.toNat, m.toUtc.date.month, m.toUtc.date.day⟩ : Date) =
      m.toUtc.date := by
    rw [Int.toNat_of_nonneg hyear.1]
  have hyear' := hyear.2
  have hnanos := m.nanos_lt
  rw [columnText_eq hyear]
  apply readTimestamp_timestampText
  · omega
  · rw [hdate]
    exact Date.isValid_ofDays _
  · omega
  · omega
  · omega
  · omega
  · rw [hdate, sub_zero]
    exact hm

theorem readTimestamp_columnText {m : Moment} (h : m.InColumn) :
    readTimestamp m.columnText = .ok m.toUtc := by
  obtain ⟨hyear, hleap⟩ := h
  have hdays : m.toUtc.date.toDays = m.seconds / 86400 := by
    rw [date, Date.toDays_ofDays, localSeconds]
    simp [toUtc]
  have hsecond : (m.toUtc.secondOfDay : Int) = m.seconds % 86400 := by
    simp only [secondOfDay, localSeconds, toUtc]
    omega
  have hnanos := m.nanos_lt
  refine readTimestamp_columnText_of_parts hyear rfl ?_
  have hseconds : secondsOf m.toUtc.date (m.toUtc.secondOfDay / 3600)
      (m.toUtc.secondOfDay / 60 % 60) (m.toUtc.secondOfDay % 60) = m.seconds := by
    rw [secondsOf, hdays]
    omega
  have hplain : m.toUtc.secondOfDay % 60 + m.nanos / 1000000000 -
      (m.toUtc.secondOfDay % 60 + m.nanos / 1000000000) / 60 = m.toUtc.secondOfDay % 60 := by
    omega
  have hrest : m.nanos % 1000000000 + (m.toUtc.secondOfDay % 60 + m.nanos / 1000000000) / 60 *
      1000000000 = m.nanos := by
    omega
  rw [hplain, hrest, hseconds, ofParts?, dif_pos ⟨m.nanos_lt, by decide⟩]
  rfl

theorem exists_readTimestamp_columnText {m : Moment} (hyear : m.InYears) :
    ∃ m', readTimestamp m.columnText = .ok m' := by
  have hnanos := m.nanos_lt
  have hday : m.toUtc.secondOfDay % 60 < 60 := Nat.mod_lt _ (by decide)
  have hparts : m.nanos % 1000000000 + (m.toUtc.secondOfDay % 60 + m.nanos / 1000000000) / 60 *
      1000000000 < 2000000000 := by
    omega
  exact ⟨_, readTimestamp_columnText_of_parts hyear rfl (dif_pos ⟨hparts, by decide⟩)⟩

theorem readTimestamp_ne_ok {c : Char} (hc : isDigit c = false) (rest : List Char) (m : Moment) :
    readTimestamp (String.ofList (c :: rest)) ≠ .ok m := by
  have hyear : readDigits 4 (c :: rest) = .error .invalid := by simp [readDigits, hc]
  unfold readTimestamp
  split
  · rintro ⟨⟩
  · rw [String.toList_ofList, hyear]
    rintro ⟨⟩

/-- Whatever is read from what was written to a column is the same instant in universal time. -/
theorem eq_toUtc_of_readTimestamp {m m' : Moment}
    (hleap : m.nanos < 1000000000 ∨ m.seconds % 60 = 59)
    (h : readTimestamp m.columnText = .ok m') : m' = m.toUtc := by
  by_cases hyear : 0 ≤ m.toUtc.date.year ∧ m.toUtc.date.year ≤ 9999
  · rw [readTimestamp_columnText ⟨hyear, hleap⟩] at h
    exact (Except.ok.inj h).symm
  · -- A sign stands before such a year.
    simp only [columnText, calendarText, yearText, if_neg hyear, List.cons_append] at h
    refine absurd h (readTimestamp_ne_ok ?_ _ _)
    split <;> rfl

end Moment
end QuadStore
