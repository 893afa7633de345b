import Mathlib.Data.Prod.Lex
import Mathlib.Data.List.Lex
import QuadStore.Proofs.MomentTexts

namespace QuadStore

namespace Date

/-- The first day of a month, where months are counted from January of the year zero. -/
def monthStart (n : Int) : Int :=
  toDays ⟨n / 12, (n % 12).toNat + 1, 1⟩

/-- The days of a month, where months are counted from January of the year zero. -/
def monthLength (n : Int) : Nat :=
  daysInMonth (n / 12) ((n % 12).toNat + 1)

/-- The month of a date, counted from January of the year zero. -/
def monthNumber (d : Date) : Int :=
  12 * d.year + d.month - 1

theorem daysBeforeMarch_succ (year : Int) : daysBeforeMarch (year + 1) =
    daysBeforeMarch year + if isLeapYear (year + 1) then 366 else 365 := by
  have hleap : isLeapYear (year + 1) = true ↔
      (year + 1) % 4 = 0 ∧ ((year + 1) % 100 ≠ 0 ∨ (year + 1) % 400 = 0) := by
    simp [isLeapYear]
  simp only [daysBeforeMarch, hleap]
  split <;> omega

theorem monthStart_succ (n : Int) : monthStart (n + 1) = monthStart n + monthLength n := by
  obtain ⟨year, month, hmonth, rfl⟩ : ∃ (year : Int) (month : Nat), month < 12 ∧
      n = 12 * year + month := ⟨n / 12, (n % 12).toNat, by omega, by omega⟩
  have hyear : (12 * year + month : Int) / 12 = year := by omega
  have hrest : ((12 * year + month : Int) % 12).toNat = month := by omega
  have hleap := daysBeforeMarch_succ (year - 1)
  rw [sub_add_cancel] at hleap
  rw [monthStart, monthStart, monthLength, hyear, hrest]
  by_cases hlast : month = 11
  · subst hlast
    have hyear' : (12 * year + (11 : Nat) + 1 : Int) / 12 = year + 1 := by omega
    have hrest' : ((12 * year + (11 : Nat) + 1 : Int) % 12).toNat = 0 := by omega
    rw [hyear', hrest']
    simp [toDays, daysAfterMarch, daysInMonth]
    omega
  · have hyear' : (12 * year + month + 1 : Int) / 12 = year := by omega
    have hrest' : ((12 * year + month + 1 : Int) % 12).toNat = month + 1 := by omega
    rw [hyear', hrest']
    clear hyear hrest hyear' hrest'
    interval_cases month
    case «1» =>
      -- After February the year is the next one.
      simp only [toDays, daysAfterMarch, daysInMonth]
      split at hleap <;> simp [*] <;> omega
    case «11» => exact absurd rfl hlast
    all_goals
      simp [toDays, daysAfterMarch, daysInMonth]
      omega

theorem monthStart_mono {n n' : Int} (h : n ≤ n') : monthStart n ≤ monthStart n' := by
  induction n', h using Int.leInduction with
  | base => exact le_refl _
  | succ k _ ih =>
      rw [monthStart_succ]
      omega

theorem monthStart_monthNumber {d : Date} (h : d.isValid = true) :
    d.toDays = monthStart d.monthNumber + (d.day - 1 : Nat) ∧
    d.day - 1 < monthLength d.monthNumber := by
  obtain ⟨hmonth, hmonth', hday, hday'⟩ := isValid_iff.mp h
  have hyear : d.monthNumber / 12 = d.year := by
    unfold monthNumber
    omega
  have hrest : (d.monthNumber % 12).toNat + 1 = d.month := by
    unfold monthNumber
    omega
  rw [monthStart, monthLength, hyear, hrest]
  simp only [toDays]
  omega

theorem toDays_lt_toDays {d e : Date} (hd : d.isValid = true) (he : e.isValid = true)
    (h : d.year < e.year ∨ d.year = e.year ∧
      (d.month < e.month ∨ d.month = e.month ∧ d.day < e.day)) :
    d.toDays < e.toDays := by
  obtain ⟨hdays, hlength⟩ := monthStart_monthNumber hd
  obtain ⟨hdays', -⟩ := monthStart_monthNumber he
  obtain ⟨hmonth, hmonth', hday, -⟩ := isValid_iff.mp hd
  obtain ⟨hmonthe, hmonthe', -, -⟩ := isValid_iff.mp he
  have hnumber : d.monthNumber < e.monthNumber ∨
      d.monthNumber = e.monthNumber ∧ d.day < e.day := by
    unfold monthNumber
    omega
  rcases hnumber with hlt | ⟨heq, hlt⟩
  · have hstart : monthStart (d.monthNumber + 1) ≤ monthStart e.monthNumber := monthStart_mono hlt
    rw [monthStart_succ] at hstart
    omega
  · rw [hdays, hdays', heq]
    omega

theorem ofDays_lt_ofDays {m n : Int} (h : m < n) :
    (ofDays m).year < (ofDays n).year ∨ (ofDays m).year = (ofDays n).year ∧
      ((ofDays m).month < (ofDays n).month ∨ (ofDays m).month = (ofDays n).month ∧
        (ofDays m).day < (ofDays n).day) := by
  by_contra hnot
  have hle : (ofDays n).toDays ≤ (ofDays m).toDays := by
    by_cases heq : (ofDays n).year = (ofDays m).year ∧ (ofDays n).month = (ofDays m).month ∧
        (ofDays n).day = (ofDays m).day
    · simp only [toDays, heq.1, heq.2.1, heq.2.2, le_refl]
    · exact (toDays_lt_toDays (isValid_ofDays n) (isValid_ofDays m) (by omega)).le
  rw [toDays_ofDays, toDays_ofDays] at hle
  omega

end Date

namespace Text

variable {width m n : Nat}

theorem lt_tenPow_succ (h : n < tenPow (width + 1)) : n / 10 < tenPow width := by
  rw [tenPow_succ] at h
  omega

theorem append_lt_append {xs ys : List Char} (hlength : xs.length = ys.length) (h : xs < ys)
    (us vs : List Char) : xs ++ us < ys ++ vs := by
  induction xs generalizing ys with
  | nil =>
      rw [List.length_eq_zero_iff.mp hlength.symm] at h
      exact absurd h (List.not_lt_nil _)
  | cons x xs ih =>
      cases ys with
      | nil => cases hlength
      | cons y ys =>
          rw [List.cons_append, List.cons_append, List.cons_lt_cons_iff]
          refine (List.cons_lt_cons_iff.mp h).imp id fun ⟨heq, hlt⟩ => ⟨heq, ?_⟩
          exact ih (Nat.succ.inj hlength) hlt

theorem digitChar_lt_digitChar (hn : n < 10) (h : m < n) : digitChar m < digitChar n := by
  rw [Char.lt_def, UInt32.lt_iff_toNat_lt]
  show (digitChar m).toNat < (digitChar n).toNat
  rw [toNat_digitChar hn, toNat_digitChar (h.trans hn)]
  omega

theorem paddedDigits_succ (hpos : 0 < width) (h : n < tenPow (width + 1)) :
    paddedDigits (width + 1) n = paddedDigits width (n / 10) ++ [digitChar (n % 10)] := by
  have hle := length_digits_le hpos (lt_tenPow_succ h)
  rw [paddedDigits, paddedDigits]
  by_cases hn : n < 10
  · have hzero : n / 10 = 0 := by omega
    have hlast : n % 10 = n := by omega
    rw [hzero, hlast, digits, if_pos hn, digits, if_pos (by decide)]
    obtain ⟨k, rfl⟩ : ∃ k, width = k + 1 := ⟨width - 1, by omega⟩
    simp only [List.length_singleton, Nat.add_sub_cancel, List.append_assoc, List.replicate_succ']
    rfl
  · rw [digits, if_neg hn, List.length_append, List.length_singleton, Nat.add_sub_add_right,
      List.append_assoc]

theorem paddedDigits_lt (hpos : 0 < width) (hn : n < tenPow width) (h : m < n) :
    paddedDigits width m < paddedDigits width n := by
  induction width generalizing m n with
  | zero => cases hpos
  | succ width ih =>
      cases width with
      | zero =>
          have hten : n < 10 := hn
          rw [paddedDigits, paddedDigits, digits, if_pos (h.trans hten), digits, if_pos hten]
          exact List.cons_lt_cons_iff.mpr (.inl (digitChar_lt_digitChar hten h))
      | succ width =>
          have hpos' := Nat.succ_pos width
          have hm := h.trans hn
          rw [paddedDigits_succ hpos' hm, paddedDigits_succ hpos' hn]
          rcases Nat.lt_or_eq_of_le (Nat.div_le_div_right (c := 10) h.le) with hlt | heq
          · refine append_lt_append ?_ (ih hpos' (lt_tenPow_succ hn) hlt) _ _
            rw [length_paddedDigits hpos' (lt_tenPow_succ hm),
              length_paddedDigits hpos' (lt_tenPow_succ hn)]
          · rw [heq]
            exact List.append_left_lt (List.cons_lt_cons_iff.mpr
              (.inl (digitChar_lt_digitChar (Nat.mod_lt n (by decide)) (by omega))))

/-- Numbers of given widths, each with the mark that follows it. -/
def fieldsText : List (Nat × Char) → List Nat → List Char
  | (width, mark) :: fields, n :: ns => paddedDigits width n ++ mark :: fieldsText fields ns
  | _, _ => []

/-- Whether the numbers are as many as the fields and fit into their widths. -/
def Fit : List (Nat × Char) → List Nat → Prop
  | (width, _) :: fields, n :: ns => (0 < width ∧ n < tenPow width) ∧ Fit fields ns
  | [], [] => True
  | _, _ => False

theorem fieldsText_lt {fields : List (Nat × Char)} {ms ns : List Nat} (hms : Fit fields ms)
    (hns : Fit fields ns) (h : ms < ns) : fieldsText fields ms < fieldsText fields ns := by
  induction fields generalizing ms ns with
  | nil =>
      cases ns with
      | nil => exact absurd h (List.not_lt_nil _)
      | cons n ns => cases hns
  | cons field fields ih =>
      cases ms with
      | nil => cases hms
      | cons m ms =>
          cases ns with
          | nil => cases hns
          | cons n ns =>
              obtain ⟨⟨hpos, hm⟩, hms⟩ := hms
              obtain ⟨⟨-, hn⟩, hns⟩ := hns
              rcases List.cons_lt_cons_iff.mp h with hlt | ⟨rfl, hlt⟩
              · refine append_lt_append ?_ (paddedDigits_lt hpos hn hlt) _ _
                rw [length_paddedDigits hpos hm, length_paddedDigits hpos hn]
              · exact List.append_left_lt (List.cons_lt_cons_iff.mpr (.inr ⟨rfl, ih hms hns hlt⟩))

theorem length_fieldsText {fields : List (Nat × Char)} {ns : List Nat} (h : Fit fields ns) :
    (fieldsText fields ns).length = (fields.map fun field => field.1 + 1).sum := by
  fun_induction fieldsText fields ns with
  | case1 width mark fields n ns ih =>
      rw [List.length_append, List.length_cons,
        length_paddedDigits h.1.1 h.1.2, ih h.2, List.map_cons,
        List.sum_cons]
      omega
  | case2 fields ns hcons =>
      cases fields with
      | nil => rfl
      | cons field fields =>
          cases ns with
          | nil => cases h
          | cons n ns => exact absurd rfl (hcons _ _ _ _ _ rfl)

theorem toNat_lt_of_mem_fieldsText {fields : List (Nat × Char)} {ns : List Nat} {c : Char}
    (hmarks : ∀ field ∈ fields, field.2.toNat < 128) (h : c ∈ fieldsText fields ns) :
    c.toNat < 128 := by
  fun_induction fieldsText fields ns with
  | case1 width mark fields n ns ih =>
      rcases List.mem_append.mp h with h | h
      · have hdigit := isDigit_of_mem_paddedDigits h
        simp only [isDigit, Bool.and_eq_true, decide_eq_true_eq] at hdigit
        omega
      · rcases List.mem_cons.mp h with rfl | h
        · exact hmarks _ List.mem_cons_self
        · exact ih (fun field hfield => hmarks field (List.mem_cons_of_mem _ hfield)) h
  | case2 => cases h

/-- The bytes of a text. -/
def bytes (s : String) : List UInt8 :=
  s.toUTF8.data.toList

theorem bytes_ofList {s : List Char} (h : ∀ c ∈ s, c.toNat < 128) :
    bytes (String.ofList s) = s.map fun c => c.val.toUInt8 := by
  have hone : ∀ c ∈ s, String.utf8EncodeChar c = [c.val.toUInt8] := fun c hc =>
    String.utf8EncodeChar_eq_singleton (Char.utf8Size_eq_one_iff.mpr
      (UInt32.le_iff_toNat_le.mpr (Nat.le_of_lt_succ (h c hc))))
  rw [bytes, String.toUTF8, String.toByteArray_ofList, List.utf8Encode,
    List.toList_data_toByteArray]
  induction s with
  | nil => rfl
  | cons c s ih =>
      rw [List.flatMap_cons, hone c List.mem_cons_self, List.map_cons, List.singleton_append,
        ih (fun c hc => h c (List.mem_cons_of_mem _ hc)) fun c hc =>
          hone c (List.mem_cons_of_mem _ hc)]

theorem bytes_lt_bytes {s t : List Char} (hs : ∀ c ∈ s, c.toNat < 128)
    (ht : ∀ c ∈ t, c.toNat < 128)
    (h : s < t) : bytes (String.ofList s) < bytes (String.ofList t) := by
  rw [bytes_ofList hs, bytes_ofList ht]
  induction h with
  | nil => exact List.nil_lt_cons _ _
  | @rel x xs y ys hlt =>
      have hx := hs x List.mem_cons_self
      have hy := ht y List.mem_cons_self
      refine List.cons_lt_cons_iff.mpr (.inl (UInt8.lt_iff_toNat_lt.mpr ?_))
      rw [UInt32.toNat_toUInt8, UInt32.toNat_toUInt8]
      have hlt' : x.toNat < y.toNat := hlt
      unfold Char.toNat at hx hy hlt'
      omega
  | cons _ ih =>
      exact List.cons_lt_cons_iff.mpr
        (.inr ⟨rfl, ih (fun c hc => hs c (List.mem_cons_of_mem _ hc))
        fun c hc => ht c (List.mem_cons_of_mem _ hc)⟩)

end Text

namespace Moment

open Text

/-- The instant of a moment: the second, and the nanoseconds since it began. A leap second comes
between the second that it follows and the next one. -/
def instant (m : Moment) : Int ×ₗ Nat :=
  toLex (m.seconds, m.nanos)

theorem instant_lt_iff {a b : Moment} :
    a.instant < b.instant ↔ a.seconds < b.seconds ∨
    a.seconds = b.seconds ∧ a.nanos < b.nanos := by
  rw [instant, instant, Prod.Lex.toLex_lt_toLex]

instance {a b : Moment} : Decidable (a.instant < b.instant) :=
  decidable_of_iff _ instant_lt_iff.symm

/-- What a column shows of a moment: the minute, and the nanoseconds since it began. A leap second
is counted as the second after the one that it follows, be that in the same minute or not. -/
def shown (m : Moment) : Int ×ₗ Int :=
  toLex (m.seconds / 60, m.seconds % 60 * 1000000000 + m.nanos)

theorem shown_lt_iff {a b : Moment} (ha : a.InColumn) (hb : b.InColumn) :
    a.shown < b.shown ↔ a.instant < b.instant := by
  have hnanosa := a.nanos_lt
  have hnanosb := b.nanos_lt
  have hleapa := ha.2
  have hleapb := hb.2
  rw [instant_lt_iff, shown, shown, Prod.Lex.toLex_lt_toLex]
  dsimp only
  omega

theorem shown_eq_iff {a b : Moment} (ha : a.InColumn) (hb : b.InColumn) :
    a.shown = b.shown ↔ a.instant = b.instant := by
  rw [eq_iff_le_not_lt, eq_iff_le_not_lt, ← not_lt, ← not_lt,
    shown_lt_iff hb ha, shown_lt_iff ha hb]

/-- The numbers in the text of a column, from the year to the nanoseconds. -/
def columnFields (m : Moment) : List Nat :=
  [m.toUtc.date.year.toNat, m.toUtc.date.month, m.toUtc.date.day, m.toUtc.secondOfDay / 3600,
    m.toUtc.secondOfDay / 60 % 60, m.toUtc.secondOfDay % 60 + m.nanos / 1000000000,
    m.nanos % 1000000000]

/-- The widths of these numbers and the marks that follow them. -/
def columnLayout : List (Nat × Char) :=
  [(4, '-'), (2, '-'), (2, 'T'), (2, ':'), (2, ':'), (2, '.'), (9, 'Z')]

variable {a b m : Moment}

theorem columnText_eq_fieldsText (h : m.InYears) :
    m.columnText = String.ofList (fieldsText columnLayout m.columnFields) :=
  columnText_eq h

theorem secondOfDay_toUtc (m : Moment) : (m.toUtc.secondOfDay : Int) = m.seconds % 86400 := by
  simp only [secondOfDay, localSeconds, toUtc]
  omega

theorem date_toUtc (m : Moment) : m.toUtc.date = Date.ofDays (m.seconds / 86400) := by
  rw [date, localSeconds]
  simp [toUtc]

theorem fit_columnFields (h : m.InYears) : Fit columnLayout m.columnFields := by
  have hyear := h.2
  have hdate : m.toUtc.date.isValid = true := Date.isValid_ofDays _
  obtain ⟨-, hmonth, -, hday⟩ := Date.isValid_iff.mp hdate
  have hdays := Date.daysInMonth_le m.toUtc.date.year m.toUtc.date.month
  have hsecond := m.secondOfDay_toUtc
  have hnanos := m.nanos_lt
  have htwo : tenPow 2 = 100 := rfl
  have hfour : tenPow 4 = 10000 := rfl
  have hnine : tenPow 9 = 1000000000 := rfl
  simp only [Fit, columnLayout, columnFields, htwo, hfour, hnine, and_true]
  omega

theorem columnFields_lt (ha : a.InYears) (hb : b.InYears) (h : a.shown < b.shown) :
    a.columnFields < b.columnFields := by
  have hyeara := ha.1
  have hyearb := hb.1
  have hseconda := a.secondOfDay_toUtc
  have hsecondb := b.secondOfDay_toUtc
  rw [shown, shown, Prod.Lex.toLex_lt_toLex] at h
  dsimp only at h
  simp only [columnFields, List.cons_lt_cons_iff, date_toUtc, List.lt_irrefl, and_false, or_false]
    at hyeara hyearb ⊢
  by_cases hday : a.seconds / 86400 < b.seconds / 86400
  · have hdate := Date.ofDays_lt_ofDays hday
    omega
  · have heq : a.seconds / 86400 = b.seconds / 86400 := by omega
    rw [heq]
    omega

theorem columnFields_eq (h : a.shown = b.shown) : a.columnFields = b.columnFields := by
  have hseconda := a.secondOfDay_toUtc
  have hsecondb := b.secondOfDay_toUtc
  have hparts := Prod.ext_iff.mp (toLex.injective h)
  dsimp only at hparts
  have hday : a.seconds / 86400 = b.seconds / 86400 := by omega
  simp only [columnFields, date_toUtc, hday, List.cons.injEq, true_and, and_true]
  omega

theorem bytes_columnText_lt (ha : a.InYears) (hb : b.InYears) (h : a.shown < b.shown) :
    bytes a.columnText < bytes b.columnText := by
  have hmarks : ∀ field ∈ columnLayout, field.2.toNat < 128 := by decide
  rw [columnText_eq_fieldsText ha, columnText_eq_fieldsText hb]
  exact bytes_lt_bytes (fun _ => toNat_lt_of_mem_fieldsText hmarks)
    (fun _ => toNat_lt_of_mem_fieldsText hmarks)
    (fieldsText_lt (fit_columnFields ha) (fit_columnFields hb) (columnFields_lt ha hb h))

theorem columnText_eq_of_shown_eq (ha : a.InYears) (hb : b.InYears) (h : a.shown = b.shown) :
    a.columnText = b.columnText := by
  rw [columnText_eq_fieldsText ha, columnText_eq_fieldsText hb, columnFields_eq h]

theorem length_bytes_columnText (h : m.InYears) : (bytes m.columnText).length = 30 := by
  have hmarks : ∀ field ∈ columnLayout, field.2.toNat < 128 := by decide
  rw [columnText_eq_fieldsText h,
    bytes_ofList fun _ => toNat_lt_of_mem_fieldsText hmarks, List.length_map]
  exact length_fieldsText (fit_columnFields h)

theorem columnText_order (ha : a.InYears) (hb : b.InYears) :
    (bytes a.columnText < bytes b.columnText ↔ a.shown < b.shown) ∧
      (a.columnText = b.columnText ↔ a.shown = b.shown) := by
  refine ⟨⟨fun h => ?_, bytes_columnText_lt ha hb⟩,
    ⟨fun h => ?_, columnText_eq_of_shown_eq ha hb⟩⟩
  · rcases lt_trichotomy a.shown b.shown with hlt | heq | hgt
    · exact hlt
    · rw [columnText_eq_of_shown_eq ha hb heq] at h
      exact absurd h (List.lt_irrefl _)
    · exact absurd h (List.lt_asymm (bytes_columnText_lt hb ha hgt))
  · rcases lt_trichotomy a.shown b.shown with hlt | heq | hgt
    · exact absurd (h ▸ bytes_columnText_lt ha hb hlt) (List.lt_irrefl _)
    · exact heq
    · exact absurd (h ▸ bytes_columnText_lt hb ha hgt) (List.lt_irrefl _)

/-- The texts of moments in years of four digits are equally long, whatever the offsets. Where
leap seconds follow the last second of a minute, they come in the order of their bytes as the
instants do, and are equal for equal instants only. -/
theorem columnText_chronological (ha : a.InYears) (hb : b.InYears) :
    (bytes a.columnText).length = 30 ∧ (bytes b.columnText).length = 30 ∧
      (a.InColumn → b.InColumn →
        (bytes a.columnText < bytes b.columnText ↔ a.instant < b.instant) ∧
          (a.columnText = b.columnText ↔ a.instant = b.instant)) := by
  refine ⟨length_bytes_columnText ha, length_bytes_columnText hb, fun hcola hcolb => ?_⟩
  obtain ⟨hlt, heq⟩ := columnText_order ha hb
  exact ⟨hlt.trans (shown_lt_iff hcola hcolb), heq.trans (shown_eq_iff hcola hcolb)⟩

/-- Half a second into the leap second that ended 2016, on a clock where it was already 2017, and
the first second of 2017, on a clock where it was still 2016. -/
theorem leap_second_before_new_year :
    let a : Moment := ⟨1483228799, 1500000000, 3600, by decide, by decide⟩
    let b : Moment := ⟨1483228800, 0, -3600, by decide, by decide⟩
    (a.InYears ∧ b.InYears) ∧ (a.InColumn ∧ b.InColumn) ∧ a.instant < b.instant ∧
      bytes a.columnText < bytes b.columnText ∧ (bytes a.columnText).length = 30 := by
  intro a b
  have hyears : a.InYears ∧ b.InYears := by decide +kernel
  have hcolumns : a.InColumn ∧ b.InColumn := by decide +kernel
  have hlt : a.instant < b.instant := by decide
  obtain ⟨hlength, -, horder⟩ := columnText_chronological hyears.1 hyears.2
  exact ⟨hyears, hcolumns, hlt, (horder hcolumns.1 hcolumns.2).1.mpr hlt, hlength⟩

/-- A clock that is half a minute ahead shows leap seconds in the middle of a minute of universal
time. The column counts them as the second that follows. -/
theorem leap_second_shown_later :
    let a : Moment := ⟨29, 1900000000, 30, by decide, by decide⟩
    let b : Moment := ⟨30, 100000000, 0, by decide, by decide⟩
    let a' : Moment := ⟨29, 1500000000, 30, by decide, by decide⟩
    let b' : Moment := ⟨30, 500000000, 0, by decide, by decide⟩
    (a.InYears ∧ b.InYears ∧ a'.InYears ∧ b'.InYears) ∧
      (a.instant < b.instant ∧ bytes b.columnText < bytes a.columnText) ∧
        a'.instant < b'.instant ∧ a'.columnText = b'.columnText := by
  decide +kernel

end Moment
end QuadStore
