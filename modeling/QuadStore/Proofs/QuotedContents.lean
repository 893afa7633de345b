import Mathlib.Data.List.Basic
import QuadStore.Node.Text
import QuadStore.Toml.Scalar

namespace QuadStore

/-- Whether a character stands for itself between quotes. The ends of lines do
only where they are let. -/
structure IsBare (lineEnds : Bool) (c : Char) : Prop where
  ne_quote : c ≠ '"'
  ne_backslash : c ≠ '\\'
  lineEnd : c = '\n' ∨ c = '\r' → lineEnds = true

/-- The letters that may follow a backslash, with the characters that they stand for. -/
def shortEscapes : List (Char × Char) :=
  [('t', '\t'), ('b', '\x08'), ('n', '\n'), ('r', '\r'), ('f', '\x0c'), ('"', '"'), ('\'', '\''),
    ('\\', '\\')]

/-- The letters that announce the number of a character, with the number of its digits. -/
def numberEscapes : List (Char × Nat) :=
  [('u', 4), ('U', 8)]

/-- Whether digits to base sixteen are the number of a character, in the given width. -/
structure IsCharNumber (width : Nat) (ds : List Char) : Prop where
  length : ds.length = width
  digits : ∀ d ∈ ds, Toml.isHexDigit d = true
  valid : (Toml.natOfBase 16 ds).isValidChar

/-- What stands between quotes, and the content that it denotes. -/
inductive Quotes (lineEnds : Bool) : List Char → List Char → Prop
  | nil : Quotes lineEnds [] []
  | bare {c : Char} {q s : List Char} (hc : IsBare lineEnds c) (h : Quotes lineEnds q s) :
      Quotes lineEnds (c :: q) (c :: s)
  | short {e c : Char} {q s : List Char} (he : (e, c) ∈ shortEscapes) (h : Quotes lineEnds q s) :
      Quotes lineEnds ('\\' :: e :: q) (c :: s)
  | number {e : Char} {width : Nat} {ds q s : List Char} (he : (e, width) ∈ numberEscapes)
      (hds : IsCharNumber width ds) (h : Quotes lineEnds q s) :
      Quotes lineEnds ('\\' :: e :: (ds ++ q)) (Char.ofNat (Toml.natOfBase 16 ds) :: s)

theorem shortEscape_eq {e c c' : Char} (h : (e, c) ∈ shortEscapes) (h' : (e, c') ∈ shortEscapes) :
    c = c' := by
  have hall : ∀ a ∈ shortEscapes, ∀ b ∈ shortEscapes, a.1 = b.1 → a.2 = b.2 := by decide
  exact hall _ h _ h' rfl

theorem numberEscape_eq {e : Char} {m n : Nat} (h : (e, m) ∈ numberEscapes)
    (h' : (e, n) ∈ numberEscapes) : m = n := by
  have hall : ∀ a ∈ numberEscapes, ∀ b ∈ numberEscapes, a.1 = b.1 → a.2 = b.2 := by decide
  exact hall _ h _ h' rfl

theorem shortEscape_ne_numberEscape {e c : Char} {width : Nat} (h : (e, c) ∈ shortEscapes)
    (h' : (e, width) ∈ numberEscapes) : False := by
  have hall : ∀ a ∈ shortEscapes, ∀ b ∈ numberEscapes, a.1 ≠ b.1 := by decide
  exact hall _ h _ h' rfl

namespace Quotes

variable {lineEnds lineEnds' : Bool} {q q' s s' x y : List Char}

theorem unique (h : Quotes lineEnds q s) (h' : Quotes lineEnds' q' s')
    (heq : q ++ '"' :: x = q' ++ '"' :: y) : q = q' ∧ s = s' ∧ x = y := by
  induction h generalizing q' s' with
  | nil =>
      cases h' with
      | nil => exact ⟨rfl, rfl, (List.cons.inj heq).2⟩
      | bare hc _ => exact absurd (List.cons.inj heq).1.symm hc.ne_quote
      | short _ _ => cases (List.cons.inj heq).1
      | number _ _ _ => cases (List.cons.inj heq).1
  | bare hc _ ih =>
      cases h' with
      | nil => exact absurd (List.cons.inj heq).1 hc.ne_quote
      | bare _ h' =>
          obtain ⟨rfl, hrest⟩ := List.cons.inj heq
          obtain ⟨rfl, rfl, rfl⟩ := ih h' hrest
          exact ⟨rfl, rfl, rfl⟩
      | short _ _ => exact absurd (List.cons.inj heq).1 hc.ne_backslash
      | number _ _ _ => exact absurd (List.cons.inj heq).1 hc.ne_backslash
  | short he _ ih =>
      cases h' with
      | nil => cases (List.cons.inj heq).1
      | bare hc _ => exact absurd (List.cons.inj heq).1.symm hc.ne_backslash
      | short he' h' =>
          obtain ⟨rfl, hrest⟩ := List.cons.inj (List.cons.inj heq).2
          obtain rfl := shortEscape_eq he he'
          obtain ⟨rfl, rfl, rfl⟩ := ih h' hrest
          exact ⟨rfl, rfl, rfl⟩
      | number he' _ _ =>
          obtain ⟨rfl, -⟩ := List.cons.inj (List.cons.inj heq).2
          exact (shortEscape_ne_numberEscape he he').elim
  | number he hds _ ih =>
      cases h' with
      | nil => cases (List.cons.inj heq).1
      | bare hc _ => exact absurd (List.cons.inj heq).1.symm hc.ne_backslash
      | short he' _ =>
          obtain ⟨rfl, -⟩ := List.cons.inj (List.cons.inj heq).2
          exact (shortEscape_ne_numberEscape he' he).elim
      | number he' hds' h' =>
          obtain ⟨rfl, hrest⟩ := List.cons.inj (List.cons.inj heq).2
          obtain rfl := numberEscape_eq he he'
          simp only [List.append_eq, List.append_assoc] at hrest
          obtain ⟨rfl, hbehind⟩ := List.append_inj hrest (hds.length.trans hds'.length.symm)
          obtain ⟨rfl, rfl, rfl⟩ := ih h' hbehind
          exact ⟨rfl, rfl, rfl⟩

theorem lineEnds_eq_true (h : Quotes lineEnds q s) (hq : '\n' ∈ q ∨ '\r' ∈ q) :
    lineEnds = true := by
  induction h with
  | nil => simp at hq
  | bare hc _ ih =>
      simp only [List.mem_cons] at hq
      rcases hq with (rfl | hq) | rfl | hq
      · exact hc.lineEnd (.inl rfl)
      · exact ih (.inl hq)
      · exact hc.lineEnd (.inr rfl)
      · exact ih (.inr hq)
  | short he _ ih =>
      have hletter : ∀ a ∈ shortEscapes, '\n' ≠ a.1 ∧ '\r' ≠ a.1 := by decide
      obtain ⟨hline, hreturn⟩ := hletter _ he
      exact ih (by simpa [hline, hreturn] using hq)
  | number he hds _ ih =>
      have hletter : ∀ a ∈ numberEscapes, '\n' ≠ a.1 ∧ '\r' ≠ a.1 := by decide
      obtain ⟨hline, hreturn⟩ := hletter _ he
      have hdigits : '\n' ∉ _ ∧ '\r' ∉ _ :=
        ⟨fun hmem => absurd (hds.digits _ hmem) (by decide),
          fun hmem => absurd (hds.digits _ hmem) (by decide)⟩
      exact ih (by simpa [hline, hreturn, hdigits.1, hdigits.2] using hq)

end Quotes

/-- What a single character of a content is written as. -/
def escapedChar (c : Char) : List Char :=
  if c = '\\' ∨ c = '"' then ['\\', c] else [c]

theorem toList_escapedContent (s : String) :
    (escapedContent s).toList = s.toList.flatMap escapedChar := by
  unfold escapedContent
  rw [String.toList_ofList, List.flatMap_assoc]
  congr 1
  funext c
  by_cases hbackslash : c = '\\'
  · subst hbackslash
    rfl
  · by_cases hquote : c = '"'
    · subst hquote
      rfl
    · simp [marked, escapedChar, hbackslash, hquote]

theorem mem_flatMap_escapedChar {c : Char} (hc : c ≠ '\\') (s : List Char) :
    c ∈ s.flatMap escapedChar ↔ c ∈ s := by
  have hone : ∀ d, c ∈ escapedChar d ↔ c = d := by
    intro d
    unfold escapedChar
    split <;> simp [hc]
  simp [List.mem_flatMap, hone]

theorem escapedChar_quotes {lineEnds : Bool} {c : Char} {q s : List Char}
    (hc : c = '\n' ∨ c = '\r' → lineEnds = true) (h : Quotes lineEnds q s) :
    Quotes lineEnds (escapedChar c ++ q) (c :: s) := by
  unfold escapedChar
  split
  · rename_i hescaped
    rcases hescaped with rfl | rfl
    · exact .short (by decide) h
    · exact .short (by decide) h
  · rename_i hplain
    obtain ⟨hbackslash, hquote⟩ := not_or.mp hplain
    exact .bare ⟨hquote, hbackslash, hc⟩ h

/-- A content is written such that it is denoted, if its ends of lines may
stand for themselves. -/
theorem flatMap_escapedChar_quotes {lineEnds : Bool} {s : List Char}
    (h : '\n' ∈ s ∨ '\r' ∈ s → lineEnds = true) : Quotes lineEnds (s.flatMap escapedChar) s := by
  induction s with
  | nil => exact .nil
  | cons c s ih =>
      rw [List.flatMap_cons]
      refine escapedChar_quotes (fun hc => h ?_) (ih fun hs => h ?_)
      · rcases hc with rfl | rfl <;> simp
      · exact hs.imp (List.mem_cons_of_mem _) (List.mem_cons_of_mem _)

end QuadStore
