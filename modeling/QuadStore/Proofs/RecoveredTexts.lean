import Mathlib.Data.List.Basic
import QuadStore.Proofs.NumberedTexts

/-!
Reading things back from their texts. A thing can be told from its text when the text shows where
it ends; this passes from parts to pairs and to series with separators.
-/

namespace QuadStore

/-- Whether a character may stand in a name: it is none of those that end a name in a text or that
a placeholder begins with. -/
def isWordChar (c : Char) : Bool :=
  !([' ', '\n', '.', ',', '?'].contains c)

/-- Whether a text is a name. -/
def IsWord (s : String) : Prop :=
  s ≠ "" ∧ ∀ c ∈ s.toList, isWordChar c = true

instance : DecidablePred IsWord := fun s =>
  decidable_of_iff (s ≠ "" ∧ s.toList.all isWordChar = true)
    (and_congr_right fun _ => List.all_eq_true)

theorem isWordChar_of_isAlphanum {c : Char} (h : c.isAlphanum = true ∨ c = '_') :
    isWordChar c = true := by
  by_contra hc
  simp only [isWordChar, List.contains_eq_mem, List.mem_cons, List.not_mem_nil, or_false,
    Bool.not_eq_true', decide_eq_false_iff_not, not_not] at hc
  rcases hc with rfl | rfl | rfl | rfl | rfl <;> revert h <;> decide

/-- Whether a text goes on with neither a name nor any of the given openings. -/
def Stops (openings : List String) (r : List Char) : Prop :=
  (∀ c ∈ r.head?, isWordChar c = false) ∧ ∀ o ∈ openings, ¬ o.toList <+: r

/-- Whether a text ends a name and differs from the given openings while both go on. -/
def breaks (openings : List String) (s : String) : Bool :=
  (s.toList.head?.any fun c => !isWordChar c) &&
    openings.all fun o => (o.toList.zip s.toList).any fun e => e.1 ≠ e.2

section

variable {openings openings' : List String} {r : List Char}

theorem Stops.mono (h : Stops openings r) (hsub : openings' ⊆ openings) : Stops openings' r :=
  ⟨h.1, fun o ho => h.2 o (hsub ho)⟩

theorem not_prefix_of_differs {o s : List Char} (h : (o.zip s).any (fun e => e.1 ≠ e.2) = true)
    (r : List Char) : ¬ o <+: s ++ r := by
  induction o generalizing s with
  | nil => simp at h
  | cons c o ih =>
      cases s with
      | nil => simp at h
      | cons c' s =>
          intro hstarts
          obtain ⟨rfl, hrest⟩ := List.cons_prefix_cons.mp hstarts
          exact ih (by simpa using h) hrest

theorem stops_of_breaks {s : String} (h : breaks openings s = true) (r : List Char) :
    Stops openings (s.toList ++ r) := by
  obtain ⟨hhead, hall⟩ := Bool.and_eq_true_iff.mp h
  refine ⟨?_, fun o ho => not_prefix_of_differs (List.all_eq_true.mp hall o ho) r⟩
  cases hs : s.toList with
  | nil => simp [hs] at hhead
  | cons c rest => simpa [hs] using hhead

theorem not_stops_of_mem {s : String} (h : s ∈ openings) (r : List Char) :
    ¬ Stops openings (s.toList ++ r) :=
  fun hstops => hstops.2 s h (List.prefix_append _ _)

/-- Whether a text goes on with a name. -/
def StartsWord (r : List Char) : Prop :=
  ∃ s, IsWord s ∧ s.toList <+: r

theorem IsWord.starts {s : String} (h : IsWord s) (r : List Char) : StartsWord (s.toList ++ r) :=
  ⟨s, h, List.prefix_append _ _⟩

theorem StartsWord.not_stops (h : StartsWord r) (openings : List String) :
    ¬ Stops openings r := by
  intro hstops
  obtain ⟨s, hs, rest, rfl⟩ := h
  cases hchars : s.toList with
  | nil => exact hs.1 (String.toList_inj.mp hchars)
  | cons c chars =>
      have hword := hs.2 c (by simp [hchars])
      rw [hstops.1 c (by simp [hchars])] at hword
      cases hword

theorem append_inj_of_words {s s' : List Char} (hs : ∀ c ∈ s, isWordChar c = true)
    (hs' : ∀ c ∈ s', isWordChar c = true) {r r' : List Char} (hr : Stops [] r) (hr' : Stops [] r')
    (h : s ++ r = s' ++ r') : s = s' ∧ r = r' := by
  induction s generalizing s' with
  | nil =>
      cases s' with
      | nil => exact ⟨rfl, h⟩
      | cons c s' =>
          have hc := hr.1 c (by simp [show r = c :: (s' ++ r') from h])
          rw [hs' c (by simp)] at hc
          cases hc
  | cons c s ih =>
      cases s' with
      | nil =>
          have hc := hr'.1 c (by simp [show r' = c :: (s ++ r) from h.symm])
          rw [hs c (by simp)] at hc
          cases hc
      | cons c' s' =>
          obtain ⟨rfl, hrest⟩ := List.cons.inj h
          obtain ⟨rfl, hr⟩ := ih (fun c hc => hs c (by simp [hc]))
            (fun c hc => hs' c (by simp [hc])) hrest
          exact ⟨rfl, hr⟩

end

namespace Dialect

variable (d : Dialect)

/-- The characters of pieces, with placeholders from number `next` on. -/
def chars (next : Nat) (ps : List Piece) : List Char :=
  (d.fill next ps).flatMap String.toList

@[simp] theorem chars_nil (next : Nat) : d.chars next [] = [] := rfl

@[simp] theorem chars_text (next : Nat) (text : String) (ps : List Piece) :
    d.chars next (.text text :: ps) = text.toList ++ d.chars next ps := by
  simp [chars, fill]

@[simp] theorem chars_param (next : Nat) (value : Int) (ps : List Piece) :
    d.chars next (.param value :: ps) = (d.placeholder next).toList ++ d.chars (next + 1) ps := by
  simp [chars, fill]

theorem chars_append (next : Nat) (ps qs : List Piece) :
    d.chars next (ps ++ qs) = d.chars next ps ++ d.chars (next + (params ps).length) qs := by
  simp [chars, fill_append]

theorem toList_render (q : SelectQuery) : (d.render q).1.toList = d.chars 1 (d.pieces q) := by
  rw [render, String.toList_join, chars]

/-- Things one after the other, with an opening text before the first and separators before the
others; a text of its own stands for none. -/
def series {α : Type} (blank opening separator : String) (f : α → List Piece) :
    List α → List Piece
  | [] => [.text blank]
  | x :: xs => .text opening :: (f x ++ xs.flatMap fun y => .text separator :: f y)

theorem series_cons {α : Type} (blank opening separator : String) (f : α → List Piece) (x : α)
    (xs : List α) : series blank opening separator f (x :: xs) =
      .text opening :: joinWith (.text separator) ((x :: xs).map f) := by
  induction xs generalizing opening x with
  | nil => simp [series, joinWith]
  | cons y ys ih =>
      have hrest := ih separator y
      simp only [series, List.map_cons, joinWith, List.flatMap_cons, List.cons_append] at hrest ⊢
      rw [hrest]

/-- Whether two layouts have the same text and the same numbers. -/
def Alike (d : Dialect) (ps qs : List Piece) : Prop :=
  (∀ next, d.chars next ps = d.chars next qs) ∧ params ps = params qs

namespace Alike

variable {d : Dialect} {ps ps' qs qs' : List Piece}

theorem refl (ps : List Piece) : d.Alike ps ps :=
  ⟨fun _ => rfl, rfl⟩

theorem append (h : d.Alike ps ps') (h' : d.Alike qs qs') : d.Alike (ps ++ qs) (ps' ++ qs') := by
  refine ⟨fun next => ?_, by rw [params_append, params_append, h.2, h'.2]⟩
  rw [chars_append, chars_append, h.1, h.2, h'.1]

theorem after (text : String) (h : d.Alike ps qs) :
    d.Alike (.text text :: ps) (.text text :: qs) :=
  (refl [.text text]).append h

theorem flatMap {α : Type} {f g : α → List Piece} {xs : List α}
    (h : ∀ x ∈ xs, d.Alike (f x) (g x)) :
    d.Alike (xs.flatMap f) (xs.flatMap g) := by
  induction xs with
  | nil => exact refl []
  | cons x xs ih => exact (h x (by simp)).append (ih fun y hy => h y (by simp [hy]))

theorem blank (ps : List Piece) : d.Alike ps (.text "" :: ps) :=
  ⟨fun next => by simp, rfl⟩

theorem series {α : Type} {f g : α → List Piece} {separator : String} (none opening : String)
    {xs : List α} (h : ∀ x ∈ xs, d.Alike (f x) (g x)) :
    d.Alike (series none opening separator f xs) (series none opening separator g xs) := by
  cases xs with
  | nil => exact refl _
  | cons x xs =>
      refine ((h x (by simp)).append (flatMap fun y hy => ?_)).after opening
      exact (h y (by simp [hy])).after separator

theorem joinWith {α : Type} (separator : String) (f : α → List Piece) (xs : List α) :
    d.Alike (joinWith (.text separator) (xs.map f)) (Dialect.series "" "" separator f xs) := by
  cases xs with
  | nil => exact blank []
  | cons x xs =>
      rw [series_cons]
      exact blank _

theorem optional {α : Type} (opening separator : String) (f : α → List Piece) (xs : List α) :
    d.Alike (if xs.isEmpty then []
        else .text opening :: QuadStore.joinWith (.text separator) (xs.map f))
      (Dialect.series "" opening separator f xs) := by
  cases xs with
  | nil => exact blank []
  | cons x xs =>
      rw [series_cons]
      exact refl _

end Alike

/-- Whether a thing can be told from its text and its numbers, whatever follows it in the
permitted ways: equal texts have equally many numbers, of the same thing if the numbers are the
same, and what follows is equal too. -/
def Recovers {α : Type} (valid : α → Prop) (follows : List Char → Prop)
    (f : α → List Piece) : Prop :=
  ∀ ⦃a b : α⦄ ⦃r r' : List Char⦄ (next : Nat), valid a → valid b → follows r → follows r' →
    d.chars next (f a) ++ r = d.chars next (f b) ++ r' →
    (params (f a)).length = (params (f b)).length ∧ (params (f a) = params (f b) → a = b) ∧ r = r'

namespace Recovers

variable {d} {α β : Type} {valid : α → Prop} {valid' : β → Prop}
  {follows follows' : List Char → Prop}
  {f : α → List Piece} {g : β → List Piece}

theorem mono (h : d.Recovers valid follows f) (hfollows : ∀ r, follows' r → follows r) :
    d.Recovers valid follows' f :=
  fun _ _ _ _ next ha hb hr hr' heq => h next ha hb (hfollows _ hr) (hfollows _ hr') heq

theorem congr {f' : α → List Piece} (h : d.Recovers valid follows f)
    (halike : ∀ a, d.Alike (f' a) (f a)) : d.Recovers valid follows f' := by
  intro a b r r' next ha hb hr hr' heq
  rw [(halike a).1, (halike b).1] at heq
  rw [(halike a).2, (halike b).2]
  exact h next ha hb hr hr' heq

theorem comap (h : d.Recovers valid follows f) (e : β → α) (hvalid : ∀ b, valid' b → valid (e b))
    (he : Function.Injective e) : d.Recovers valid' follows fun b => f (e b) := by
  intro a b r r' next ha hb hr hr' heq
  obtain ⟨hcount, hsame, hrest⟩ := h next (hvalid a ha) (hvalid b hb) hr hr' heq
  exact ⟨hcount, fun hparams => he (hsame hparams), hrest⟩

theorem after (text : String) (h : d.Recovers valid follows f) :
    d.Recovers valid follows fun a => .text text :: f a := by
  intro a b r r' next ha hb hr hr' heq
  simp only [chars_text, List.append_assoc] at heq
  exact h next ha hb hr hr' (List.append_cancel_left heq)

theorem pair (hf : d.Recovers valid follows f) (hg : d.Recovers valid' follows' g)
    (hnext : ∀ b next r, valid' b → follows' r → follows (d.chars next (g b) ++ r)) :
    d.Recovers (fun x : α × β => valid x.1 ∧ valid' x.2) follows' fun x => f x.1 ++ g x.2 := by
  rintro ⟨a, c⟩ ⟨b, e⟩ r r' next ⟨ha, hc⟩ ⟨hb, he⟩ hr hr' heq
  simp only [chars_append, List.append_assoc] at heq
  obtain ⟨hcount, hsame, hrest⟩ :=
    hf next ha hb (hnext c _ r hc hr) (hnext e _ r' he hr') heq
  rw [hcount] at hrest
  obtain ⟨hcount', hsame', hend⟩ := hg _ hc he hr hr' hrest
  refine ⟨by simp [params_append, hcount, hcount'], ?_, hend⟩
  intro hparams
  rw [params_append, params_append] at hparams
  obtain ⟨hleft, hright⟩ := List.append_inj hparams hcount
  exact Prod.ext (hsame hleft) (hsame' hright)

theorem list {separator : String} (h : d.Recovers valid follows f)
    (hsep : ∀ r, ¬ follows' (separator.toList ++ r)) (hend : ∀ r, follows' r → follows r)
    (hmore : ∀ r, follows (separator.toList ++ r)) :
    d.Recovers (fun xs : List α => ∀ x ∈ xs, valid x) follows' fun xs =>
      xs.flatMap fun x => .text separator :: f x := by
  have follows_rest : ∀ (xs : List α) next r, follows' r →
      follows (d.chars next (xs.flatMap fun x => .text separator :: f x) ++ r) := by
    intro xs next r hr
    cases xs with
    | nil => exact hend r hr
    | cons x xs => simpa using hmore _
  intro xs
  induction xs with
  | nil =>
      intro ys r r' next _ _ hr hr' heq
      cases ys with
      | nil => exact ⟨rfl, fun _ => rfl, heq⟩
      | cons y ys =>
          simp only [List.flatMap_nil, chars_nil, List.nil_append,
            List.flatMap_cons, List.cons_append, chars_text, List.append_assoc] at heq
          exact absurd (heq ▸ hr) (hsep _)
  | cons x xs ih =>
      intro ys r r' next hxs hys hr hr' heq
      cases ys with
      | nil =>
          simp only [List.flatMap_nil, chars_nil, List.nil_append,
            List.flatMap_cons, List.cons_append, chars_text, List.append_assoc] at heq
          exact absurd (heq.symm ▸ hr') (hsep _)
      | cons y ys =>
          simp only [List.flatMap_cons, List.cons_append, chars_text, chars_append,
            List.append_assoc] at heq
          obtain ⟨hcount, hsame, hrest⟩ := h next (hxs x (by simp)) (hys y (by simp))
            (follows_rest _ _ r hr) (follows_rest _ _ r' hr') (List.append_cancel_left heq)
          rw [hcount] at hrest
          obtain ⟨hcount', hsame', hend⟩ := ih _ (fun z hz => hxs z (by simp [hz]))
            (fun z hz => hys z (by simp [hz])) hr hr' hrest
          simp only [List.flatMap_cons, List.cons_append, params_text, params_append,
            List.length_append, hcount, hcount', true_and]
          refine ⟨fun hparams => ?_, hend⟩
          obtain ⟨hleft, hright⟩ := List.append_inj hparams hcount
          rw [hsame hleft, hsame' hright]

end Recovers

theorem Recovers.series {d : Dialect} {α : Type} {valid : α → Prop}
    {follows follows' : List Char → Prop} {f : α → List Piece} {blank opening separator : String}
    (h : d.Recovers valid follows f)
    (hopen : ∀ a next r r', valid a → follows' r' →
      blank.toList ++ r' ≠ opening.toList ++ (d.chars next (f a) ++ r))
    (hsep : ∀ r, ¬ follows' (separator.toList ++ r)) (hend : ∀ r, follows' r → follows r)
    (hmore : ∀ r, follows (separator.toList ++ r)) :
    d.Recovers (fun xs : List α => ∀ x ∈ xs, valid x) follows'
      (Dialect.series blank opening separator f) := by
  have hpair := ((h.pair (h.list hsep hend hmore) (by
    intro xs next r _ hr
    cases xs with
    | nil => exact hend r hr
    | cons x xs => simpa using hmore _)).after opening)
  intro xs ys r r' next hxs hys hr hr' heq
  cases xs with
  | nil =>
      cases ys with
      | nil => exact ⟨rfl, fun _ => rfl, List.append_cancel_left heq⟩
      | cons y ys =>
          simp only [Dialect.series, chars_text, chars_nil, chars_append, List.append_nil,
            List.append_assoc] at heq
          exact absurd heq (hopen y _ _ r (hys y (by simp)) hr)
  | cons x xs =>
      cases ys with
      | nil =>
          simp only [Dialect.series, chars_text, chars_nil, chars_append, List.append_nil,
            List.append_assoc] at heq
          exact absurd heq.symm (hopen x _ _ r' (hxs x (by simp)) hr')
      | cons y ys =>
          obtain ⟨hcount, hsame, hrest⟩ := hpair (a := (x, xs)) (b := (y, ys)) next
            ⟨hxs x (by simp), fun z hz => hxs z (by simp [hz])⟩
            ⟨hys y (by simp), fun z hz => hys z (by simp [hz])⟩ hr hr' heq
          refine ⟨hcount, fun hparams => ?_, hrest⟩
          obtain ⟨rfl, rfl⟩ := Prod.mk.inj (hsame hparams)
          rfl

/-- What follows a series goes on as its opening does, or as what follows does. -/
theorem stops_series {d : Dialect} {α : Type} {openings : List String}
    {opening separator : String}
    {f : α → List Piece} (hopen : breaks openings opening = true) (xs : List α) (next : Nat)
    {r : List Char} (hr : Stops openings r) :
    Stops openings (d.chars next (series "" opening separator f xs) ++ r) := by
  cases xs with
  | nil => simpa [series] using hr
  | cons x xs =>
      simp only [series, chars_text, List.append_assoc]
      exact stops_of_breaks hopen _

theorem Recovers.clause {d : Dialect} {α : Type} {valid : α → Prop} {openings : List String}
    {f : α → List Piece} (h : d.Recovers valid (Stops openings) f) (opening separator : String)
    (openings' : List String)
    (hopen : opening ∈ openings') (hsep : separator ∈ openings') (hsub : openings ⊆ openings')
    (hmore : breaks openings separator = true) :
    d.Recovers (fun xs : List α => ∀ x ∈ xs, valid x) (Stops openings')
      (Dialect.series "" opening separator f) := by
  refine h.series ?_ (not_stops_of_mem hsep) (fun r hr => hr.mono hsub) (stops_of_breaks hmore)
  intro a next r r' _ hr' heq
  rw [String.toList_empty, List.nil_append] at heq
  exact not_stops_of_mem hopen _ (heq ▸ hr')

theorem Recovers.words {d : Dialect} {α : Type} {valid : α → Prop} {openings : List String}
    {f : α → List Piece} (h : d.Recovers valid (Stops openings) f) (separator : String)
    (openings' : List String)
    (hword : ∀ a next r, valid a → StartsWord (d.chars next (f a) ++ r))
    (hsep : separator ∈ openings') (hsub : openings ⊆ openings')
    (hmore : breaks openings separator = true) :
    d.Recovers (fun xs : List α => ∀ x ∈ xs, valid x) (Stops openings')
      (Dialect.series "" "" separator f) := by
  refine h.series ?_ (not_stops_of_mem hsep) (fun r hr => hr.mono hsub) (stops_of_breaks hmore)
  intro a next r r' ha hr' heq
  rw [String.toList_empty, List.nil_append, List.nil_append] at heq
  exact (hword a next r ha).not_stops openings' (heq ▸ hr')

end Dialect
end QuadStore
