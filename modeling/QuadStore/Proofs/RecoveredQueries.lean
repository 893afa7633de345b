import Mathlib.Data.List.Basic
import QuadStore.Proofs.Labels
import QuadStore.Proofs.RecoveredTexts
import QuadStore.Proofs.ScopedQueries

namespace QuadStore

/-- Whether a column, and so on for the parts of a statement, is called by names only. -/
def Column.Named (c : Column) : Prop :=
  IsWord c.table ∧ IsWord c.name

def Operand.Named : Operand → Prop
  | .column c => c.Named
  | .param _ => True

def Condition.Named (c : Condition) : Prop :=
  c.left.Named ∧ c.right.Named

def Projection.Named (p : Projection) : Prop :=
  p.column.Named ∧ IsWord p.label

def Join.Named (j : Join) : Prop :=
  IsWord j.table ∧ IsWord j.label ∧ ∀ c ∈ j.on, c.Named

def TableRef.Named (s : TableRef) : Prop :=
  IsWord s.table ∧ IsWord s.label ∧ ∀ j ∈ s.joins, j.Named

instance : DecidablePred Column.Named := fun c =>
  inferInstanceAs (Decidable (IsWord c.table ∧ IsWord c.name))

instance : DecidablePred Operand.Named
  | .column c => inferInstanceAs (Decidable c.Named)
  | .param _ => .isTrue trivial

instance : DecidablePred Condition.Named := fun c =>
  inferInstanceAs (Decidable (c.left.Named ∧ c.right.Named))

instance : DecidablePred Projection.Named := fun p =>
  inferInstanceAs (Decidable (p.column.Named ∧ IsWord p.label))

instance : DecidablePred Join.Named := fun j =>
  inferInstanceAs (Decidable (IsWord j.table ∧ IsWord j.label ∧ ∀ c ∈ j.on, c.Named))

instance : DecidablePred TableRef.Named := fun s =>
  inferInstanceAs (Decidable (IsWord s.table ∧ IsWord s.label ∧ ∀ j ∈ s.joins, j.Named))

structure SelectQuery.Named (q : SelectQuery) : Prop where
  projections : ∀ p ∈ q.projections, p.Named
  sources : ∀ s ∈ q.sources, s.Named
  conditions : ∀ c ∈ q.conditions, c.Named
  orderBy : ∀ o ∈ q.orderBy, o.column.Named

namespace Dialect

variable {openings : List String}

theorem recovers_word : plain.Recovers IsWord (Stops []) fun s => [.text s] := by
  intro s s' r r' next hs hs' hr hr' heq
  simp only [chars_text, chars_nil, List.append_nil] at heq
  obtain ⟨hsame, hrest⟩ := append_inj_of_words hs.2 hs'.2 hr hr' heq
  exact ⟨rfl, fun _ => String.toList_inj.mp hsame, hrest⟩

theorem recovers_column : plain.Recovers Column.Named (Stops []) fun c =>
    [.text (plain.column c)] := by
  have h := (recovers_word.pair (recovers_word.after ".") fun s next r _ _ => by
    simpa using stops_of_breaks (s := ".") (by decide) _)
  refine .congr (h.comap (fun c : Column => (c.table, c.name)) (fun c hc => hc) ?_)
    fun c => ⟨fun next => ?_, rfl⟩
  · rintro ⟨table, name⟩ ⟨table', name'⟩ heq
    simpa using heq
  · simp [column, plain]

theorem startsWord_column {c : Column} (hc : c.Named) (rest : String)
    (next : Nat) (ps : List Piece)
    (r : List Char) : StartsWord
    (plain.chars next (.text (plain.column c ++ rest) :: ps) ++ r) := by
  simp only [chars_text, column, String.toList_append, List.append_assoc]
  exact hc.1.starts _

/-- The pieces of the right side of an equation. -/
def operand (d : Dialect) : Operand → List Piece
  | .column c => [.text (d.column c)]
  | .param value => [.param value]

theorem recovers_operand : plain.Recovers Operand.Named (Stops []) (operand plain) := by
  have placeholder_ne : ∀ (c : Column) (next : Nat) (r r' : List Char), c.Named →
      plain.chars next [.text (plain.column c)] ++ r ≠ (plain.placeholder next).toList ++ r' := by
    intro c next r r' hc heq
    have hmark : Stops [] ("?".toList ++ ((Text.natText next).toList ++ r')) :=
      stops_of_breaks (by decide) _
    apply (startsWord_column hc "" next [] r).not_stops []
    rw [String.append_empty, heq]
    simpa [plain] using hmark
  intro a b r r' next ha hb hr hr' heq
  cases a with
  | column c =>
      cases b with
      | column c' =>
          obtain ⟨hcount, hsame, hrest⟩ := recovers_column next ha hb hr hr' heq
          exact ⟨hcount, fun hparams => congrArg Operand.column (hsame hparams), hrest⟩
      | param value' =>
          simp only [operand, chars_param, chars_nil, List.append_nil] at heq
          exact absurd heq (placeholder_ne c next r r' ha)
  | param value =>
      cases b with
      | column c' =>
          simp only [operand, chars_param, chars_nil, List.append_nil] at heq
          exact absurd heq.symm (placeholder_ne c' next r' r hb)
      | param value' =>
          simp only [operand, chars_param, chars_nil, List.append_nil] at heq
          refine ⟨rfl, fun hparams => ?_, List.append_cancel_left heq⟩
          exact congrArg Operand.param (List.cons.inj hparams).1

theorem recovers_condition : plain.Recovers Condition.Named (Stops []) plain.condition := by
  have h := recovers_column.pair (recovers_operand.after " = ") fun o next r _ _ => by
    simpa using stops_of_breaks (s := " = ") (by decide) _
  refine .congr (h.comap (fun c : Condition => (c.left, c.right)) (fun c hc => hc) ?_) ?_
  · rintro ⟨left, right⟩ ⟨left', right'⟩ heq
    simpa using heq
  · rintro ⟨left, right⟩
    cases right with
    | column right => exact ⟨fun next => by simp [condition, operand], rfl⟩
    | param value => exact ⟨fun next => by simp [condition, operand], rfl⟩

theorem startsWord_condition {c : Condition} (hc : c.Named) (next : Nat) (r : List Char) :
    StartsWord (plain.chars next (plain.condition c) ++ r) := by
  obtain ⟨left, right⟩ := c
  cases right with
  | column right =>
      simpa only [condition, String.append_assoc] using
        startsWord_column hc.1 (" = " ++ plain.column right) next [] r
  | param value => exact startsWord_column hc.1 _ next _ r

theorem recovers_projection : plain.Recovers Projection.Named (Stops []) plain.projection := by
  have h := recovers_column.pair (recovers_word.after " AS ") fun s next r _ _ => by
    simpa using stops_of_breaks (s := " AS ") (by decide) _
  refine .congr (h.comap (fun p : Projection => (p.column, p.label)) (fun p hp => hp) ?_)
    fun p => ⟨fun next => ?_, rfl⟩
  · rintro ⟨column, label⟩ ⟨column', label'⟩ heq
    simpa using heq
  · simp [projection, plain]

theorem recovers_orderTerm :
    plain.Recovers (fun o : OrderTerm => o.column.Named) (Stops []) plain.orderTerm := by
  have hdirection : plain.Recovers (fun _ : Bool => True) (Stops [])
      fun ascending => [.text (if ascending then " ASC" else " DESC")] := by
    intro a b r r' next _ _ _ _ heq
    simp only [chars_text, chars_nil, List.append_nil] at heq
    cases a <;> cases b
    · exact ⟨rfl, fun _ => rfl, List.append_cancel_left heq⟩
    · simp at heq
    · simp at heq
    · exact ⟨rfl, fun _ => rfl, List.append_cancel_left heq⟩
  have h := recovers_column.pair hdirection fun ascending next r _ _ => by
    cases ascending
    · simpa using stops_of_breaks (s := " DESC") (by decide) _
    · simpa using stops_of_breaks (s := " ASC") (by decide) _
  refine .congr (h.comap (fun o : OrderTerm => (o.column, o.ascending))
    (fun o ho => ⟨ho, trivial⟩) ?_) fun o => ⟨fun next => ?_, rfl⟩
  · rintro ⟨column, ascending⟩ ⟨column', ascending'⟩ heq
    simpa using heq
  · simp [orderTerm]

theorem recovers_row {α : Type} {valid : α → Prop} {openings : List String} {f : α → List Piece}
    (h : plain.Recovers valid (Stops openings) f) (middle : String)
    (hnext : ∀ a next r, valid a → Stops openings r →
      Stops [] (middle.toList ++ (plain.chars next (f a) ++ r))) :
    plain.Recovers (fun x : String × String × α => IsWord x.1 ∧ IsWord x.2.1 ∧ valid x.2.2)
      (Stops openings) fun x => .text (x.1 ++ " AS " ++ x.2.1 ++ middle) :: f x.2.2 := by
  have hrest := recovers_word.pair (h.after middle) fun a next r ha hr => by
    simpa only [chars_text, List.append_assoc] using hnext a _ r ha hr
  have hall := recovers_word.pair (hrest.after " AS ") fun x next r _ _ => by
    simpa using stops_of_breaks (s := " AS ") (by decide) _
  exact hall.congr fun x => ⟨fun next => by simp, rfl⟩

theorem recovers_on : plain.Recovers (fun cs : List Condition => ∀ c ∈ cs, c.Named)
    (Stops [" AND "]) (series "" "" " AND " plain.condition) :=
  recovers_condition.words " AND " [" AND "] (fun _ next r hc => startsWord_condition hc next r)
    (by simp) (by simp) (by decide)

/-- What introduces a joined table. -/
def joinOpening : String :=
  "\n     INNER JOIN "

/-- A joined table without its introduction. -/
def joined (d : Dialect) (j : Join) : List Piece :=
  .text (j.table ++ " AS " ++ d.quote j.label ++ " ON ") :: series "" "" " AND " d.condition j.on

/-- A table with those joined to it, as a series. -/
def joining (d : Dialect) (s : TableRef) : List Piece :=
  .text (s.table ++ " AS " ++ d.quote s.label ++ "") ::
    series "" joinOpening joinOpening d.joined s.joins

/-- The number of rows that are wanted, as a series of at most one. -/
def limitSeries : Option Nat → List Piece :=
  fun limit => series "" "\nLIMIT " "\nLIMIT " (fun n => [.text (Text.natText n)]) limit.toList

/-- A statement as a sequence of series. -/
def layout (d : Dialect) (q : SelectQuery) : List Piece :=
  .text "SELECT " :: (series "1" "" ", " d.projection q.projections ++
    .text "\nFROM " :: (series "" "" ",\n     " d.joining q.sources ++
      (series "" "\nWHERE " "\n  AND " d.condition q.conditions ++
        (series "" "\nORDER BY " ", " d.orderTerm q.orderBy ++ limitSeries q.limit))))

theorem alike_source (d : Dialect) (s : TableRef) : d.Alike (d.source s) (d.joining s) := by
  have hjoin : ∀ j : Join, d.Alike (d.join j) (.text joinOpening :: d.joined j) := by
    intro j
    have hconditions := Alike.joinWith (d := d) " AND " d.condition j.on
    refine ⟨fun next => ?_, hconditions.2⟩
    simp only [join, joined, joinOpening, conditions, chars_text, String.toList_append,
      List.append_assoc, hconditions.1]
  have hjoins : d.Alike (s.joins.flatMap d.join)
      (series "" joinOpening joinOpening d.joined s.joins) := by
    cases s.joins with
    | nil => exact Alike.blank []
    | cons j js =>
        have hall : ∀ j' ∈ j :: js, d.Alike (d.join j') (.text joinOpening :: d.joined j') :=
          fun j' _ => hjoin j'
        exact Alike.flatMap hall
  refine ⟨fun next => ?_, hjoins.2⟩
  simp only [source, joining, chars_text, String.toList_append, String.toList_empty,
    List.append_nil, hjoins.1]

theorem alike_layout (d : Dialect) (q : SelectQuery) : d.Alike (d.pieces q) (d.layout q) := by
  have hprojections : d.Alike (if q.projections.isEmpty then [.text "1"]
      else joinWith (.text ", ") (q.projections.map d.projection))
      (series "1" "" ", " d.projection q.projections) := by
    cases q.projections with
    | nil => exact Alike.refl _
    | cons p ps =>
        rw [series_cons]
        exact Alike.blank _
  have hsources : d.Alike (joinWith (.text ",\n     ") (q.sources.map d.source))
      (series "" "" ",\n     " d.joining q.sources) := by
    have h := Alike.joinWith (d := d) ",\n     " d.source q.sources
    have h' : d.Alike (series "" "" ",\n     " d.source q.sources)
        (series "" "" ",\n     " d.joining q.sources) :=
      Alike.series "" "" fun s _ => d.alike_source s
    exact ⟨fun next => (h.1 next).trans (h'.1 next), h.2.trans h'.2⟩
  have hconditions := Alike.optional (d := d) "\nWHERE " "\n  AND " d.condition q.conditions
  have horder := Alike.optional (d := d) "\nORDER BY " ", " d.orderTerm q.orderBy
  have hlimit : d.Alike (q.limit.elim [] fun n => [.text ("\nLIMIT " ++ Text.natText n)])
      (limitSeries q.limit) := by
    cases q.limit with
    | none => exact Alike.blank []
    | some n => exact ⟨fun next => by simp [limitSeries, series], rfl⟩
  rw [pieces_eq]
  exact (hprojections.append ((hsources.append (hconditions.append
    (horder.append hlimit))).after "\nFROM ")).after "SELECT "

theorem recovers_joined :
    plain.Recovers Join.Named (Stops [" AND "]) plain.joined := by
  have h := recovers_row recovers_on " ON " fun cs next r _ _ => stops_of_breaks (by decide) _
  refine h.comap (fun j : Join => (j.table, j.label, j.on)) (fun j hj => hj) ?_
  rintro ⟨table, label, on⟩ ⟨table', label', on'⟩ heq
  simpa using heq

theorem recovers_joining :
    plain.Recovers TableRef.Named (Stops [" AND ", joinOpening]) plain.joining := by
  have hjoins := recovers_joined.clause joinOpening joinOpening [" AND ", joinOpening]
    (by simp) (by simp) (by simp) (by decide)
  have h := recovers_row hjoins "" fun js next r _ hr => by
    rw [String.toList_empty, List.nil_append]
    exact stops_series (by decide) js next (hr.mono (by simp))
  refine h.comap (fun s : TableRef => (s.table, s.label, s.joins)) (fun s hs => hs) ?_
  rintro ⟨table, label, joins⟩ ⟨table', label', joins'⟩ heq
  simpa using heq

theorem startsWord_joining {s : TableRef} (hs : s.Named) (next : Nat) (r : List Char) :
    StartsWord (plain.chars next (plain.joining s) ++ r) := by
  simp only [joining, chars_text, String.toList_append, List.append_assoc]
  exact hs.1.starts _

theorem isWord_natText (n : Nat) : IsWord (Text.natText n) := by
  have hdigits : ∀ c ∈ Text.digits n, isWordChar c = true := by
    intro c hc
    have hdigit := Text.isDigit_of_mem_digits hc
    refine isWordChar_of_isAlphanum (.inl ?_)
    simp only [Text.isDigit, Bool.and_eq_true, decide_eq_true_eq] at hdigit
    simp only [Char.isAlphanum, Char.isDigit, Bool.or_eq_true,
      Bool.and_eq_true, decide_eq_true_eq, UInt32.le_iff_toNat_le]
    exact .inr hdigit
  refine ⟨fun hempty => ?_, by simpa [Text.natText] using hdigits⟩
  have hnil : Text.digits n = [] := by
    simpa [Text.natText] using congrArg String.toList hempty
  rw [Text.digits] at hnil
  split at hnil <;> simp at hnil

theorem recovers_limit :
    plain.Recovers (fun _ : Option Nat => True) (Stops ["\nLIMIT "]) limitSeries := by
  have hnumber : plain.Recovers (fun _ : Nat => True) (Stops [])
      fun n => [.text (Text.natText n)] := by
    refine recovers_word.comap Text.natText (fun n _ => isWord_natText n) fun m n heq => ?_
    apply Text.digits_injective
    simpa [Text.natText, String.ofList_inj] using heq
  have h := hnumber.clause "\nLIMIT " "\nLIMIT " ["\nLIMIT "] (by simp) (by simp) (by simp)
    (by decide)
  refine h.comap Option.toList (fun _ _ _ _ => trivial) fun m n heq => ?_
  cases m <;> cases n <;> simp_all

theorem recovers_projections : plain.Recovers (fun ps : List Projection => ∀ p ∈ ps, p.Named)
    (Stops [".", ", "]) (series "1" "" ", " plain.projection) := by
  have one_isWord : IsWord "1" := by decide
  refine recovers_projection.series ?_ (not_stops_of_mem (by simp))
    (fun r hr => hr.mono (by simp)) (stops_of_breaks (by decide))
  intro p next r r' hp hr' heq
  -- a name that begins a column goes on with a point
  simp only [projection, column, chars_text, chars_nil, String.toList_append, String.toList_empty,
    List.nil_append, List.append_nil, List.append_assoc] at heq
  obtain ⟨-, hrest⟩ := append_inj_of_words one_isWord.2 hp.1.1.2 (hr'.mono (by simp))
    (stops_of_breaks (s := ".") (by decide) _) heq
  exact absurd (hrest ▸ hr') (not_stops_of_mem (by simp) _)

theorem recovers_layout : plain.Recovers SelectQuery.Named (fun r => r = []) plain.layout := by
  have hlimit : plain.Recovers (fun _ => True) (fun r => r = []) limitSeries :=
    recovers_limit.mono fun r hr => by
      rw [hr]
      exact ⟨by simp, by simp⟩
  have hend : ∀ openings : List String, (∀ o ∈ openings, o ≠ "") → Stops openings [] := by
    intro openings h
    refine ⟨by simp, fun o ho hstarts => h o ho ?_⟩
    simpa using List.prefix_nil.mp hstarts
  have horder := (recovers_orderTerm.clause "\nORDER BY " ", " ["\nORDER BY ", ", "]
    (by simp) (by simp) (by simp) (by decide)).pair hlimit fun n next r _ hr =>
      stops_series (by decide) _ next (hr ▸ hend _ (by simp))
  have hconditions := (recovers_condition.clause "\nWHERE " "\n  AND " ["\nWHERE ", "\n  AND "]
    (by simp) (by simp) (by simp) (by decide)).pair horder fun x next r _ hr => by
        rw [chars_append, List.append_assoc]
        refine stops_series (by decide) _ next ?_
        exact stops_series (by decide) _ _ (hr ▸ hend _ (by simp))
  have hsources := (recovers_joining.words ",\n     " [" AND ", joinOpening, ",\n     "]
    (fun _ next r hs => startsWord_joining hs next r) (by simp) (by simp) (by decide)).pair
      hconditions fun x next r _ hr => by
        rw [chars_append, chars_append, List.append_assoc, List.append_assoc]
        refine stops_series (by decide) _ next ?_
        refine stops_series (by decide) _ _ ?_
        exact stops_series (by decide) _ _ (hr ▸ hend _ (by simp [joinOpening]))
  have hall := (recovers_projections.pair (hsources.after "\nFROM ") fun x next r _ _ => by
    rw [chars_text, List.append_assoc]
    exact stops_of_breaks (by decide) _).after "SELECT "
  refine hall.comap (fun q : SelectQuery =>
    (q.projections, q.sources, q.conditions, q.orderBy, q.limit)) (fun q hq => ?_) ?_
  · exact ⟨hq.projections, hq.sources, hq.conditions, hq.orderBy, trivial⟩
  · rintro ⟨projections, sources, conditions, orderBy, limit⟩
      ⟨projections', sources', conditions', orderBy', limit'⟩ heq
    simpa using heq

theorem render_inj {q q' : SelectQuery} (hq : q.Named) (hq' : q'.Named)
    (h : plain.render q = plain.render q') : q = q' := by
  obtain ⟨htext, hparams⟩ := Prod.mk.inj h
  have halike := plain.alike_layout q
  have halike' := plain.alike_layout q'
  have hchars : plain.chars 1 (plain.layout q) ++ [] = plain.chars 1 (plain.layout q') ++ [] := by
    rw [List.append_nil, List.append_nil, ← halike.1, ← halike'.1,
      ← toList_render, ← toList_render]
    exact congrArg String.toList htext
  obtain ⟨-, hsame, -⟩ := recovers_layout 1 hq hq' rfl rfl hchars
  apply hsame
  rw [← halike.2, ← halike'.2]
  exact hparams

end Dialect

theorem IsWord.append {s t : String} (hs : IsWord s) (ht : IsWord t) : IsWord (s ++ t) := by
  refine ⟨by simp [hs.1], fun c hc => ?_⟩
  rw [String.toList_append, List.mem_append] at hc
  exact hc.elim (hs.2 c) (ht.2 c)

theorem isWord_patternLabel (i : Nat) : IsWord (patternLabel i) :=
  IsWord.append (by decide) (Dialect.isWord_natText _)

theorem isWord_variableLabel (k : Nat) : IsWord (variableLabel k) :=
  IsWord.append (by decide) (Dialect.isWord_natText _)

theorem isWord_of_mem_columnsOf {table name : String}
    (h : name ∈ columnsOf table) : IsWord name := by
  have hall : ∀ name ∈ columnsOf "nodes" ++ columnsOf "triples", IsWord name := by
    decide
  apply hall
  unfold columnsOf at h ⊢
  split at h
  · exact List.mem_append_left _ h
  · split at h
    · exact List.mem_append_right _ h
    · cases h

namespace ResolvedQuery

variable {q : ResolvedQuery}

theorem isWord_of_mem_tables {table label : String} (h : (table, label) ∈ q.select.tables) :
    IsWord table ∧ IsWord label := by
  have underscore : IsWord "_" := by decide
  rcases mem_tables_iff.mp h with ⟨i, p, -, heq⟩ | ⟨o, -, heq⟩
  · obtain ⟨rfl, rfl⟩ := Prod.mk.inj heq
    exact ⟨by decide, isWord_patternLabel i⟩
  · obtain ⟨rfl, rfl⟩ := Prod.mk.inj heq
    refine ⟨by decide, ?_⟩
    have hletter : IsWord o.slot.letter := by
      cases o.slot <;> decide
    exact (((isWord_patternLabel o.pattern).append underscore).append hletter |>.append
      underscore).append (isWord_variableLabel _)

theorem named_of_declares {c : Column} (h : q.select.Declares c) : c.Named := by
  obtain ⟨table, htable, hname⟩ := h
  exact ⟨(isWord_of_mem_tables htable).2, isWord_of_mem_columnsOf hname⟩

theorem named_of_mem_equations {e : Condition} (he : e ∈ q.select.equations) : e.Named := by
  refine ⟨named_of_declares (declares_equations he (by simp [Condition.columns])), ?_⟩
  cases hright : e.right with
  | column right =>
      exact named_of_declares (declares_equations he (by simp [Condition.columns, hright]))
  | param value => trivial

theorem select_named (q : ResolvedQuery) : q.select.Named where
  projections := by
    intro p hp
    refine ⟨named_of_declares (declares_projections hp), ?_⟩
    rcases List.mem_append.mp hp with hp | hp
    · obtain ⟨entry, -, hp⟩ := List.mem_filterMap.mp hp
      obtain ⟨o, -, rfl⟩ := Option.map_eq_some_iff.mp hp
      exact isWord_variableLabel _
    · simp only [justificationProjections] at hp
      split at hp
      · obtain ⟨entry, -, rfl⟩ := List.mem_map.mp hp
        exact IsWord.append (by decide) (Dialect.isWord_natText _)
      · cases hp
  sources := by
    intro s hs
    have htable : (s.table, s.label) ∈ q.select.tables :=
      List.mem_flatMap.mpr ⟨s, hs, List.mem_cons_self⟩
    obtain ⟨hword, hlabel⟩ := isWord_of_mem_tables htable
    refine ⟨hword, hlabel, fun j hj => ?_⟩
    have hjoined : (j.table, j.label) ∈ q.select.tables :=
      List.mem_flatMap.mpr ⟨s, hs, List.mem_cons_of_mem _ (List.mem_map_of_mem hj)⟩
    obtain ⟨hword', hlabel'⟩ := isWord_of_mem_tables hjoined
    refine ⟨hword', hlabel', fun e he => ?_⟩
    have hjoins : e ∈ s.joins.flatMap Join.on := List.mem_flatMap.mpr ⟨j, hj, he⟩
    exact named_of_mem_equations (List.mem_append_left _ (List.mem_flatMap.mpr ⟨s, hs, hjoins⟩))
  conditions := fun _ he => named_of_mem_equations (List.mem_append_right _ he)
  orderBy := fun _ ho => named_of_declares (declares_orderTerms ho)

theorem select_eq_of_render_eq {q' : ResolvedQuery}
    (h : Dialect.plain.render q.select = Dialect.plain.render q'.select) : q.select = q'.select :=
  Dialect.render_inj q.select_named q'.select_named h

end ResolvedQuery

namespace Dialect

/-- Texts are faithful: placeholders and parameters are those of the equations with numbers, in
the order of the joins, table by table, and then of the other equations; and the text and the
parameters of a statement that is called by names belong to no other such statement. -/
theorem render_faithful :
    (∀ quote q, ∃ parts last, parts.map Prod.snd = q.equations.filter (·.number?.isSome) ∧
      parts.length = (q.equations.filterMap Condition.number?).length ∧
      ∀ placeholder, render ⟨placeholder, quote⟩ q =
        (numbered ⟨placeholder, quote⟩ 1 parts last, q.equations.filterMap Condition.number?)) ∧
    ∀ q q' : SelectQuery, q.Named → q'.Named → plain.render q = plain.render q' → q = q' := by
  refine ⟨fun quote q => ?_, fun q q' hq hq' => render_inj hq hq'⟩
  obtain ⟨parts, last, hparts, htext⟩ := exists_render_eq quote q
  refine ⟨parts, last, hparts, ?_, htext⟩
  rw [← List.length_map Prod.snd, hparts, List.length_filterMap_eq_countP,
    List.countP_eq_length_filter]

/-- The statement for the subjects that have a given object under a given predicate. -/
def subjectsQuery : SelectQuery where
  projections := [⟨⟨"P1_S_V1", "id"⟩, "V1"⟩]
  sources := [⟨"triples", "P1", [⟨"nodes", "P1_S_V1",
    [⟨⟨"P1_S_V1", "id"⟩, .column ⟨"P1", "subject"⟩⟩]⟩]⟩]
  conditions := [⟨⟨"P1", "predicate"⟩, .param 7⟩, ⟨⟨"P1", "object"⟩, .param 5⟩,
    ⟨⟨"P1", "deleted"⟩, .param 0⟩]
  limit := some 10

/-- The compiled query of one pattern has the text of that statement, so it is that statement. -/
theorem subjectsQuery_recovered :
    let q : ResolvedQuery := { patterns := [⟨0, .var "s", .id 7, .id 5, none⟩], limit := some 10 }
    subjectsQuery.Named ∧ plain.render subjectsQuery = plain.render q.select ∧
      subjectsQuery = q.select := by
  have hnamed : subjectsQuery.Named := by
    constructor <;> decide
  have htext : plain.render subjectsQuery = plain.render (ResolvedQuery.select
      { patterns := [⟨0, .var "s", .id 7, .id 5, none⟩], limit := some 10 }) := by
    decide +kernel
  exact ⟨hnamed, htext, render_faithful.2 _ _ hnamed (ResolvedQuery.select_named _) htext⟩

end Dialect
end QuadStore
