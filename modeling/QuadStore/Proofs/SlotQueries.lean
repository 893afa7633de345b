import QuadStore.Proofs.AnsweredQueries
import QuadStore.Proofs.Removals
import QuadStore.Proofs.UncachedCalls

namespace QuadStore

/-- The id of a variable of a pattern in a statement. -/
def Pattern.valueIn (p : Pattern) (k : StatementKey) (name : String) : Int :=
  ((p.terms.zip k.slots).find? fun e => e.1 = .var name).elim 0 Prod.snd

namespace Pattern

variable {t : Tables} {p : Pattern} {values : String → Int} {r : StatementRow} {k : StatementKey}
  {name : String} {id : Int}

theorem fits_iff : p.Fits t values r ↔
    r.live = true ∧ ∀ e ∈ p.terms.zip r.key.slots, e.1.Allows t values e.2 := by
  obtain ⟨subject, predicate, object, context⟩ := p
  have hslots : r.key.slots = [r.subject, r.predicate, r.object, r.context] := rfl
  constructor
  · rintro ⟨hlive, hs, hp, ho, hc⟩
    refine ⟨hlive, ?_⟩
    cases context with
    | none => simpa [terms, hslots] using ⟨hs, hp, ho⟩
    | some c => simpa [terms, hslots] using ⟨hs, hp, ho, hc c rfl⟩
  · rintro ⟨hlive, hall⟩
    cases context with
    | none =>
        obtain ⟨hs, hp, ho⟩ := by simpa [terms, hslots] using hall
        exact ⟨hlive, hs, hp, ho, by rintro c ⟨⟩⟩
    | some c =>
        obtain ⟨hs, hp, ho, hc⟩ := by simpa [terms, hslots] using hall
        refine ⟨hlive, hs, hp, ho, ?_⟩
        rintro _ ⟨⟩
        exact hc

theorem length_terms_le (p : Pattern) : p.terms.length ≤ 4 := by
  cases hcontext : p.context <;> simp [terms, hcontext]

theorem eq_valueIn (h : ∀ e ∈ p.terms.zip k.slots, e.1.Allows t values e.2)
    (hname : name ∈ p.terms.filterMap PatternTerm.var?) : values name = p.valueIn k name := by
  obtain ⟨term, hterm, hvar⟩ := List.mem_filterMap.mp hname
  obtain rfl : term = .var name := by
    cases term with
    | value n => cases hvar
    | var name' => rw [Option.some.inj hvar]
  obtain ⟨i, hi, hget⟩ := List.getElem_of_mem hterm
  have hslot : i < k.slots.length := lt_of_lt_of_le hi p.length_terms_le
  have hmem : (p.terms[i], k.slots[i]) ∈ p.terms.zip k.slots := by
    rw [← List.getElem_zip]
    exact List.getElem_mem (by simpa using ⟨hi, hslot⟩)
  unfold valueIn
  cases hfind : (p.terms.zip k.slots).find? fun e => e.1 = .var name with
  | none =>
      have hnone := List.find?_eq_none.mp hfind _ hmem
      simp [hget] at hnone
  | some e =>
      have he : e.1 = .var name := by simpa using List.find?_some hfind
      have hallowed := h e (List.mem_of_find?_eq_some hfind)
      rw [he] at hallowed
      exact hallowed.symm

/-- Whether a row matches a pattern depends on nothing but the values that its
variables have in the row. -/
theorem Fits.valueIn (h : p.Fits t values r) : p.Fits t (p.valueIn r.key) r := by
  obtain ⟨hlive, hall⟩ := fits_iff.mp h
  refine fits_iff.mpr ⟨hlive, fun e he => ?_⟩
  have hallowed := hall e he
  obtain ⟨term, id⟩ := e
  cases term with
  | value n => exact hallowed
  | var name =>
      have hname : name ∈ p.terms.filterMap PatternTerm.var? :=
        List.mem_filterMap.mpr ⟨_, (List.of_mem_zip he).1, rfl⟩
      exact Eq.trans hallowed (eq_valueIn hall hname)

theorem find?_zip_var {terms : List PatternTerm} {ids : List Int}
    (hnodup : (terms.filterMap PatternTerm.var?).Nodup) (h : (.var name, id) ∈ terms.zip ids) :
    (terms.zip ids).find? (fun e => e.1 = .var name) = some (.var name, id) := by
  induction terms generalizing ids with
  | nil => simp at h
  | cons term rest ih =>
      cases ids with
      | nil => simp at h
      | cons i ids =>
          rw [List.zip_cons_cons] at h ⊢
          rcases List.mem_cons.mp h with heq | hrest
          · rw [← heq, List.find?_cons_of_pos (by simp)]
          · have hname : name ∈ rest.filterMap PatternTerm.var? :=
              List.mem_filterMap.mpr ⟨_, (List.of_mem_zip hrest).1, rfl⟩
            have hne : term ≠ .var name := by
              rintro rfl
              exact (List.nodup_cons.mp hnodup).1 hname
            have hnodup' : (rest.filterMap PatternTerm.var?).Nodup :=
              hnodup.sublist ((List.sublist_cons_self term rest).filterMap _)
            rw [List.find?_cons_of_neg (by simpa using hne)]
            exact ih hnodup' hrest

theorem valueIn_of_mem (hnodup : (p.terms.filterMap PatternTerm.var?).Nodup)
    (h : (.var name, id) ∈ p.terms.zip k.slots) : p.valueIn k name = id := by
  rw [valueIn, find?_zip_var hnodup h]
  rfl

end Pattern

/-- Whether a pattern has the given nodes in its slots, and variables or any
context in the others. -/
structure Pattern.Asks (p : Pattern) (subject predicate object context : Option Node) : Prop where
  subject : p.subject.node? = subject
  predicate : p.predicate.node? = predicate
  object : p.object.node? = object
  context : p.context.bind PatternTerm.node? = context

namespace Pattern

variable {t : Tables} {p : Pattern}
  {subject predicate object context : Option Node} {r : StatementRow}

theorem Asks.mem_slots (h : p.Asks subject predicate object context) {n : Node}
    (hn : PatternTerm.value n ∈ p.terms) : some n ∈ [subject, predicate, object, context] := by
  obtain ⟨rfl, rfl, rfl, rfl⟩ := h
  simp only [terms, List.mem_append, List.mem_cons, List.not_mem_nil,
    or_false, Option.mem_toList] at hn
  rcases hn with (hn | hn | hn) | hn
  · simp [← hn, PatternTerm.node?]
  · simp [← hn, PatternTerm.node?]
  · simp [← hn, PatternTerm.node?]
  · simp [hn, PatternTerm.node?]

theorem Asks.fits_iff (h : p.Asks subject predicate object context)
    (hnodup : (p.terms.filterMap PatternTerm.var?).Nodup) :
    p.Fits t (p.valueIn r.key) r ↔ t.Matched subject predicate object context r := by
  obtain ⟨rfl, rfl, rfl, rfl⟩ := h
  have allows_iff : ∀ term id, (term, id) ∈ p.terms.zip r.key.slots →
      (term.Allows t (p.valueIn r.key) id ↔ ∀ n ∈ term.node?, t.storedId? n = some id) := by
    intro term id hmem
    cases term with
    | value n => simp [PatternTerm.Allows, PatternTerm.node?]
    | var name => simp [PatternTerm.Allows, PatternTerm.node?, valueIn_of_mem hnodup hmem]
  have hslots : r.key.slots = [r.subject, r.predicate, r.object, r.context] := rfl
  have hs := allows_iff p.subject r.subject (by simp [terms, hslots])
  have hp := allows_iff p.predicate r.predicate (by simp [terms, hslots])
  have ho := allows_iff p.object r.object (by simp [terms, hslots])
  have hc : (∀ term ∈ p.context, term.Allows t (p.valueIn r.key) r.context) ↔
      ∀ n ∈ p.context.bind PatternTerm.node?, t.storedId? n = some r.context := by
    cases hcontext : p.context with
    | none => simp
    | some c => simpa using allows_iff c r.context (by simp [terms, hslots, hcontext])
  constructor
  · rintro ⟨hlive, hs', hp', ho', hc'⟩
    exact ⟨hlive, hs.mp hs', hp.mp hp', ho.mp ho', hc.mp hc'⟩
  · rintro ⟨hlive, hs', hp', ho', hc'⟩
    exact ⟨hlive, hs.mpr hs', hp.mpr hp', ho.mpr ho', hc.mpr hc'⟩

end Pattern

namespace PatternQuery

variable {t : Tables} {p : Pattern} {justifications : Bool}
  {subject predicate object context : Option Node}

/-- The query of one pattern, with nothing else that is asked. -/
def single (p : Pattern) (justifications : Bool) : PatternQuery where
  patterns := [p]
  justifications

theorem varNames_single (p : Pattern) (justifications : Bool) :
    (single p justifications).varNames = p.terms.filterMap PatternTerm.var? := by
  simp [varNames, single]

theorem validate_single (h : "" ∉ p.terms.filterMap PatternTerm.var?) :
    (single p justifications).validate = .ok () := by
  rw [← varNames_single] at h
  unfold validate
  have hnamed : ¬(single p justifications).varNames.contains "" = true := by simpa using h
  rw [if_neg hnamed]
  rfl

theorem solves_single_iff {values : String → Int} {rows : List StatementRow} :
    (single p justifications).Solves t values rows ↔
      ∃ r ∈ t.statements, p.Fits t values r ∧ rows = [r] := by
  constructor
  · rintro ⟨hrows, -, -, -⟩
    obtain _ | ⟨⟨hr, hfits⟩, _ | _⟩ := hrows
    exact ⟨_, hr, hfits, rfl⟩
  · rintro ⟨r, hr, hfits, rfl⟩
    exact ⟨.cons ⟨hr, hfits⟩ .nil, by rintro name n ⟨⟩, by rintro a b ⟨⟩, by rintro name n ⟨⟩⟩

theorem AnsweredBy.single_rows {r : QueryResults} (h : (single p justifications).AnsweredBy t r)
    (hasks : p.Asks subject predicate object context)
    (hnodup : (p.terms.filterMap PatternTerm.var?).Nodup)
    {rows : List StatementRow} (hrows : rows.Nodup)
    (hmem : ∀ row, row ∈ rows ↔ row ∈ t.statements ∧
      t.Matched subject predicate object context row) :
    r.rows.Perm (rows.map fun row =>
      r.varNames.map (p.valueIn row.key) ++ if justifications then [row.id] else []) := by
  obtain ⟨solutions, hdistinct, hsolve, hall, hanswer⟩ := h.rows
  let answer : List StatementRow → List Int := fun solution => solution.flatMap fun row =>
    r.varNames.map (p.valueIn row.key) ++ if justifications then [row.id] else []
  have hsolutions : (solutions.map Prod.snd).Perm (rows.map fun row => [row]) := by
    refine (List.perm_ext_iff_of_nodup hdistinct (hrows.map fun _ _ => List.singleton_inj.mp)).mpr
      fun s => ?_
    rw [List.mem_map, List.mem_map]
    constructor
    · rintro ⟨s, hs, rfl⟩
      obtain ⟨row, hrow, hfits, heq⟩ := solves_single_iff.mp (hsolve s hs)
      exact ⟨row, (hmem row).mpr ⟨hrow, (hasks.fits_iff hnodup).mp hfits.valueIn⟩, heq.symm⟩
    · rintro ⟨row, hrow, rfl⟩
      obtain ⟨hrow, hmatched⟩ := (hmem row).mp hrow
      exact List.mem_map.mp
        (hall _ _ (solves_single_iff.mpr ⟨row, hrow, (hasks.fits_iff hnodup).mpr hmatched, rfl⟩))
  have hanswers : ∀ s ∈ solutions, (single p justifications).answerRow
      r.varNames s = answer s.2 := by
    intro s hs
    obtain ⟨row, -, hfits, heq⟩ := solves_single_iff.mp (hsolve s hs)
    have hvalues : r.varNames.map s.1 = r.varNames.map (p.valueIn row.key) := by
      refine List.map_congr_left fun name hname =>
        Pattern.eq_valueIn (Pattern.fits_iff.mp hfits).2 ?_
      rw [← varNames_single p justifications]
      exact (h.mem_varNames name).mp hname
    have hjustifications : (single p justifications).justifications = justifications := rfl
    simp [answerRow, answer, heq, hvalues, hjustifications]
  calc
    r.rows.Perm (solutions.map ((single p justifications).answerRow r.varNames)) := hanswer
    _ = (solutions.map Prod.snd).map answer := by
      rw [List.map_map]
      exact List.map_congr_left hanswers
    List.Perm _ ((rows.map fun row => [row]).map answer) := hsolutions.map answer
    _ = _ := by simp [answer, Function.comp_def]

theorem allStored_single {r : StatementRow} (hasks : p.Asks subject predicate object context)
    (h : t.Matched subject predicate object context r) :
    (single p justifications).AllStored t := by
  refine ⟨fun p' hp' n hn => ?_, by rintro name n ⟨⟩, by rintro name n ⟨⟩⟩
  obtain rfl : p' = p := List.mem_singleton.mp hp'
  exact h.2.stored (hasks.mem_slots hn)

end PatternQuery

open PatternQuery in
theorem Action.evaluate_single {w w' : Workspace} {p : Pattern} {justifications reorder : Bool}
    {subject predicate object context : Option Node} {r : QueryResults} (hkeyed : w.view.Keyed)
    (href : w.view.Referenced) (h : evaluate (single p justifications) reorder w = .ok r w')
    (hasks : p.Asks subject predicate object context)
    (hnodup : (p.terms.filterMap PatternTerm.var?).Nodup)
    {rows : List StatementRow} (hrows : rows.Nodup)
    (hmem : ∀ row, row ∈ rows ↔
      row ∈ w.view.statements ∧ w.view.Matched subject predicate object context row) :
    r.rows.Perm (rows.map fun row =>
      r.varNames.map (p.valueIn row.key) ++ if justifications then [row.id] else []) := by
  obtain ⟨hanswered, hmissing, -⟩ := evaluate_answers hkeyed href rfl h
  by_cases hstored : (single p justifications).AllStored w.view
  · exact (hanswered hstored).single_rows hasks hnodup hrows hmem
  · have hnone : rows = [] := List.eq_nil_iff_forall_not_mem.mpr fun row hrow =>
      hstored (allStored_single hasks ((hmem row).mp hrow).2)
    rw [hmissing hstored, hnone]
    exact .nil

end QuadStore
