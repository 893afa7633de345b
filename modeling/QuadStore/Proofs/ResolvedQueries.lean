import QuadStore.Proofs.CallerOrder
import QuadStore.Proofs.CompiledRows
import QuadStore.Proofs.StoredIds

namespace QuadStore

/-- Whether a term allows an id, when the variables have the given values. -/
def PatternTerm.Allows (t : Tables) (values : String → Int) : PatternTerm → Int → Prop
  | .value n, x => t.storedId? n = some x
  | .var name, x => x = values name

/-- Whether a row matches a pattern, when the variables have the given values. -/
structure Pattern.Fits (t : Tables) (values : String → Int) (p : Pattern) (r : StatementRow) :
    Prop where
  live : r.live = true
  subject : p.subject.Allows t values r.subject
  predicate : p.predicate.Allows t values r.predicate
  object : p.object.Allows t values r.object
  context : ∀ term ∈ p.context, term.Allows t values r.context

/-- Whether all nodes of a pattern are stored. -/
def Pattern.AllStored (t : Tables) (p : Pattern) : Prop :=
  ∀ n, PatternTerm.value n ∈ p.terms → t.storedId? n ≠ none

namespace PatternQuery

/-- Whether the values of the variables and a row for each pattern solve a query. -/
structure Solves (q : PatternQuery) (t : Tables) (values : String → Int)
    (rows : List StatementRow) :
    Prop where
  rows : List.Forall₂ (fun p r => r ∈ t.statements ∧ p.Fits t values r) q.patterns rows
  bindings : ∀ name n, (name, n) ∈ q.bindings → name ∈ q.varNames →
    t.storedId? n = some (values name)
  sameTerms : ∀ a b, Filter.sameTerm a b ∈ q.filters → values a = values b
  sameValues : ∀ name n, Filter.sameValue name n ∈ q.filters → t.storedId? n = some (values name)

/-- Whether the nodes of the patterns, of the values of their variables and of the filters are
stored. -/
structure AllStored (q : PatternQuery) (t : Tables) : Prop where
  patterns : ∀ p ∈ q.patterns, p.AllStored t
  bindings : ∀ name n, (name, n) ∈ q.bindings → name ∈ q.varNames → t.storedId? n ≠ none
  sameValues : ∀ name n, Filter.sameValue name n ∈ q.filters → t.storedId? n ≠ none

end PatternQuery

/-- Whether a term is resolved to another one: a variable to itself, and a
node to its stored id. -/
def PatternTerm.ResolvesTo (t : Tables) : PatternTerm → SlotTerm → Prop
  | .value n, .id id => t.storedId? n = some id
  | .var name, .var name' => name' = name
  | _, _ => False

structure Pattern.ResolvesTo (t : Tables) (p : Pattern) (p' : ResolvedPattern) : Prop where
  subject : p.subject.ResolvesTo t p'.subject
  predicate : p.predicate.ResolvesTo t p'.predicate
  object : p.object.ResolvesTo t p'.object
  context : Option.Rel (PatternTerm.ResolvesTo t) p.context p'.context

/-- Whether the value that a variable is given is resolved to an id. -/
def EntryResolvesTo (t : Tables) (entry : String × Node) (entry' : String × Int) : Prop :=
  entry'.1 = entry.1 ∧ t.storedId? entry.2 = some entry'.2

/-- Whether a query is resolved to another one, which may have the patterns in another order
than they were given in. -/
structure PatternQuery.ResolvesTo (t : Tables) (q : PatternQuery) (given : List ResolvedPattern)
    (q' : ResolvedQuery) : Prop where
  patterns : List.Forall₂ (Pattern.ResolvesTo t) q.patterns given
  indices : given.map ResolvedPattern.index = List.range given.length
  order : q'.patterns.Perm given
  bindings : ∃ named, named.Perm (q.bindings.filter fun e => q.varNames.contains e.1) ∧
    List.Forall₂ (EntryResolvesTo t) named q'.bindings
  extraBindings : q'.extraBindings.Perm (q.bindings.filter fun e => !q.varNames.contains e.1)
  sameTerms : q'.sameTerms = q.filters.filterMap Filter.terms?
  sameValues : List.Forall₂ (EntryResolvesTo t) (q.filters.filterMap Filter.value?) q'.sameValues
  justifications : q'.justifications = q.justifications
  limit : q'.limit = q.limit

variable {t : Tables} {values : String → Int}

theorem PatternTerm.ResolvesTo.allows_iff {term : PatternTerm} {term' : SlotTerm}
    (h : term.ResolvesTo t term') {x : Int} : term'.Allows values x ↔ term.Allows t values x := by
  cases term <;> cases term'
  · rename_i n id
    have hid : t.storedId? n = some id := h
    simp only [SlotTerm.Allows, PatternTerm.Allows, hid, Option.some.injEq]
    exact eq_comm
  · exact h.elim
  · exact h.elim
  · obtain rfl := h
    exact Iff.rfl

theorem Pattern.ResolvesTo.fits_iff {p : Pattern} {p' : ResolvedPattern} (h : p.ResolvesTo t p')
    {r : StatementRow} : p'.Fits values r ↔ p.Fits t values r := by
  have slots_iff : (∀ e ∈ p'.slots, e.2.Allows values (r.slotId e.1)) ↔
      p'.subject.Allows values r.subject ∧ p'.predicate.Allows values r.predicate ∧
        p'.object.Allows values r.object ∧
          ∀ term ∈ p'.context, term.Allows values r.context := by
    simp [ResolvedPattern.slots, StatementRow.slotId, or_imp, forall_and]
  have context_iff : (∀ term ∈ p'.context, term.Allows values r.context) ↔
      ∀ term ∈ p.context, term.Allows t values r.context := by
    have hcontext := h.context
    cases hp : p.context with
    | none =>
        cases hp' : p'.context with
        | none => simp
        | some term' =>
            rw [hp, hp'] at hcontext
            cases hcontext
    | some term =>
        cases hp' : p'.context with
        | none =>
            rw [hp, hp'] at hcontext
            cases hcontext
        | some term' =>
            rw [hp, hp'] at hcontext
            cases hcontext with
            | some hterm => simpa using hterm.allows_iff
  constructor
  · rintro ⟨hlive, hslots⟩
    obtain ⟨hs, hp, ho, hc⟩ := slots_iff.mp hslots
    exact ⟨hlive, h.subject.allows_iff.mp hs, h.predicate.allows_iff.mp hp,
      h.object.allows_iff.mp ho, context_iff.mp hc⟩
  · rintro ⟨hlive, hs, hp, ho, hc⟩
    exact ⟨hlive, slots_iff.mpr ⟨h.subject.allows_iff.mpr hs, h.predicate.allows_iff.mpr hp,
      h.object.allows_iff.mpr ho, context_iff.mpr hc⟩⟩

theorem PatternTerm.ResolvesTo.var_iff {term : PatternTerm} {term' : SlotTerm}
    (h : term.ResolvesTo t term') {name : String} : term' = .var name ↔ term = .var name := by
  cases term <;> cases term'
  · simp
  · exact h.elim
  · exact h.elim
  · obtain rfl := h
    simp

theorem Pattern.ResolvesTo.mem_slots_iff {p : Pattern} {p' : ResolvedPattern}
    (h : p.ResolvesTo t p') {name : String} :
    (∃ slot, (slot, SlotTerm.var name) ∈ p'.slots) ↔ PatternTerm.var name ∈ p.terms := by
  have slots_iff : (∃ slot, (slot, SlotTerm.var name) ∈ p'.slots) ↔
      p'.subject = .var name ∨ p'.predicate = .var name ∨ p'.object = .var name ∨
        p'.context = some (.var name) := by
    simp [ResolvedPattern.slots, exists_or, eq_comm]
  have terms_iff : PatternTerm.var name ∈ p.terms ↔
      p.subject = .var name ∨ p.predicate = .var name ∨ p.object = .var name ∨
        p.context = some (.var name) := by
    simp [Pattern.terms, eq_comm]
  have context_iff : p'.context = some (.var name) ↔ p.context = some (.var name) := by
    have hcontext := h.context
    cases hp : p.context <;> cases hp' : p'.context <;> rw [hp, hp'] at hcontext
    · simp
    · cases hcontext
    · cases hcontext
    · cases hcontext with
      | some hterm => simpa using hterm.var_iff
  rw [slots_iff, terms_iff, h.subject.var_iff, h.predicate.var_iff, h.object.var_iff, context_iff]

theorem forall₂_iff_of_forall₂ {α β γ : Type} {S : α → β → Prop}
    {R : α → γ → Prop} {R' : β → γ → Prop}
    {xs : List α} {ys : List β} {zs : List γ} (h : List.Forall₂ S xs ys)
    (hR : ∀ x y z, S x y → (R x z ↔ R' y z)) : List.Forall₂ R xs zs ↔ List.Forall₂ R' ys zs := by
  induction h generalizing zs with
  | nil => rw [List.forall₂_nil_left_iff, List.forall₂_nil_left_iff]
  | cons hxy _ ih =>
      cases zs with
      | nil => simp
      | cons z zs => rw [List.forall₂_cons, List.forall₂_cons, hR _ _ z hxy, ih]

namespace PatternQuery

variable {q : PatternQuery} {given : List ResolvedPattern} {q' : ResolvedQuery}

theorem mem_varNames_iff {name : String} :
    name ∈ q.varNames ↔ ∃ p ∈ q.patterns, PatternTerm.var name ∈ p.terms := by
  simp only [varNames, List.mem_flatMap, List.mem_filterMap]
  refine exists_congr fun p => and_congr_right fun _ => ?_
  constructor
  · rintro ⟨term, hterm, hname⟩
    cases term with
    | value n => cases hname
    | var name' =>
        cases hname
        exact hterm
  · intro h
    exact ⟨_, h, rfl⟩

theorem mem_termEntries_iff {a b : String} :
    (a, b) ∈ q.filters.filterMap Filter.terms? ↔ Filter.sameTerm a b ∈ q.filters := by
  rw [List.mem_filterMap]
  constructor
  · rintro ⟨f, hf, hab⟩
    cases f <;> cases hab
    exact hf
  · intro h
    exact ⟨_, h, rfl⟩

theorem mem_valueEntries_iff {name : String} {n : Node} :
    (name, n) ∈ q.filters.filterMap Filter.value? ↔ Filter.sameValue name n ∈ q.filters := by
  rw [List.mem_filterMap]
  constructor
  · rintro ⟨f, hf, hab⟩
    cases f <;> cases hab
    exact hf
  · intro h
    exact ⟨_, h, rfl⟩

/-- The variables that a query names are in its patterns. -/
def Closed (q : PatternQuery) : Prop :=
  ∀ f ∈ q.filters, ∀ name ∈ Filter.names f, name ∈ q.varNames

namespace ResolvesTo

theorem length_eq (h : q.ResolvesTo t given q') : q'.patterns.length = q.patterns.length :=
  h.order.length_eq.trans h.patterns.length_eq.symm

theorem mem_varNames_iff (h : q.ResolvesTo t given q') {name : String} :
    name ∈ q'.varNames ↔ name ∈ q.varNames := by
  rw [ResolvedQuery.mem_varNames_iff_slot, PatternQuery.mem_varNames_iff]
  constructor
  · rintro ⟨p', hp', hslot⟩
    obtain ⟨p, hp, hresolved⟩ := exists_mem_of_forall₂ h.patterns.flip (h.order.subset hp')
    exact ⟨p, hp, hresolved.mem_slots_iff.mp hslot⟩
  · rintro ⟨p, hp, hterm⟩
    obtain ⟨p', hp', hresolved⟩ := exists_mem_of_forall₂ h.patterns hp
    exact ⟨p', h.order.symm.subset hp', hresolved.mem_slots_iff.mpr hterm⟩

theorem forall_entries_iff {entries : List (String × Node)} {entries' : List (String × Int)}
    (h : List.Forall₂ (EntryResolvesTo t) entries entries') :
    (∀ e ∈ entries', values e.1 = e.2) ↔ ∀ e ∈ entries, t.storedId? e.2 = some (values e.1) := by
  constructor
  · intro hvalues e he
    obtain ⟨e', he', hname, hid⟩ := exists_mem_of_forall₂ h he
    rw [hid, ← hvalues e' he', hname]
  · intro hvalues e' he'
    obtain ⟨e, he, hname, hid⟩ := exists_mem_of_forall₂ h.flip he'
    have hvalue := hvalues e he
    rw [hid, ← hname] at hvalue
    exact (Option.some.inj hvalue).symm

theorem forall_bindings_iff (h : q.ResolvesTo t given q') :
    (∀ e ∈ q'.bindings, e.1 ∈ q'.varNames → values e.1 = e.2) ↔
      ∀ name n, (name, n) ∈ q.bindings → name ∈ q.varNames →
        t.storedId? n = some (values name) := by
  obtain ⟨named, hperm, hnamed⟩ := h.bindings
  have named_iff : ∀ e, e ∈ named ↔ e ∈ q.bindings ∧ e.1 ∈ q.varNames := by
    intro e
    rw [hperm.mem_iff]
    simp
  have mem_varNames : ∀ e ∈ q'.bindings, e.1 ∈ q'.varNames := by
    intro e' he'
    obtain ⟨e, he, hname, -⟩ := exists_mem_of_forall₂ hnamed.flip he'
    rw [h.mem_varNames_iff, hname]
    exact ((named_iff e).mp he).2
  have drop_names : (∀ e ∈ q'.bindings, e.1 ∈ q'.varNames → values e.1 = e.2) ↔
      ∀ e ∈ q'.bindings, values e.1 = e.2 :=
    forall₂_congr fun e he => ⟨fun hvalue => hvalue (mem_varNames e he), fun hvalue _ => hvalue⟩
  rw [drop_names, forall_entries_iff hnamed]
  constructor
  · intro hvalues name n hn hname
    exact hvalues (name, n) ((named_iff _).mpr ⟨hn, hname⟩)
  · intro hvalues e he
    obtain ⟨hmem, hname⟩ := (named_iff e).mp he
    exact hvalues e.1 e.2 hmem hname

theorem forall_sameTerms_iff (h : q.ResolvesTo t given q') (hclosed : q.Closed) :
    (∀ e ∈ q'.sameTerms, e.1 ∈ q'.varNames → e.2 ∈ q'.varNames → values e.1 = values e.2) ↔
      ∀ a b, Filter.sameTerm a b ∈ q.filters → values a = values b := by
  rw [h.sameTerms]
  constructor
  · intro hvalues a b hab
    refine hvalues (a, b) (mem_termEntries_iff.mpr hab) ?_ ?_
    · exact h.mem_varNames_iff.mpr (hclosed _ hab a (by simp [Filter.names]))
    · exact h.mem_varNames_iff.mpr (hclosed _ hab b (by simp [Filter.names]))
  · rintro hvalues ⟨a, b⟩ hab - -
    exact hvalues a b (mem_termEntries_iff.mp hab)

theorem forall_sameValues_iff (h : q.ResolvesTo t given q') (hclosed : q.Closed) :
    (∀ e ∈ q'.sameValues, e.1 ∈ q'.varNames → values e.1 = e.2) ↔
      ∀ name n, Filter.sameValue name n ∈ q.filters → t.storedId? n = some (values name) := by
  have mem_varNames : ∀ e ∈ q'.sameValues, e.1 ∈ q'.varNames := by
    intro e' he'
    obtain ⟨⟨name, n⟩, he, hname, -⟩ := exists_mem_of_forall₂ h.sameValues.flip he'
    rw [h.mem_varNames_iff, hname]
    exact hclosed _ (mem_valueEntries_iff.mp he) name (by simp [Filter.names])
  have drop_names : (∀ e ∈ q'.sameValues, e.1 ∈ q'.varNames → values e.1 = e.2) ↔
      ∀ e ∈ q'.sameValues, values e.1 = e.2 :=
    forall₂_congr fun e he => ⟨fun hvalue => hvalue (mem_varNames e he), fun hvalue _ => hvalue⟩
  rw [drop_names, forall_entries_iff h.sameValues]
  constructor
  · intro hvalues name n hn
    exact hvalues (name, n) (mem_valueEntries_iff.mpr hn)
  · rintro hvalues ⟨name, n⟩ he
    exact hvalues name n (mem_valueEntries_iff.mp he)

/-- Rows solve a resolved query, with its patterns as they were given, when they
solve the query itself. -/
theorem solves_given_iff (h : q.ResolvesTo t given q') (hclosed : q.Closed)
    {rows : List StatementRow} :
    q'.given.Solves t values rows ↔ q.Solves t values rows := by
  have hgiven : q'.given.patterns = given := ResolvedQuery.pick_callerOrder h.order h.indices
  replace h : q.ResolvesTo t given q'.given := { h with order := .of_eq hgiven }
  have rows_iff : List.Forall₂ (fun p r => r ∈ t.statements ∧
      p.Fits values r) q'.given.patterns rows ↔
      List.Forall₂ (fun p r => r ∈ t.statements ∧ p.Fits t values r) q.patterns rows := by
    rw [hgiven]
    refine (forall₂_iff_of_forall₂ h.patterns fun p p' r hresolved => ?_).symm
    exact and_congr_right fun _ => hresolved.fits_iff.symm
  constructor
  · rintro ⟨hrows, hbindings, hterms, hvalues⟩
    exact ⟨rows_iff.mp hrows, h.forall_bindings_iff.mp hbindings,
      (h.forall_sameTerms_iff hclosed).mp hterms, (h.forall_sameValues_iff hclosed).mp hvalues⟩
  · rintro ⟨hrows, hbindings, hterms, hvalues⟩
    exact ⟨rows_iff.mpr hrows, h.forall_bindings_iff.mpr hbindings,
      (h.forall_sameTerms_iff hclosed).mpr hterms, (h.forall_sameValues_iff hclosed).mpr hvalues⟩

end ResolvesTo
end PatternQuery
end QuadStore
