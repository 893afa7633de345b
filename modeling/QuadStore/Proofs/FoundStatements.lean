import QuadStore.Proofs.AnsweredQueries
import QuadStore.Proofs.ClearedCaches

namespace QuadStore

open Transaction
open LiteralValue (Readable)

/-- Whether a statement has the given nodes in its slots. Without a context it may be in any. -/
structure Statement.HasNodes (u : Statement) (subject predicate object : Node)
    (context : Option Node) :
    Prop where
  subject : u.subject.key = subject.key
  predicate : u.predicate.key = predicate.key
  object : u.object.key = object.key
  context : ∀ n ∈ context, ∃ m ∈ u.context, m.key = n.key

/-- The query of one pattern with the given nodes in its slots. -/
def PatternQuery.fixed (subject predicate object : Node) (context : Option Node)
    (justifications : Bool) : PatternQuery where
  patterns := [⟨.value subject, .value predicate, .value object, context.map .value⟩]
  justifications

namespace Tables.Recorded

variable {t : Tables} {V : LiteralValue → Prop} [LiteralValue.Lasting V] {k : StatementKey}
variable {subject predicate object : Node} {context : Option Node} {uri : String}

variable (h : t.Recorded V) (hsound : t.Sound)
variable (hseats : t.Seats subject predicate object (context.getD (.uri uri)) k)
variable (hlocatable : ∀ n ∈ [subject, predicate, object] ++ context.toList, t.Locatable V n)

include h hsound hseats hlocatable

theorem matchesNodes : k.MatchesNodes t (some subject)
    (some predicate) (some object) context := by
  have found : ∀ {n : Node} {id : Int}, n ∈ [subject, predicate, object] ++ context.toList →
      t.Means n id → t.storedId? n = some id := fun hn hmeans =>
    h.storedId?_of_means hsound (hlocatable _ hn) hmeans
  refine ⟨?_, ?_, ?_, ?_⟩
  · rintro n ⟨⟩
    exact found (by simp) hseats.subject
  · rintro n ⟨⟩
    exact found (by simp) hseats.predicate
  · rintro n ⟨⟩
    exact found (by simp) hseats.object
  · rintro n hn
    obtain rfl : context = some n := hn
    exact found (by simp) hseats.context

theorem hasNodes {u : Statement} (hkey : u.key = k) (hu : t.Presents u) :
    u.HasNodes subject predicate object context := by
  have key_eq : ∀ {n m : Node}, n ∈ [subject, predicate, object] ++ context.toList → m ∈ u.nodes →
      t.Means n m.id → m.key = n.key := fun hn hm hmeans =>
    (h.storedId?_eq_some_iff hsound (hlocatable _ hn) (hu.nodes _ hm)).mp
      (h.storedId?_of_means hsound (hlocatable _ hn) hmeans)
  subst hkey
  obtain ⟨c, hc⟩ := Option.ne_none_iff_exists'.mp hu.context
  refine ⟨key_eq (by simp) (by simp [Statement.nodes]) hseats.subject,
    key_eq (by simp) (by simp [Statement.nodes]) hseats.predicate,
    key_eq (by simp) (by simp [Statement.nodes]) hseats.object, fun n hn => ⟨c, hc, ?_⟩⟩
  obtain rfl : context = some n := hn
  have hcontext := hseats.context
  simp only [Statement.key, hc, Option.map_some, Option.getD_some] at hcontext
  exact key_eq (by simp) (by simp [Statement.nodes, hc]) hcontext

end Tables.Recorded

namespace Transaction

variable {x : Scope}

/-- Whether a transaction finds a statement by some nodes: there is one with these nodes, it is
listed under its id, and a query of one pattern with these nodes has a row. -/
structure Scope.Finds (x : Scope) (subject predicate object : Node)
    (context : Option Node) (id : Int) :
    Prop where
  contained : ∃ y, contains (some subject) (some predicate) (some object) context x = .ok true y
  listed : ∃ found y, perform (Action.listStatements (some subject) (some predicate) (some object)
    context true) x = .ok found y ∧ ∃ u ∈ found, u.id = id ∧
      u.HasNodes subject predicate object context
  queried : ∀ justifications, ∃ r y,
    query (.fixed subject predicate object context justifications) x = .ok r y ∧ r.rows ≠ []

theorem contains_eq_true {subject predicate object context : Option Node} {u : Statement}
    {found : List Statement} {w : Workspace} (hopen : x.closed = false)
    (hlist : Action.listStatements subject predicate object context true x.work = .ok found w)
    (hu : u ∈ found) : ∃ y, contains subject predicate object context x = .ok true y := by
  have hattempt : Action.attempt
      (Action.listStatements subject predicate object context true) x.work =
      .ok (.ok found) w := by
    rw [Action.attempt, hlist]
  refine ⟨{ x with work := w }, ?_⟩
  rw [contains, whileOpen_of_open hopen, bind_of_ok (work_of_ok hattempt)]
  cases found with
  | nil => cases hu
  | cons _ _ => rfl

theorem finds_of_live {k : StatementKey} {id : Int} {uri : String}
    {subject predicate object : Node}
    {context : Option Node} (hopen : x.closed = false) (hgood : x.work.Good)
    (h : x.work.Recorded Readable) (hlegible : x.work.view.Legible)
    (hlive : x.work.view.HasLive k id)
    (hseats : x.work.view.Seats subject predicate object (context.getD (.uri uri)) k)
    (hlocatable : ∀ n ∈ [subject, predicate, object] ++ context.toList,
      x.work.view.Locatable Readable n) : x.Finds subject predicate object context id := by
  have hx : x.work.Offers x.work.view := ⟨hgood, h, rfl⟩
  have hmatch := h.view.matchesNodes hgood.sound hseats hlocatable
  have hlist := Action.listStatements_finds hgood.sound hlegible hlive hmatch
  constructor
  · obtain ⟨found, w, hop, -, u, hu, -⟩ := hlist x.work hx
    exact contains_eq_true hopen hop hu
  · obtain ⟨found, y, hop, u, hu, hid, hkey, hpresents⟩ := perform_delivers hlist hopen hx
    exact ⟨found, y, hop, u, hu, hid,
      h.view.hasNodes hgood.sound hseats hlocatable hkey hpresents⟩
  · intro justifications
    obtain ⟨r, hr, hrlive, rfl, -⟩ := hlive
    have hsolves : (PatternQuery.fixed subject predicate object context justifications).Solves
        x.work.view (fun _ => 0) [r] := by
      refine ⟨.cons ⟨hr, hrlive, ?_, ?_, ?_,
        ?_⟩ .nil, by rintro _ _ ⟨⟩, by rintro _ _ ⟨⟩, by rintro _ _ ⟨⟩⟩
      · exact hmatch.subject subject rfl
      · exact hmatch.predicate predicate rfl
      · exact hmatch.object object rfl
      · intro term hterm
        obtain ⟨n, hn, rfl⟩ := Option.map_eq_some_iff.mp hterm
        exact hmatch.context n hn
    have hstored : (PatternQuery.fixed subject predicate object context justifications).AllStored
        x.work.view := by
      refine ⟨fun p hp n hn => ?_, by rintro _ _ ⟨⟩, by rintro _ _ ⟨⟩⟩
      obtain rfl := List.mem_singleton.mp hp
      have stored : ∀ {id : Int}, x.work.view.storedId? n = some id →
          x.work.view.storedId? n ≠ none :=
        fun hid => by simp [hid]
      simp only [Pattern.terms, List.mem_append, List.mem_cons,
        PatternTerm.value.injEq, List.not_mem_nil,
        or_false, Option.mem_toList, Option.map_eq_some_iff] at hn
      rcases hn with (rfl | rfl | rfl) | ⟨c, rfl, rfl⟩
      · exact stored (hmatch.subject _ rfl)
      · exact stored (hmatch.predicate _ rfl)
      · exact stored (hmatch.object _ rfl)
      · exact stored (hmatch.context _ rfl)
    have hvars : (PatternQuery.fixed subject predicate object context justifications).varNames =
        [] := by
      cases context <;> rfl
    have hvalid : (PatternQuery.fixed subject predicate object context justifications).validate =
        .ok () := by
      cases context <;> rfl
    refine perform_delivers (fun w hw => ?_) hopen hx
    rw [bind_of_ok (a := (get : Action Workspace)) (s := w) rfl]
    exact Action.evaluate_yields hvalid hvars (Nat.le_of_ble_eq_true rfl)
      rfl _ hgood.sound hlegible hsolves hstored w hw

end Transaction

theorem Call.hasLive {c : Call} {x : Scope} (hends : c.ends = false)
    (hremoves : c.removes = false)
    (hgood : x.work.Good) {key : StatementKey} {id : Int} (hlive : x.work.view.HasLive key id) :
    (finalState (c.run x)).work.view.HasLive key id := by
  rcases Call.request_cases hends hremoves hgood with
    ⟨hsilent, -⟩ | ⟨-, ⟨t, hrequested | hadds, -⟩ | ⟨hfails, -⟩⟩
  · exact (Tables.hasLive_congr hsilent.statements).mpr hlive
  · exact (Tables.hasLive_congr hrequested.quiet.statements).mpr hlive
  · obtain ⟨w, t₁, added, hrequested, -, hstored, -⟩ := hadds.stored
    exact hstored.hasLive ((Tables.hasLive_congr hrequested.quiet.statements).mpr hlive)
  · exact (Tables.hasLive_congr hfails.statements).mpr hlive

/-- Whether what happens is that a transaction removes statements. -/
def Event.removesIn (number : Nat) : Event → Bool
  | .call n _ _ c _ => n == number && c.removes
  | .begin | .clearCaches | .evict _ => false

namespace OpenStore

variable {s s' : OpenStore} {log : List Event} {e : Event} {i : Nat} {x : Scope}
variable {t : Tables} {key : StatementKey} {id : Int}

/-- Whether a transaction, unless it has ended, is writing and sees the nodes of some
tables and a live row. -/
def Shows (s : OpenStore) (i : Nat) (t : Tables) (key : StatementKey) (id : Int) : Prop :=
  ∃ x, s.scope? i = some x ∧ (x.closed = false → x.work.conn.writing = true ∧
    (∀ r ∈ t.nodes, r ∈ x.work.view.nodes) ∧ x.work.view.HasLive key id)

theorem Good.shows_step (hs : s.Good) (hstep : s.Step e s') (hkept : e.removesIn i = false)
    (h : s.Shows i t key id) : s'.Shows i t key id := by
  obtain ⟨x, hx, hshown⟩ := h
  obtain ⟨y, hy, hsees⟩ := hs.sees_step hstep hx
  refine ⟨y, hy, fun hopen => ?_⟩
  obtain ⟨hopen', hnodes⟩ := hsees hopen
  obtain ⟨hwriting, hold, hlive⟩ := hshown hopen'
  suffices y.work.conn.writing = true ∧ y.work.view.HasLive key id from
    ⟨this.1, fun r hr => hnodes r (hold r hr), this.2⟩
  cases hother : e.left? i with
  | none =>
      obtain rfl := Option.some.inj (hy.symm.trans (hstep.other hother hx))
      refine ⟨hwriting, ?_⟩
      rwa [Scope.view_within_of_writing hwriting]
  | some left =>
      cases hstep with
      | begin | clearCaches | evict => cases hother
      | call c hz =>
          rename_i j z
          obtain rfl : j = i := by
            by_contra hne
            simp [Event.left?, hne] at hother
          obtain rfl := Option.some.inj (hx.symm.trans hz)
          obtain rfl := Option.some.inj (hy.symm.trans (scope?_put_self hx))
          have hremoves : c.removes = false := by simpa [Event.removesIn] using hkept
          rcases c.run_cases x with
            ⟨hadvances, hends | hsame⟩ |
              ⟨refusal, z, rfl, hop, -, hcommitted⟩ | ⟨-, -, habandoned⟩
          · exact ⟨hadvances.works.writing hwriting,
              Call.hasLive hends hremoves (hs.scopes _ x hx).work hlive⟩
          · rw [hsame]
            exact ⟨hwriting, hlive⟩
          · rw [Call.run, hop] at hopen
            cases hopen.symm.trans hcommitted.closed
          · cases hopen.symm.trans habandoned.closed

theorem Good.shows_run (hs : s.Good) (hrun : s.Run log s')
    (hkept : ∀ e ∈ log, e.removesIn i = false) (h : s.Shows i t key id) : s'.Shows i t key id :=
  hs.run_preserves hrun hkept (fun hgood hstep => hgood.shows_step hstep) h

theorem Readable.added (hs : s.Readable) (hx : s.scope? i = some x)
    {subject predicate object : Node} {context : Option Node} {u : Statement} {y : Scope}
    (hreadable : (Call.add subject predicate object context).ReadableIn x.work.view)
    (hop : Transaction.add subject predicate object context x = .ok u y) :
    (s.put i y).Shows i y.work.view u.key u.id ∧
      ∃ uri, y.work.view.Seats subject predicate object (context.getD (.uri uri)) u.key := by
  have hgood := (hs.good.scopes i x hx).work
  have hadds := (add_eq_ok hgood hop).1
  refine ⟨⟨y, scope?_put_self hx, fun _ => ⟨hadds.writing, fun r hr => hr, hadds.live⟩⟩, ?_⟩
  exact add_seats hgood (hs.recorded.scopes i x hx) hreadable hop

/-- As long as its transaction is open and removes nothing, a statement that was added is found by
the nodes that it was added with, if these can be looked up: those with an id are in their rows,
and the datatype of a new literal is stored. -/
theorem added_is_found (config : Config) {tables : Tables} (hsound : tables.Sound)
    (hrecorded : tables.Recorded LiteralValue.Readable) (hlegible : tables.Legible)
    (registryFile : RegistryFile) (labelStart : String)
    {log log' : List Event} {s s₁ s₂ : OpenStore}
    {i : Nat} {before after : Tables} {subject predicate object : Node} {context : Option Node}
    {u : Statement} {x : Scope}
    (hrun : (opened config tables registryFile labelStart).Run log s)
    (hadd : s.Step (.call i before after (.add subject predicate object context) (.ok u)) s₁)
    (hlater : s₁.Run log' s₂) (hreadable : ∀ e ∈ log ++ log', e.Readable)
    (hlocatable : ∀ n ∈ [subject, predicate, object] ++ context.toList,
      before.Locatable LiteralValue.Readable n)
    (hkept : ∀ e ∈ log', e.removesIn i = false) (hx : s₂.scope? i = some x)
    (hopen : x.closed = false) :
    x.Finds subject predicate object context u.id := by
  rw [List.forall_mem_append] at hreadable
  have hs := (readable_opened config hsound hrecorded hlegible registryFile labelStart).run
    hrun hreadable.1
  obtain ⟨x₀, y, hx₀, rfl, hop, rfl⟩ := hadd.call_eq_ok
  have hcall : (Call.add subject predicate object context).ReadableIn x₀.work.view := by
    refine ⟨fun value hvalue => ?_, fun n hn => (hlocatable n hn).known⟩
    obtain ⟨n, hn, hvalue⟩ := List.mem_filterMap.mp hvalue
    obtain ⟨hnew, hvalue⟩ := Option.ite_none_left_eq_some.mp hvalue
    obtain ⟨l, hl, rfl⟩ := Option.map_eq_some_iff.mp hvalue
    exact ((hlocatable n hn).fits (by simpa using hnew) l (Node.term_of_literal? hl)).1
  obtain ⟨hshows, uri, hseats⟩ := hs.added hx₀ hcall hop
  have hs₁ := hs.step hadd hcall
  have hs₂ := hs₁.run hlater hreadable.2
  obtain ⟨x', hx', hshown⟩ := hs₁.good.shows_run hlater hkept hshows
  obtain rfl := Option.some.inj (hx.symm.trans hx')
  obtain ⟨-, hnodes, hlive⟩ := hshown hopen
  have hgood := (hs₂.good.scopes i x hx).work
  have hadvances : Advances x₀ y := (add_advances subject predicate object context).ok hop
  have hbefore : ∀ r ∈ x₀.work.view.nodes, r ∈ x.work.view.nodes := fun r hr =>
    hnodes r (hadvances.works.nodes r hr)
  have hseats' := (hs₁.recorded.scopes i y (scope?_put_self hx₀)).view.seats_mono
    hseats hnodes hgood.sound
  exact finds_of_live hopen hgood (hs₂.recorded.scopes i x hx)
    (hs₂.legible.scopes i x hx) hlive hseats'
    fun n hn => (hs.recorded.scopes i x₀ hx₀).view.locatable_mono
      (hlocatable n hn) hbefore hgood.sound

/-- A text whose datatype its transaction has asked for is found as the
object of what was added. -/
theorem added_text_is_found :
    let a : Node := .uri "urn:a"
    let text : Node := ⟨transientId,
      .literal ⟨.string "text" none, some ⟨1, Vocabulary.xsdString⟩⟩⟩
    let s := (opened {} {} [] "w").begin.after 0 (.uri Vocabulary.xsdString)
    ∃ x, (s.after 0 (.add a a text none)).begin.scope? 0 = some x ∧ x.Finds a a text none 1 := by
  intro a text s
  have hrun := Run.nil (s := opened {} {} [] "w") |>.snoc .begin
    |>.call 0 (.uri Vocabulary.xsdString)
  obtain ⟨x, hx⟩ : ∃ x, s.scope? 0 = some x := ⟨_, rfl⟩
  have hadded : ((s.scope? 0).bind fun x =>
      (answerOf (Transaction.add a a text none x)).toOption.map Statement.id) =
        some 1 := by decide +kernel
  have hheld : ((s.scope? 0).map fun x => x.work.view.nodes.map fun r =>
      (r.id, r.kind, r.lexical)) =
      some [(1, "uri", Vocabulary.xsdString)] := by decide +kernel
  rw [hx] at hadded hheld
  cases hop : Transaction.add a a text none x with
  | error e y =>
      rw [Option.bind_some, hop] at hadded
      cases hadded
  | ok u y =>
      rw [Option.bind_some, hop] at hadded
      have hid : u.id = 1 := Option.some.inj hadded
      have hstep := Step.call (.add a a text none) hx
      rw [Call.run, hop] at hstep
      have hafter : s.after 0 (.add a a text none) = s.put 0 y := by
        rw [after_of_some hx, Call.run, hop]
        rfl
      have hdatatype : x.work.view.HoldsNode ⟨1, .uri Vocabulary.xsdString⟩ := by
        have hrows : x.work.view.nodes.map (fun r => (r.id, r.kind, r.lexical)) =
            [(1, "uri", Vocabulary.xsdString)] := Option.some.inj hheld
        have hmem := hrows ▸ List.mem_singleton_self ((1 : Int), "uri", Vocabulary.xsdString)
        obtain ⟨r, hr, heq⟩ := List.mem_map.mp hmem
        simp only [Prod.mk.injEq] at heq
        exact ⟨r, hr, heq⟩
      have hreadable : ∀ e ∈ [] ++ [Event.begin] ++ (opened {} {} [] "w").begin.noted 0
          (.uri Vocabulary.xsdString) ++ ([] ++ [Event.begin]), e.Readable := by
        simp only [List.forall_mem_append, List.forall_mem_singleton]
        exact ⟨⟨⟨by simp, trivial⟩,
          forall_mem_noted fun _ _ _ => ⟨by rintro v ⟨⟩, by rintro n ⟨⟩⟩⟩,
          by simp, trivial⟩
      have hlocatable : ∀ n ∈ [a, a, text] ++ (none : Option Node).toList,
          x.work.view.Locatable LiteralValue.Readable n := by
        have ha : x.work.view.Locatable LiteralValue.Readable a :=
          ⟨by rintro ⟨⟩, by rintro - l ⟨⟩, by rintro - l ⟨⟩⟩
        have htext : x.work.view.Locatable LiteralValue.Readable text := by
          refine ⟨by rintro ⟨⟩, ?_, ?_⟩
          · rintro - l ⟨⟩
            exact ⟨by decide, _, rfl, hdatatype⟩
          · rintro - l ⟨⟩ d ⟨⟩
            decide
        simp only [List.forall_mem_append, List.forall_mem_cons]
        exact ⟨⟨ha, ha, htext, by rintro n ⟨⟩⟩, by rintro n ⟨⟩⟩
      have hopen : y.closed = false :=
        ((add_advances a a text none).ok hop).closed.trans (whileOpen_eq_ok_iff.mp hop).1
      have hscope := scope?_begin_of_some (scope?_put_self (y := y) hx)
      rw [hafter, ← hid]
      exact ⟨_, hscope, added_is_found {} Tables.sound_empty Tables.recorded_empty
        Tables.legible_empty [] "w"
        hrun hstep (Run.nil.snoc .begin) hreadable hlocatable
          (by simp [Event.removesIn]) hscope hopen⟩

/-- A text whose datatype is given by its URI alone is not found as the object of what was added:
its datatype is stored when it is added, and not looked for when it is looked up. -/
theorem added_text_is_not_found :
    let a : Node := .uri "urn:a"
    let text : Node := ⟨transientId,
      .literal ⟨.string "text" none, some ⟨transientId, Vocabulary.xsdString⟩⟩⟩
    let s := (opened {} {} [] "w").begin.after 0 (.add a a text none)
    ∃ log, (opened {} {} [] "w").Run log s ∧
      log.filterMap (fun e => e.added?.map fun added => (added.1, added.2.id)) = [(0, 1)] ∧
      (s.scope? 0).map Scope.closed = some false ∧
      ((s.scope? 0).bind fun x => (contains (some a) (some a) (some text) none).run' x) =
        some false ∧
      ((s.scope? 0).bind fun x =>
        (perform (Action.listStatements (some a) (some a) (some text) none true)).run' x) =
          some [] ∧
      ((s.scope? 0).bind fun x =>
        ((query (.fixed a a text none false)).run' x).map QueryResults.rows) = some [] := by
  intro a text s
  have hrun := Run.nil (s := opened {} {} [] "w") |>.snoc .begin |>.call 0 (.add a a text none)
  exact ⟨_, hrun, by decide +kernel, by decide +kernel, by decide +kernel, by decide +kernel,
    by decide +kernel⟩

end OpenStore
end QuadStore
