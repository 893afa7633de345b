import QuadStore.Proofs.OpenStores
import QuadStore.Proofs.UncachedOperations

namespace QuadStore

open Transaction

def PatternTerm.node? : PatternTerm → Option Node
  | .value n => some n
  | .var _ => none

def Filter.node? : Filter → Option Node
  | .sameValue _ n | .compare _ _ n => some n
  | _ => none

def PatternQuery.nodes (q : PatternQuery) : List Node :=
  q.patterns.flatMap (fun p => p.terms.filterMap PatternTerm.node?) ++ q.bindings.map Prod.snd ++
    q.filters.filterMap Filter.node?

namespace Call

/-- The nodes that a call is given. -/
def nodes : Call → List Node
  | .statement s p o c | .add s p o c | .addInferred s p o c => [s, p, o] ++ c.toList
  | .remove s p o c | .list s p o c _ | .contains s p o c =>
      s.toList ++ p.toList ++ o.toList ++ c.toList
  | .size c => c.toList
  | .query q => q.nodes
  | _ => []

/-- The nodes that a call is answered with. -/
def answered : (c : Call) → c.Answer → List Node
  | .uri _ | .blank _ | .literal _ | .string _ _ | .typed _ _ => fun n => [n]
  | .statement _ _ _ _ | .add _ _ _ _ | .addInferred _ _ _ _ => Statement.nodes
  | .list _ _ _ _ _ => fun found => found.flatMap Statement.nodes
  | .contexts => fun found => found
  | .fetch _ _ => fun answer =>
      answer.1.flatMap fun row => row.toOption.toList.flatMap BindingSet.nodes
  | _ => fun _ => []

/-- The results that a call leaves to be fetched. -/
def results? : (c : Call) → c.Answer → Option QueryResults
  | .query _ => some
  | .fetch _ _ => fun answer => some answer.2
  | _ => fun _ => none

/-- An answer without the marks of new ids. -/
def plain : (c : Call) → c.Answer → c.Answer
  | .statement _ _ _ _ | .add _ _ _ _ | .addInferred _ _ _ _ => Statement.plain
  | .list _ _ _ _ _ => List.map Statement.plain
  | .fetch _ _ => fun answer => (answer.1.map (Except.map BindingSet.plain), answer.2)
  | _ => fun answer => answer

/-- Whether a call has to do neither with bindings of prefixes nor with literals other than texts,
integers and truth values. -/
def Covered : Call → Prop
  | .literal value => value.Simple
  | .typed content datatype =>
      ∀ value, LiteralValue.read datatype content = some value → value.Simple
  | .namespaceByLabel _ | .namespaceByUri _ | .setNamespace _ _ => False
  | .removeNamespace _ | .namespaces => False
  | _ => True

end Call

/-- Whether rows can be fetched from results. -/
structure QueryResults.Usable (r : QueryResults) (w : Workspace) : Prop where
  current : r.Current w
  extra : ∀ e ∈ r.extra, w.view.Accepts e.2

/-- Whether a call was answered alike in both of two runs. -/
structure Call.AnsweredAlike (c : Call) (v v' : c.Answer) (x : Scope) : Prop where
  plain : c.plain v' = c.plain v
  nodes : ∀ n ∈ c.answered v, x.work.view.Accepts n
  results : ∀ r, c.results? v = some r → r.Usable x.work

theorem accepts_of_found {v v' : Node} {w : Workspace} (h : Action.Found v v' w) :
    ∀ n ∈ [v], w.view.Accepts n := by
  intro n hn
  rw [List.mem_singleton.mp hn]
  exact .inl h.2

theorem accepts_of_made {v v' : Statement} {w : Workspace} (h : Made v v' w) :
    ∀ n ∈ v.nodes, w.view.Accepts n :=
  fun n hn => .inl (h.2.knows n hn)

namespace Call

variable {x x' : Scope} {c : Call}

theorem accepts_slots {t : Tables} {s p o : Node} {c : Option Node}
    (h : ∀ n ∈ [s, p, o] ++ c.toList, t.Accepts n) :
    t.Accepts s ∧ t.Accepts p ∧ t.Accepts o ∧ ∀ n, c = some n → t.Accepts n := by
  refine ⟨h s (by simp), h p (by simp), h o (by simp), ?_⟩
  rintro n rfl
  exact h n (by simp)

theorem run_query_alike (h : LikeScope x x') {q : PatternQuery}
    (hnodes : ∀ n ∈ q.nodes, x.work.view.Accepts n) :
    Alike LikeScope (AnsweredAlike (.query q)) (Transaction.query q x)
      (Transaction.query q x') := by
  refine (query_alike h q).imp fun v v' y y' hy hlike hv => ?_
  refine ⟨hv.1, by rintro n ⟨⟩, ?_⟩
  rintro r ⟨⟩
  refine ⟨hv.2.1, fun e he => ?_⟩
  have hnode : e.2 ∈ q.nodes := by
    simp only [PatternQuery.nodes, List.mem_append]
    exact .inl (.inr (List.mem_map_of_mem (hv.2.2 e he)))
  exact (hnodes e.2 hnode).mono ((query_silent q).ok hy).work.nodes hlike.work.left.sound

theorem run_fetch_alike (h : LikeScope x x') {r : QueryResults} (husable : r.Usable x.work)
    (count : Nat) : Alike LikeScope (AnsweredAlike (.fetch count r))
      (perform (Action.fetch count r) x) (perform (Action.fetch count r) x') := by
  refine (perform_alike h (Action.fetch_alike h.work husable.current count)).imp
    fun v v' y y' hy hlike hv => ?_
  obtain ⟨⟨hrows, hrest⟩, ⟨hcurrent, hsame⟩, hknown⟩ := hv
  have hsilent := ((keeps_perform (Action.fetch_reads count r)).ok hy).work.silent
  have extra_accepted : ∀ e ∈ r.extra, y.work.view.Accepts e.2 := fun e he =>
    (husable.extra e he).mono hsilent.nodes hlike.work.left.sound
  refine ⟨Prod.ext hrows hrest, fun n hn => ?_, ?_⟩
  · obtain ⟨row, hrow, hn⟩ := List.mem_flatMap.mp hn
    cases row with
    | error e => cases hn
    | ok b =>
        rcases hknown b hrow n (by simpa [Except.toOption] using hn) with hknows | hgiven
        · exact .inl hknows
        · obtain ⟨e, he, rfl⟩ := List.mem_map.mp hgiven
          exact extra_accepted e he
  · rintro r' ⟨⟩
    exact ⟨hcurrent, hsame ▸ extra_accepted⟩

theorem run_alike_of_accepted (h : LikeScope x x') (hsound : x.work.database.committed.Sound)
    (hcovered : c.Covered) (hnodes : ∀ n ∈ c.nodes, x.work.view.Accepts n)
    (hfetch : ∀ count r, c = .fetch count r → r.Usable x.work) :
    Alike LikeScope c.AnsweredAlike (c.run x) (c.run x') := by
  cases c with
  | uri uri =>
      refine (perform_alike h (Action.createUri_alike h.work uri)).imp fun v v' y y' _ _ hv => ?_
      exact ⟨hv.1.1, accepts_of_found hv.1, by rintro r ⟨⟩⟩
  | blank label =>
      refine (perform_alike h (Action.createBlank_alike h.work label)).imp
        fun v v' y y' _ _ hv => ?_
      exact ⟨hv.1, accepts_of_found hv, by rintro r ⟨⟩⟩
  | literal value =>
      refine (perform_alike h (Action.createLiteral_alike h.work hcovered)).imp
        fun v v' y y' _ _ hv => ?_
      exact ⟨hv.1, accepts_of_found hv, by rintro r ⟨⟩⟩
  | string content language =>
      refine (perform_alike h (Action.createString_alike h.work content language)).imp
        fun v v' y y' _ _ hv => ?_
      exact ⟨hv.1, accepts_of_found hv, by rintro r ⟨⟩⟩
  | typed content datatype =>
      refine (perform_alike h (Action.createTyped_alike h.work hcovered)).imp
        fun v v' y y' _ _ hv => ?_
      exact ⟨hv.1, accepts_of_found hv, by rintro r ⟨⟩⟩
  | statement s p o c =>
      obtain ⟨hs, hp, ho, hc⟩ := accepts_slots hnodes
      refine (perform_alike h (Action.createStatement_alike h.work hs hp ho hc)).imp
        fun v v' y y' _ _ hv => ?_
      exact ⟨hv.1, accepts_of_made hv, by rintro r ⟨⟩⟩
  | add s p o c =>
      obtain ⟨hs, hp, ho, hc⟩ := accepts_slots hnodes
      refine (add_alike h hs hp ho hc).imp fun v v' y y' _ _ hv => ?_
      exact ⟨hv.1, accepts_of_made hv, by rintro r ⟨⟩⟩
  | addInferred s p o c =>
      obtain ⟨hs, hp, ho, hc⟩ := accepts_slots hnodes
      refine (addInferred_alike h hs hp ho hc).imp fun v v' y y' _ _ hv => ?_
      exact ⟨hv.1, accepts_of_made hv, by rintro r ⟨⟩⟩
  | remove s p o c =>
      refine (remove_alike h s p o c).imp fun v v' y y' _ _ hv => ?_
      exact ⟨hv, by rintro n ⟨⟩, by rintro r ⟨⟩⟩
  | list s p o c inferred =>
      refine (perform_alike h (Action.listStatements_agrees s p o c inferred _ _ h.work)).imp
        fun v v' y y' _ _ hv => ?_
      refine ⟨congrArg (List.map Statement.plain) hv.1, fun n hn => ?_, by rintro r ⟨⟩⟩
      obtain ⟨t, ht, hn⟩ := List.mem_flatMap.mp hn
      exact .inl ((hv.2 t ht).knows n hn)
  | contains s p o c =>
      refine (contains_alike h s p o c).imp fun v v' y y' _ _ hv => ?_
      exact ⟨hv, by rintro n ⟨⟩, by rintro r ⟨⟩⟩
  | size context =>
      refine (perform_alike h (Action.countStatements_agrees context _ _ h.work)).imp
        fun v v' y y' _ _ hv => ?_
      exact ⟨hv, by rintro n ⟨⟩, by rintro r ⟨⟩⟩
  | contexts =>
      refine (perform_alike h (Action.listContexts_agrees _ _ h.work)).imp
        fun v v' y y' _ _ hv => ?_
      exact ⟨hv.1, fun n hn => .inl (hv.2 n hn), by rintro r ⟨⟩⟩
  | query q => exact run_query_alike h hnodes
  | fetch count r => exact run_fetch_alike h (hfetch count r rfl) count
  | commit refusal =>
      refine (finish_alike h hsound refusal).imp fun v v' y y' _ _ hv => ?_
      exact ⟨hv, by rintro n ⟨⟩, by rintro r ⟨⟩⟩
  | rollback =>
      refine (rollback_alike h hsound).imp fun v v' y y' _ _ hv => ?_
      exact ⟨hv, by rintro n ⟨⟩, by rintro r ⟨⟩⟩
  | drop =>
      refine (drop_alike h hsound).imp fun v v' y y' _ _ hv => ?_
      exact ⟨hv, by rintro n ⟨⟩, by rintro r ⟨⟩⟩
  | namespaceByLabel | namespaceByUri | setNamespace | removeNamespace | namespaces =>
      exact hcovered.elim

/-- A transaction that has ended may be asked for anything. -/
theorem run_alike_of_closed (h : LikeScope x x') (hsound : x.work.database.committed.Sound)
    (hclosed : x.closed = true) : Alike LikeScope c.AnsweredAlike (c.run x) (c.run x') := by
  cases c with
  | drop =>
      refine (drop_alike h hsound).imp fun v v' y y' _ _ hv => ?_
      exact ⟨hv, by rintro n ⟨⟩, by rintro r ⟨⟩⟩
  | _ => exact whileOpen_alike_of_closed h hclosed _ _ _

theorem run_alike (h : LikeScope x x') (hsound : x.work.database.committed.Sound)
    (hcovered : c.Covered) (hnodes : x.closed = false → ∀ n ∈ c.nodes, x.work.view.Accepts n)
    (hfetch : x.closed = false → ∀ count r, c = .fetch count r → r.Usable x.work) :
    Alike LikeScope c.AnsweredAlike (c.run x) (c.run x') := by
  cases hclosed : x.closed with
  | false => exact run_alike_of_accepted h hsound hcovered (hnodes hclosed) (hfetch hclosed)
  | true => exact run_alike_of_closed h hsound hclosed

end Call
end QuadStore
