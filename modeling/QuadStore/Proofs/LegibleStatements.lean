import QuadStore.Proofs.LegibleRows
import QuadStore.Proofs.Listing
import QuadStore.Proofs.ReferencedNodes

namespace QuadStore

open Transaction

/-- Whether a row of statements can be read: its slots have the ids of rows of nodes that may
stand there, and its times can be read. -/
structure StatementRow.Legible (t : Tables) (r : StatementRow) : Prop where
  subject : ∃ d ∈ t.nodes, d.id = r.subject ∧ d.isResource = true
  predicate : ∃ d ∈ t.nodes, d.id = r.predicate ∧ d.kind = "uri"
  object : ∃ d ∈ t.nodes, d.id = r.object
  context : ∃ d ∈ t.nodes, d.id = r.context ∧ d.isResource = true
  created : r.created.check = .ok ()
  deletedAt : r.deletedAt.forM Stamp.check = .ok ()

namespace Tables

variable {t t' : Tables} {r : StatementRow} {n : Node} {id : Int}

/-- Whether all rows of statements can be read. -/
def Legible (t : Tables) : Prop :=
  ∀ r ∈ t.statements, r.Legible t

theorem legible_empty : Legible {} := by
  rintro r ⟨⟩

theorem HoldsNode.kinds (h : t.HoldsNode n) (hsound : t.Sound) {d : NodeRow} (hd : d ∈ t.nodes)
    (hid : d.id = n.id) : n.isUri = (d.kind == "uri") ∧ n.isResource = d.isResource := by
  obtain ⟨r, hr, hholds⟩ := h
  obtain rfl := List.inj_on_of_nodup_map hsound.nodeIds hr hd (hholds.1.trans hid.symm)
  exact hholds.kinds

theorem legible_mono (h : r.Legible t) (hnodes : ∀ r ∈ t.nodes, r ∈ t'.nodes) : r.Legible t' := by
  have later : ∀ {P : NodeRow → Prop}, (∃ d ∈ t.nodes, P d) → ∃ d ∈ t'.nodes, P d := by
    rintro P ⟨d, hd, hP⟩
    exact ⟨d, hnodes d hd, hP⟩
  exact ⟨later h.subject, later h.predicate, later h.object,
    later h.context, h.created, h.deletedAt⟩

theorem Legible.of_statements (h : t.Legible) (hnodes : ∀ r ∈ t.nodes, r ∈ t'.nodes)
    (hstatements : t'.statements = t.statements) : t'.Legible :=
  fun r hr => legible_mono (h r (hstatements ▸ hr)) hnodes

theorem Legible.withDeleted (h : t.Legible) (ids : List Int) : (t.withDeleted ids).Legible := by
  intro r hr
  rcases mem_withDeleted_iff.mp hr with ⟨hr, -⟩ | ⟨r', hr', -, -, rfl⟩
  · exact legible_mono (h r hr) fun _ hd => hd
  · obtain ⟨hsubject, hpredicate, hobject, hcontext, hcreated, -⟩ := h r' hr'
    exact ⟨hsubject, hpredicate, hobject, hcontext, hcreated, rfl⟩

theorem Legible.withStatement (h : t.Legible) (hr : r.Legible t) :
    (t.withStatement r).Legible := by
  intro r' hr'
  rcases List.mem_append.mp hr' with hr' | hr'
  · exact legible_mono (h r' hr') fun _ hd => hd
  · rw [List.mem_singleton.mp hr']
    exact legible_mono hr fun _ hd => hd

theorem Legible.refers (h : t.Legible) : t.Refers := by
  intro r hr id hid
  obtain ⟨⟨ds, hds, hsubject, -⟩, ⟨dp, hdp, hpredicate, -⟩, ⟨d, hd, hobject⟩,
      ⟨dc, hdc, hcontext, -⟩, -, -⟩ :=
    h r hr
  simp only [StatementKey.slots, StatementRow.key, List.mem_cons,
    List.not_mem_nil, or_false] at hid
  rcases hid with rfl | rfl | rfl | rfl
  · exact List.mem_map.mpr ⟨ds, hds, hsubject⟩
  · exact List.mem_map.mpr ⟨dp, hdp, hpredicate⟩
  · exact List.mem_map.mpr ⟨d, hd, hobject⟩
  · exact List.mem_map.mpr ⟨dc, hdc, hcontext⟩

theorem StoresAs.row (h : t.StoresAs n id) (hresource : n.isResource = true)
    (hknown : n.isPersisted = true → t.HoldsNode n) :
    ∃ d ∈ t.nodes, d.id = id ∧ n.isUri = (d.kind == "uri") ∧ d.isResource = true := by
  have hid := h (.inr hresource)
  rw [storedId?] at hid
  cases hnew : n.isPersisted with
  | true =>
      rw [if_pos hnew] at hid
      obtain ⟨d, hd, hholds⟩ := hknown hnew
      exact ⟨d, hd, hholds.1.trans (Option.some.inj hid),
        hholds.kinds.1, hholds.kinds.2 ▸ hresource⟩
  | false =>
      rw [if_neg (by simp [hnew])] at hid
      obtain ⟨d, hrow, hid⟩ := Option.map_eq_some_iff.mp hid
      obtain ⟨hd, hholds⟩ := rowOf?_eq_some hrow
      exact ⟨d, hd, hid, hholds.kinds.1, hholds.kinds.2 ▸ hresource⟩

theorem StoresSlots.legible {s p o c : Node} (h : t.StoresSlots s p o c r.key)
    (hslots : checkSlots s p (some c) = .ok ()) (hobject : r.object ∈ t.nodeIds)
    (hknown : ∀ n ∈ [s, p, c], n.isPersisted = true → t.HoldsNode n)
    (hcreated : r.created.check = .ok ()) (hdeletedAt : r.deletedAt.forM Stamp.check = .ok ()) :
    r.Legible t := by
  obtain ⟨hs, hp, hc⟩ := checkSlots_eq_ok_iff.mp hslots
  have hresource : p.isResource = true := by simp [Node.isResource, hp]
  obtain ⟨ds, hds, hsid, -, hskind⟩ := h.subject.row hs (hknown s (by simp))
  obtain ⟨dp, hdp, hpid, hpkind, -⟩ := h.predicate.row hresource (hknown p (by simp))
  obtain ⟨d, hd, hid⟩ := List.mem_map.mp hobject
  obtain ⟨dc, hdc, hcid, -, hckind⟩ := h.context.row hc (hknown c (by simp))
  exact ⟨⟨ds, hds, hsid, hskind⟩, ⟨dp, hdp, hpid, by simpa [hp] using hpkind⟩, ⟨d, hd, hid⟩,
    ⟨dc, hdc, hcid, hckind⟩, hcreated, hdeletedAt⟩

end Tables

namespace Action

variable {t : Tables} {r : StatementRow} {I : Workspace → Prop} {K : Node → Prop}

theorem statementOfRow_delivers (hreads : Resolves t I K) (hsound : t.Sound) (h : r.Legible t) :
    Delivers I (statementOfRow r) fun u => u.context ≠ none ∧ ∀ n ∈ u.nodes, K n := by
  obtain ⟨ds, hds, hsid, hskind⟩ := h.subject
  obtain ⟨dp, hdp, hpid, hpkind⟩ := h.predicate
  obtain ⟨dc, hdc, hcid, hckind⟩ := h.context
  refine (hreads.requireNode ⟨ds, hds, hsid⟩).bind fun subject hsubject => ?_
  refine (hreads.requireNode ⟨dp, hdp, hpid⟩).bind fun predicate hpredicate => ?_
  refine (hreads.requireNode h.object).bind fun object hobject => ?_
  refine (hreads.requireNode ⟨dc, hdc, hcid⟩).bind fun context hcontext => ?_
  have kinds : ∀ {n : Node} {id : Int} {d : NodeRow}, K n ∧ n.id = id → d ∈ t.nodes → d.id = id →
      n.isUri = (d.kind == "uri") ∧ n.isResource = d.isResource := fun hn hd hid =>
    (hreads.holds _ hn.1).kinds hsound hd (hid.trans hn.2.symm)
  have hslots : checkSlots subject predicate (some context) = .ok () := by
    rw [checkSlots_eq_ok_iff, (kinds hsubject hds hsid).2, (kinds hpredicate hdp hpid).1,
      (kinds hcontext hdc hcid).2]
    exact ⟨hskind, by simp [hpkind], hckind⟩
  have made : ∀ creator : Option Node, (∀ n ∈ creator, K n) → Delivers I (do
      let s ← ofStatement (Statement.make subject predicate object (some context))
      ofData r.created.check
      ofData (r.deletedAt.forM Stamp.check)
      pure { s with
        id := r.id, creator, inferred := r.isInferred, deleted := !r.live,
        deletionTimed := r.deletedAt.isSome } : Action Statement)
      fun u => u.context ≠ none ∧ ∀ n ∈ u.nodes, K n := by
    intro creator hcreator
    obtain ⟨s, hs⟩ : ∃ s, Statement.make subject predicate object (some context) = .ok s := by
      unfold Statement.make
      rw [hslots]
      exact ⟨_, rfl⟩
    refine (Delivers.ofStatement hs).bind fun s' hs' => ?_
    subst hs'
    refine (Delivers.ofData h.created).bind fun _ _ => ?_
    obtain rfl := make_eq_ok hs
    refine (Delivers.ofData h.deletedAt).bind fun _ _ => .pure ⟨by simp, fun n hn => ?_⟩
    simp only [Statement.nodes, List.mem_append, List.mem_cons, List.not_mem_nil, or_false,
      Option.mem_toList, Option.some.injEq] at hn
    rcases hn with ((rfl | rfl | rfl) | rfl) | hn
    · exact hsubject.1
    · exact hpredicate.1
    · exact hobject.1
    · exact hcontext.1
    · exact hcreator n hn
  dsimp only
  cases r.creator with
  | none =>
      exact Delivers.bind (Q := (· = none)) (.pure rfl) fun creator hc =>
        made creator (by simp [hc])
  | some id =>
      exact (hreads.resolveNode id).bind fun creator hcreator => made creator fun n hn =>
        (hcreator.1 n hn).1

theorem listStatements_delivers (hreads : Resolves t I K) (hsound : t.Sound) (h : t.Legible)
    (subject predicate object context : Option Node) (includeInferred : Bool) :
    Delivers I (listStatements subject predicate object context includeInferred) fun found =>
      ∀ u ∈ found, u.context ≠ none ∧ ∀ n ∈ u.nodes, K n := by
  refine (hreads.slotIds _).bind fun ids _ => ?_
  cases ids with
  | none => exact .pure (by simp)
  | some ids =>
      refine (Delivers.view hreads.view _).bind fun rows hrows => .mapM fun r hr => ?_
      subst hrows
      refine statementOfRow_delivers hreads hsound (h r ?_)
      rw [List.mem_filter, Tables.liveStatements, List.mem_mergeSort, List.mem_filter] at hr
      exact hr.1.1

end Action

namespace Transaction

theorem perform_delivers {α : Type} {I : Workspace → Prop}
    {a : Action α} {Q : α → Prop} {x : Scope}
    (h : Action.Delivers I a Q) (hopen : x.closed = false) (hx : I x.work) :
    ∃ v y, perform a x = .ok v y ∧ Q v := by
  obtain ⟨v, w, hop, -, hv⟩ := h x.work hx
  exact ⟨v, _, (whileOpen_of_open hopen).trans (work_of_ok hop), hv⟩

variable {x y : Scope} {t : Statement} {subject predicate object : Node} {context : Option Node}

theorem Adds.legible {s p o c : Node} (h : Adds x y t) (hlegible : x.work.view.Legible)
    (hrefers : y.work.view.Refers) (hstores : y.work.view.StoresSlots s p o c t.key)
    (hslots : checkSlots s p (some c) = .ok ())
    (hknown : ∀ n ∈ [s, p, c], n.isPersisted = true → x.work.view.HoldsNode n) :
    y.work.view.Legible := by
  obtain ⟨w, t₁, added, hrequested, -, hstored, -⟩ := h.stored
  have hquiet := hrequested.quiet
  have hbefore : w.view.Legible := hlegible.of_statements hquiet.nodes hquiet.statements
  cases hstored with
  | found hview hrow =>
      rw [hview]
      exact hbefore
  | added hview hnew hfresh hid =>
      rw [hview] at hrefers hstores ⊢
      refine hbefore.withStatement (Tables.legible_mono (t :=
        w.view.withStatement (.ofStatement t)) ?_ fun _ hd => hd)
      have hobject : t.key.object ∈ (w.view.withStatement (.ofStatement t)).nodeIds :=
        hrefers (.ofStatement t) (List.mem_append_right _ (List.mem_singleton_self _)) _
          (.tail _ (.tail _ (.head _)))
      exact Tables.StoresSlots.legible (r := .ofStatement t) hstores hslots hobject
        (fun n hn hpersisted => (hknown n hn hpersisted).mono hquiet.nodes) rfl rfl

theorem known_of_slots {held : Node → Prop}
    (h : ∀ n ∈ [subject, predicate, object] ++ context.toList, n.isPersisted = true → held n)
    (uri : String) : ∀ n ∈ [subject, predicate, context.getD (.uri uri)],
      n.isPersisted = true → held n := by
  intro n hn hpersisted
  simp only [List.mem_cons, List.not_mem_nil, or_false] at hn
  rcases hn with rfl | rfl | rfl
  · exact h _ (by simp) hpersisted
  · exact h _ (by simp) hpersisted
  · cases context with
    | some c => exact h c (by simp) hpersisted
    | none => cases hpersisted

theorem add_legible (hgood : x.work.Good) (hlegible : x.work.view.Legible)
    (hheld : ∀ n ∈ (Call.add subject predicate object context).stored,
      n.isPersisted = true → x.work.view.HoldsNode n)
    (h : add subject predicate object context x = .ok t y) : y.work.view.Legible := by
  obtain ⟨hadds, hstores⟩ := add_eq_ok hgood h
  have hrefers := add_refers hgood hlegible.refers
    (fun n hn hpersisted => (hheld n hn hpersisted).mem_nodeIds) h
  obtain ⟨-, h⟩ := whileOpen_eq_ok_iff.mp h
  obtain ⟨t₁, x₁, hwork, -⟩ := bind_eq_ok_iff.mp h
  obtain ⟨w, hcreate, -⟩ := work_eq_ok_iff.mp hwork
  exact hadds.legible hlegible hrefers hstores
    (checkSlots_getD (Action.createStatement_checks hcreate) _) (known_of_slots hheld _)

theorem addInferred_legible (hgood : x.work.Good) (hlegible : x.work.view.Legible)
    (hheld : ∀ n ∈ (Call.addInferred subject predicate object context).stored,
      n.isPersisted = true → x.work.view.HoldsNode n)
    (h : addInferred subject predicate object context x = .ok t y) : y.work.view.Legible := by
  obtain ⟨hadds, hstores⟩ := addInferred_eq_ok hgood h
  have hrefers := addInferred_refers hgood hlegible.refers
    (fun n hn hpersisted => (hheld n hn hpersisted).mem_nodeIds) h
  refine hadds.legible hlegible hrefers hstores ?_ (known_of_slots hheld _)
  obtain ⟨hopen, -⟩ := whileOpen_eq_ok_iff.mp h
  rcases addInferred_cases hopen with ⟨e, w, -, -, hadd⟩ | ⟨c, w, hcontext, hadd⟩
  · cases hadd.symm.trans h
  · rw [hadd] at h
    obtain ⟨t₁, x₁, hwork, -⟩ := bind_eq_ok_iff.mp h
    obtain ⟨w', hcreate, -⟩ := work_eq_ok_iff.mp hwork
    have hchecks := Action.createStatement_checks hcreate
    cases hcontext with
    | given => exact hchecks
    | made =>
        obtain ⟨hs, hp, -⟩ := checkSlots_eq_ok_iff.mp hchecks
        exact checkSlots_eq_ok_iff.mpr ⟨hs, hp, rfl⟩

end Transaction

/-- A call leaves rows of statements that can be read if the nodes with ids that it puts into
statements are in their rows. -/
theorem Call.legible {c : Call} {x : Scope} (hends : c.ends = false) (hs : x.Good)
    (hlegible : x.work.view.Legible)
    (hheld : ∀ n ∈ c.stored, n.isPersisted = true → x.work.view.HoldsNode n) :
    (finalState (c.run x)).work.view.Legible := by
  refine Call.keepsRows hends hs (fun _ _ hnodes hsame ht => ht.of_statements hnodes hsame)
    (fun _ ids ht => ht.withDeleted ids) hlegible ?_ ?_
  · rintro s p o context t y rfl hop
    exact add_legible hs.work hlegible hheld hop
  · rintro s p o context t y rfl hop
    exact addInferred_legible hs.work hlegible hheld hop

end QuadStore
