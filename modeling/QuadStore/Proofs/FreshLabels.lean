import QuadStore.Proofs.Labels
import QuadStore.Proofs.LegibleNodes
import QuadStore.Proofs.ReferencedNodes
import QuadStore.Proofs.ResourceIdentity
import QuadStore.Proofs.SeenTables

namespace QuadStore

open Transaction

namespace Store

variable {s s' : Store}

/-- The labels that a store makes up for blank nodes, by their numbers. -/
def madeLabel (s : Store) (number : Nat) : String :=
  "b" ++ s.labelStart ++ "x" ++ Text.natText number

theorem madeLabel_injective (s : Store) : Function.Injective s.madeLabel := by
  intro m n h
  have hchars := congrArg String.toList h
  simp only [madeLabel, Text.natText, String.toList_append, String.toList_ofList] at hchars
  exact Text.digits_injective (List.append_cancel_left hchars)

theorem Labelling.madeLabel (h : s.Labelling s') : s'.madeLabel = s.madeLabel := by
  funext number
  rw [Store.madeLabel, Store.madeLabel, h.start]

theorem Loses.labelling (h : s.Loses s') : s.Labelling s' := by
  cases h
  exact ⟨rfl, le_refl _⟩

end Store

/-- Whether no blank node has the given label. -/
def Tables.LacksLabel (label : String) (t : Tables) : Prop :=
  ∀ id, ¬t.HoldsNode ⟨id, .blank label⟩

variable {label : String} {t t' : Tables}

theorem Tables.LacksLabel.of_eq (h : t.LacksLabel label) (hnodes : t'.nodes = t.nodes) :
    t'.LacksLabel label := by
  rintro id ⟨r, hr, hholds⟩
  exact h id ⟨r, hnodes ▸ hr, hholds⟩

theorem Tables.LacksLabel.fresh (h : t.LacksLabel label) (hsound : t'.Sound)
    (hnodes : ∀ r ∈ t.nodes, r ∈ t'.nodes) {id : Int} (hholds : t'.HoldsNode ⟨id, .blank label⟩) :
    id ∉ t.nodeIds := by
  intro hid
  obtain ⟨r, hr, rfl⟩ := List.mem_map.mp hid
  obtain ⟨r', hr', hholds⟩ := hholds
  obtain rfl := List.inj_on_of_nodup_map hsound.nodeIds hr' (hnodes r hr) hholds.1
  exact h _ ⟨r', hr, hholds⟩

/-- The label of a blank node that has no id yet. -/
def Node.newLabel? (n : Node) : Option String :=
  if n.isPersisted then none
  else
    match n.term with
    | .blank label => some label
    | _ => none

/-! What calls make of labels -/

variable {w w' : Workspace} {n : Node}

/-- Whether there goes on being no blank node with a label. -/
def GoesWithout (label : String) (w w' : Workspace) : Prop :=
  w.view.LacksLabel label → w'.view.LacksLabel label

instance : IsPreorder Workspace (GoesWithout label) where
  refl _ h := h
  trans _ _ _ h h' hw := h' (h hw)

theorem SameNodes.goesWithout (h : SameNodes w w') : GoesWithout label w w' :=
  fun hw => hw.of_eq h

instance : AllowsAside (GoesWithout label) where
  aside h := SameNodes.goesWithout h.nodes
  cacheNode hn := SameNodes.goesWithout (AllowsCaching.cacheNode hn)
  storeNamespace ns := (AllowsAside.storeNamespace ns).mono fun _ _ => SameNodes.goesWithout
  deleteNamespace ns := (AllowsAside.deleteNamespace ns).mono fun _ _ => SameNodes.goesWithout

namespace Action

theorem setTables_goesWithout {id : Int} (hn : n.term ≠ .blank label)
    (hinsert : w.view.insertNode? (.ofNode id n) = some t) :
    GoesWithout label w (finalState (setTables t w)) := by
  rintro hw id' ⟨r, hr, hholds⟩
  obtain ⟨rfl, -⟩ := Tables.insertNode?_eq_some hinsert
  rcases List.mem_append.mp hr with hr | hr
  · exact hw id' ⟨r, hr, hholds⟩
  · obtain rfl := List.mem_singleton.mp hr
    exact hn (NodeRow.Holds.term_eq (holds_ofNode id n) hholds rfl)

theorem storeNode_goesWithout (hn : n.term ≠ .blank label) :
    Keeps (GoesWithout label) (storeNode n) := by
  unfold storeNode
  refine .ite (.pure _) ?_
  refine Keeps.bind ?_ fun _ => ?_
  · unfold checkDatatype
    split
    · exact .ite (.throw _) (.pure _)
    · exact .pure _
  refine (keeps_of_beside beginWrite_beside).bind fun _ => ?_
  refine (keeps_of_beside (nextId_beside .nodes)).bind fun id => ?_
  refine (keeps_view _).bind_of fun w tables w₁ hview => ?_
  obtain ⟨hinsert, rfl⟩ := view_eq_ok_iff.mp hview
  have keep : ∀ stored : Node, Keeps (GoesWithout label) (do
      let stored ← (pure stored : Action Node)
      modifyConn fun c => { c with freshNodes := c.freshNodes ++ [stored] }
      pure stored) := fun stored => (Keeps.pure stored).bind fun stored =>
    Keeps.bind (R := GoesWithout label) (fun w h => h) fun _ => .pure _
  cases tables with
  | some tables =>
      exact finalState_bind (setTables_goesWithout hn hinsert) fun _ w₁ _ => keep _ w₁
  | none =>
      refine finalState_bind (loadNode_keeps n w) fun existing w₁ _ => ?_
      cases existing with
      | some existing => exact keep _ w₁
      | none => exact refl w₁

theorem loadOrStore_goesWithout (hn : n.term ≠ .blank label) :
    Keeps (GoesWithout label) (loadOrStore n) := by
  refine (loadNode_keeps n).bind_of fun w found w₁ hload => ?_
  cases found with
  | none => exact storeNode_goesWithout hn w₁
  | some stored =>
      refine finalState_bind (AllowsCaching.cacheNode ?_) fun _ w₂ _ => refl w₂
      rw [((loadNode_reads n).ok hload).view_eq]
      exact (holdsNode_of_loadNode hload).1

theorem createUri_goesWithout (uri : String) : Keeps (GoesWithout label) (createUri uri) := by
  refine keeps_get.bind fun w => ?_
  split
  · exact .pure _
  · exact loadOrStore_goesWithout (by rintro ⟨⟩)

theorem createBlank_goesWithout {asked : String} (hasked : asked ≠ label) :
    Keeps (GoesWithout label) (createBlank (some asked)) := by
  refine Keeps.bind_of (.pure asked) ?_
  rintro w _ _ ⟨⟩
  refine keeps_get.bind (fun w => ?_) w
  split
  · exact .pure _
  · exact loadOrStore_goesWithout (by simpa [Node.blank] using hasked)

theorem createDatatype_goesWithout (uri : String) :
    Keeps (GoesWithout label) (createDatatype uri) := by
  refine (createUri_goesWithout uri).bind fun n => ?_
  split
  · exact .pure _
  · exact .throw _

theorem resolveValue_goesWithout (value : LiteralValue) (datatype : UriResource) :
    Keeps (GoesWithout label) (resolveValue value datatype) := by
  refine keeps_get.bind fun w => ?_
  split
  · exact .pure _
  · exact loadOrStore_goesWithout (by rintro ⟨⟩)

theorem request_goesWithout (literal : LiteralValue × String) :
    Keeps (GoesWithout label) (request literal) := by
  refine (createDatatype_goesWithout _).bind fun datatype => ?_
  unfold resolveLiteral
  split
  · refine .ite ?_ (resolveValue_goesWithout _ _)
    exact (createDatatype_goesWithout _).bind fun _ => resolveValue_goesWithout _ _
  · exact resolveValue_goesWithout _ _

theorem convert_goesWithout (hn : label ∉ n.newLabel?) :
    Keeps (GoesWithout label) (convert n) := by
  cases hnew : n.isPersisted with
  | true =>
      unfold convert
      rw [if_pos hnew]
      exact .pure _
  | false =>
      cases hterm : n.term with
      | literal l =>
          rw [convert_eq_request hnew hterm]
          exact request_goesWithout _
      | uri uri =>
          unfold convert
          rw [if_neg (by simp [hnew]), hterm]
          exact createUri_goesWithout uri
      | blank asked =>
          unfold convert
          rw [if_neg (by simp [hnew]), hterm]
          exact createBlank_goesWithout (by simpa [Node.newLabel?, hnew, hterm] using hn)

end Action

/-- The labels that a caller gives. -/
def Call.labels : Call → List String
  | .blank label => label.toList
  | .statement s p o c | .add s p o c | .addInferred s p o c =>
      ([s, p, o] ++ c.toList).filterMap Node.newLabel?
  | _ => []

namespace Transaction

variable {subject predicate object : Node} {context : Option Node}

theorem addInferred_goesWithout {x : Scope} (hgood : x.work.Good)
    (hnamed : ∀ n ∈ [subject, predicate, object] ++ context.toList, label ∉ n.newLabel?) :
    WorkChanges (GoesWithout label) x
      (finalState (addInferred subject predicate object context x)) := by
  refine addInferred_leaves (R := WorkChanges (GoesWithout label))
    (work_changes (keeps_inferredContext Action.createUri_goesWithout))
    fun c w hknown => addMade_keeps_of (fun n hn => Action.convert_goesWithout ?_)
      Action.createUri_goesWithout _ _
  refine hknown.forall_mem hnamed (fun uri hcreate => ?_) n hn
  have hterm : c.term = _ := (Action.createUri_eq_ok hgood hcreate).1
  simp [Node.newLabel?, hterm]

end Transaction

namespace Call

variable {c : Call} {x : Scope}

/-- The scope of a transaction for which a label has been made up. -/
def labelled (x : Scope) : Scope :=
  { x with work := { x.work with store := { x.work.store with
    labelCount := x.work.store.labelCount + 1 } } }

theorem run_blank_none (hopen : x.closed = false) :
    (Call.blank none).run x = (Call.blank (some x.work.store.freshLabel)).run (labelled x) := by
  show perform (Action.createBlank none) x = perform (Action.createBlank (some _)) (labelled x)
  rw [perform, perform, whileOpen_of_open hopen, whileOpen_of_open (by exact hopen)]
  rfl

theorem good_labelled (h : x.work.Good) : (labelled x).work.Good :=
  (Action.freshLabel_silent x.work).good h

theorem createBlank_of_answer {n : Node} (h : answerOf ((Call.blank none).run x) = .ok n) :
    ∃ w, Action.createBlank (some x.work.store.freshLabel) (labelled x).work = .ok n w := by
  cases hop : (Call.blank none).run x with
  | error e y =>
      rw [hop] at h
      cases h
  | ok m y =>
      rw [hop] at h
      cases h
      obtain ⟨hopen, -⟩ := whileOpen_eq_ok_iff.mp hop
      rw [run_blank_none hopen] at hop
      obtain ⟨-, hop⟩ := whileOpen_eq_ok_iff.mp hop
      obtain ⟨w, hcreate, -⟩ := work_eq_ok_iff.mp hop
      exact ⟨w, hcreate⟩

theorem labelCount_lt (hopen : x.closed = false) :
    x.work.store.labelCount < (finalState ((Call.blank none).run x)).work.store.labelCount := by
  rw [run_blank_none hopen]
  exact (Call.advances rfl (labelled x)).works.labelling.count

theorem goesWithout (hends : c.ends = false) (hgood : x.work.Good) (hgiven : label ∉ c.labels)
    (hmade : c = .blank none → x.closed = false → x.work.store.freshLabel ≠ label) :
    GoesWithout label x.work (finalState (c.run x)).work := by
  cases hstores : c.storesNodes with
  | false => exact keeps_aside (R := GoesWithout label) hends hstores x
  | true =>
      have hnamed : ∀ {ns : List Node}, label ∉ ns.filterMap Node.newLabel? →
          ∀ n ∈ ns, label ∉ n.newLabel? :=
        fun hns n hn hlabel => hns (List.mem_filterMap.mpr ⟨n, hn, hlabel⟩)
      cases c with
      | uri uri => exact perform_changes (Action.createUri_goesWithout uri) x
      | blank asked =>
          have load_blank : ∀ {asked : String}, asked ≠ label →
              Keeps (WorkChanges (GoesWithout label)) (Call.blank (some asked)).run :=
            fun hasked => perform_changes (Action.createBlank_goesWithout hasked)
          cases asked with
          | some asked => exact load_blank (by simpa [labels, eq_comm] using hgiven) x
          | none =>
              cases hclosed : x.closed with
              | true =>
                  have hrun : (Call.blank none).run x = .error .closed x :=
                    whileOpen_of_closed hclosed
                  rw [hrun]
                  exact refl x.work
              | false =>
                  rw [run_blank_none hclosed]
                  exact load_blank (hmade rfl hclosed) (labelled x)
      | literal value =>
          rw [run, Action.createLiteral_eq_request]
          exact perform_changes (Action.request_goesWithout _) x
      | string content language =>
          rw [run, Action.createString_eq_request]
          exact perform_changes (Action.request_goesWithout _) x
      | typed content datatype =>
          rw [run, Action.createTyped_eq_request]
          exact perform_changes (Action.request_goesWithout _) x
      | statement s p o c =>
          exact perform_changes (Action.createStatement_keeps_of
            (fun n hn => Action.convert_goesWithout (hnamed hgiven n hn))
            Action.createUri_goesWithout) x
      | add s p o c =>
          exact keeps_whileOpen (addMade_keeps_of
            (fun n hn => Action.convert_goesWithout (hnamed hgiven n hn))
            Action.createUri_goesWithout fun t => t) x
      | addInferred s p o c => exact addInferred_goesWithout hgood (hnamed hgiven)
      | _ => cases hstores

end Call

/-- The labels that a caller has given. -/
def Event.labels : Event → List String
  | .call _ _ _ c _ => c.labels
  | .begin | .clearCaches | .evict _ => []

namespace OpenStore

variable {s s' : OpenStore} {log : List Event} {e : Event} {i number : Nat} {x : Scope}

theorem Step.labelling (h : s.Step e s') : s.store.Labelling s'.store := by
  cases h with
  | begin => exact ⟨rfl, le_refl _⟩
  | clearCaches => exact (Store.Loses.clearCaches _).labelling
  | evict hevicts => exact hevicts.loses.labelling
  | call c hx =>
      rename_i i x
      show s.store.Labelling (finalState (c.run x)).work.store
      rw [← store_of_scope? hx]
      rcases c.run_cases x with
        ⟨hadvances, -⟩ | ⟨refusal, y, rfl, hop, -, hcommitted⟩ | ⟨-, -, habandoned⟩
      · exact hadvances.works.labelling
      · rw [Call.run, hop]
        exact hcommitted.labelling
      · exact habandoned.labelling

theorem Run.labelling (h : s.Run log s') : s.store.Labelling s'.store := by
  induction h with
  | nil => exact refl _
  | snoc _ hstep ih => exact IsTrans.trans _ _ _ ih hstep.labelling

theorem lacksLabel_step (hs : s.Good)
    (h : s.Everywhere (Tables.LacksLabel (s.store.madeLabel number))) (hstep : s.Step e s')
    (hcount : s'.store.labelCount ≤ number) (hgiven : s.store.madeLabel number ∉ e.labels) :
    s'.Everywhere (Tables.LacksLabel (s'.store.madeLabel number)) := by
  rw [hstep.labelling.madeLabel]
  refine h.step hstep (fun t t' hnodes _ _ ht => ht.of_eq hnodes) ?_
  rintro i before after c answer rfl hends x hx -
  refine Call.goesWithout hends (hs.scopes i x hx).work hgiven fun hc hopen hlabel => ?_
  -- A label that this call makes up has been counted afterwards, so it has a smaller number.
  subst hc
  cases hstep with
  | call _ hx' =>
      obtain rfl := Option.some.inj (hx.symm.trans hx')
      have hlt := Call.labelCount_lt hopen
      have hnumber : x.work.store.labelCount = number :=
        s.store.madeLabel_injective (store_of_scope? hx ▸ hlabel)
      exact absurd (lt_of_lt_of_le hlt hcount) (by omega)

theorem Run.lacksLabel (hs : s.Good)
    (h : s.Everywhere (Tables.LacksLabel (s.store.madeLabel number))) (hrun : s.Run log s')
    (hcount : s'.store.labelCount ≤ number)
    (hgiven : ∀ e ∈ log, s.store.madeLabel number ∉ e.labels) :
    s'.Everywhere (Tables.LacksLabel (s'.store.madeLabel number)) := by
  induction hrun with
  | nil => exact h
  | snoc hrun hstep ih =>
      rw [List.forall_mem_append, List.forall_mem_singleton] at hgiven
      refine lacksLabel_step (hs.run hrun)
        (ih (le_trans hstep.labelling.count hcount) hgiven.1) hstep
        hcount ?_
      rw [hrun.labelling.madeLabel]
      exact hgiven.2

variable {config : Config} {tables : Tables} {registryFile : RegistryFile} {labelStart : String}

/-- A store never makes up a label again, and the blank node that a transaction gets for it is
new, in the committed tables as in its own, if the tables that the store was opened on did not
have the label and no caller has given it. -/
theorem made_labels_fresh (htables : tables.Sound)
    (hrun : (opened config tables registryFile labelStart).Run log s) (hx : s.scope? i = some x) :
    (x.closed = false → ∀ log' s', (s.after i (.blank none)).Run log' s' →
      s'.store.freshLabel ≠ s.store.freshLabel) ∧
    ∀ n, answerOf ((Call.blank none).run x) = .ok n →
      n.term = .blank s.store.freshLabel ∧
      (tables.LacksLabel s.store.freshLabel → (∀ e ∈ log, s.store.freshLabel ∉ e.labels) →
        n.id ∉ s.database.committed.nodeIds ∧ n.id ∉ x.work.view.nodeIds) := by
  have hs := good_opened config htables registryFile labelStart
  have hgood := ((hs.run hrun).scopes i x hx).work
  refine ⟨fun hopen log' s' hlater hlabel => ?_, fun n hanswer => ?_⟩
  · rw [after_of_some hx] at hlater
    rw [← store_of_scope? hx] at hlabel
    have hlt := lt_of_lt_of_le (Call.labelCount_lt hopen) hlater.labelling.count
    have hcalled : x.work.store.Labelling (finalState ((Call.blank none).run x)).work.store :=
      (Call.advances rfl x).works.labelling
    have hlabelling : x.work.store.Labelling s'.store :=
      IsTrans.trans _ _ _ hcalled hlater.labelling
    have hmade := congrFun hlabelling.madeLabel s'.store.labelCount
    exact hlt.ne (x.work.store.madeLabel_injective (hmade.symm.trans hlabel)).symm
  · obtain ⟨w, hcreate⟩ := Call.createBlank_of_answer hanswer
    have hsilent := (Action.createBlank_silent (some _)).ok hcreate
    obtain ⟨hterm, hholds⟩ := Action.createBlank_eq_ok (Call.good_labelled hgood) hcreate
    rw [store_of_scope? hx] at hterm hholds
    refine ⟨hterm, fun hbefore hgiven => ?_⟩
    have hlacks : s.Everywhere (Tables.LacksLabel s.store.freshLabel) := by
      refine hrun.lacksLabel hs ?_ (le_refl _) ?_ <;> rw [← hrun.labelling.madeLabel]
      · exact ⟨hbefore.of_eq tables.nodes_prepare, by rintro i x ⟨⟩⟩
      · exact hgiven
    have hview : n.id ∉ x.work.view.nodeIds :=
      (hlacks.scopes i x hx).fresh
        (hsilent.good (Call.good_labelled hgood)).sound hsilent.nodes hholds
    refine ⟨fun hid => hview ?_, hview⟩
    obtain ⟨r, hr, hrid⟩ := List.mem_map.mp hid
    exact List.mem_map.mpr ⟨r, hgood.nodes r (database_of_scope? hx ▸ hr), hrid⟩

/-- Beside a blank node with a label of the caller, one with a label of its own is new. -/
theorem made_labels_fresh_beside_given :
    let s := (opened {} {} [] "w").begin.after 0 (.blank (some "a"))
    ∃ x n, s.scope? 0 = some x ∧ answerOf (perform (Action.createBlank none) x) = .ok n ∧
      n.term = .blank "bwx0" ∧ n.id ∉ s.database.committed.nodeIds ∧ n.id ∉ x.work.view.nodeIds ∧
      (s.after 0 (.blank none)).store.freshLabel ≠ s.store.freshLabel := by
  intro s
  have hrun := Run.nil (s := opened {} {} [] "w") |>.snoc .begin |>.call 0 (.blank (some "a"))
  obtain ⟨x, hx⟩ : ∃ x, s.scope? 0 = some x := ⟨_, rfl⟩
  obtain ⟨hagain, hanswered⟩ := made_labels_fresh Tables.sound_empty hrun hx
  have hanswer : answerOf (perform (Action.createBlank none) x) = .ok ⟨2, .blank "bwx0"⟩ := by
    cases hx
    decide +kernel
  obtain ⟨hterm, hfresh⟩ := hanswered _ hanswer
  obtain ⟨hcommitted, hview⟩ := hfresh (by rintro id ⟨r, ⟨⟩, -⟩) (by decide +kernel)
  have hopen : x.closed = false := by
    cases hx
    rfl
  refine ⟨x, _, hx, hanswer, hterm.trans ?_, hcommitted, hview, hagain hopen _ _ .nil⟩
  decide +kernel

/-- A caller can tell from one label the next one that the store makes up. When it has named that
before, the blank node without a label is the one that it has created and committed. -/
theorem made_label_named_before :
    ∃ log s x n, (opened {} {} [] "w").Run log s ∧ s.scope? 1 = some x ∧
      answerOf (perform (Action.createBlank none) x) = .ok n ∧
      n.id ∈ s.database.committed.nodeIds ∧
      n.id ∈ x.work.view.nodeIds := by
  have hrun := Run.nil (s := opened {} {} [] "w") |>.snoc .begin |>.call 0 (.blank none)
    |>.call 0 (.blank (some "bwx1")) |>.call 0 (.commit none) |>.snoc .begin
  refine ⟨_, _, _, ⟨2, .blank "bwx1"⟩, hrun, rfl, ?_, by decide +kernel, by decide +kernel⟩
  decide +kernel

end OpenStore
end QuadStore
