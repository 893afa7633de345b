import QuadStore.Proofs.LegibleRows
import QuadStore.Proofs.NodeWork

namespace QuadStore

open LiteralValue (Legible)
open Transaction

variable {w w' : Workspace}

/-- Whether all rows of nodes can be read, and the datatypes that they have are stored. -/
structure Tables.LegibleNodes (t : Tables) : Prop where
  recorded : t.Recorded Legible
  datatypes : ∀ r ∈ t.nodes, ∀ id ∈ r.datatype, 0 ≤ id

theorem Tables.LegibleNodes.of_eq {t t' : Tables} (h : t.LegibleNodes)
    (hnodes : t'.nodes = t.nodes) :
    t'.LegibleNodes :=
  ⟨h.recorded.of_eq hnodes, hnodes ▸ h.datatypes⟩

theorem Tables.legibleNodes_empty : LegibleNodes {} :=
  ⟨recorded_empty, by rintro r ⟨⟩⟩

/-- Whether the same rows of nodes are seen. -/
def SameNodes (w w' : Workspace) : Prop :=
  w'.view.nodes = w.view.nodes

instance : IsPreorder Workspace SameNodes where
  refl _ := rfl
  trans _ _ _ h h' := Eq.trans h' h

instance : AllowsAside SameNodes where
  aside := Aside.nodes
  cacheNode hn := congrArg Tables.nodes (Action.cacheNode_reads fun _ => hn).view_eq
  storeNamespace ns := (Action.storeNamespace_leaves ns).mono fun _ _ => LeavesNodes.view
  deleteNamespace ns := (Action.deleteNamespace_leaves ns).mono fun _ _ => LeavesNodes.view

/-- Whether rows of nodes that can all be read stay such rows. -/
def StaysLegible (w w' : Workspace) : Prop :=
  w.view.LegibleNodes → w'.view.LegibleNodes

instance : IsPreorder Workspace StaysLegible where
  refl _ h := h
  trans _ _ _ h h' hw := h' (h hw)

theorem SameNodes.staysLegible (h : SameNodes w w') : StaysLegible w w' :=
  fun hw => hw.of_eq h

/-- Whether rows of nodes that can all be read stay such rows, if the workspace is in order. -/
def KeepsLegible (w w' : Workspace) : Prop :=
  w.Good → w'.Good ∧ StaysLegible w w'

instance : IsPreorder Workspace KeepsLegible where
  refl w hgood := ⟨hgood, refl w⟩
  trans _ _ _ h h' hgood := by
    obtain ⟨hgood', hstays⟩ := h hgood
    obtain ⟨hgood'', hstays'⟩ := h' hgood'
    exact ⟨hgood'', IsTrans.trans _ _ _ hstays hstays'⟩

namespace Action

variable {n m : Node} {α : Type}

theorem stays_of_aside {a : Action α} (h : Keeps Aside a) : Keeps StaysLegible a :=
  h.mono fun _ _ h => SameNodes.staysLegible h.nodes

theorem stays_of_reads {a : Action α} (h : Keeps Reads a) : Keeps StaysLegible a :=
  h.mono fun _ _ h => SameNodes.staysLegible (congrArg Tables.nodes h.view_eq)

theorem checkDatatype_eq_ok {u : Unit} (h : checkDatatype n w = .ok u w') :
    (∀ d ∈ n.datatype?, 0 ≤ d.id) ∧ w' = w := by
  unfold checkDatatype at h
  cases hdatatype : n.datatype? with
  | none =>
      rw [hdatatype] at h
      obtain ⟨-, rfl⟩ := pure_eq_ok_iff.mp h
      exact ⟨by simp, rfl⟩
  | some d =>
      rw [hdatatype] at h
      by_cases hd : d.id < 0
      · simp only [if_pos hd] at h
        cases h
      · simp only [if_neg hd] at h
        obtain ⟨-, rfl⟩ := pure_eq_ok_iff.mp h
        exact ⟨by simpa using not_lt.mp hd, rfl⟩

theorem setTables_legible {t : Tables} {id : Int} (hfits : w.view.Fits Legible n)
    (hdatatype : ∀ l, n.term = .literal l → ∀ datatype ∈ l.datatype, 0 ≤ datatype.id)
    (hinsert : w.view.insertNode? (.ofNode id n) = some t) :
    StaysLegible w (finalState (setTables t w)) := by
  intro h
  refine ⟨h.recorded.insertNode hfits hinsert, fun r hr d hd => ?_⟩
  obtain ⟨rfl, -⟩ := Tables.insertNode?_eq_some hinsert
  rcases List.mem_append.mp hr with hr | hr
  · exact h.datatypes r hr d hd
  · obtain rfl := List.mem_singleton.mp hr
    cases hterm : n.term with
    | uri uri | blank label => simp [NodeRow.ofNode, hterm] at hd
    | literal l =>
        obtain ⟨-, -, -, hcolumn⟩ := (NodeRow.records_ofNode id n).literal (l := l) hterm
        rw [hcolumn] at hd
        obtain ⟨datatype, hl, rfl⟩ := Option.map_eq_some_iff.mp hd
        exact hdatatype l hterm datatype hl

theorem storeNode_legible (hfits : w.view.Fits Legible n) :
    StaysLegible w (finalState (storeNode n w)) := by
  unfold storeNode
  split
  · exact refl w
  have hcheck : Keeps SameNodes (checkDatatype n) := by
    unfold checkDatatype
    split
    · exact .ite (.throw _) (.pure _)
    · exact .pure _
  refine finalState_bind (hcheck w).staysLegible fun _ w₁ hchecked => ?_
  have hdatatype : ∀ l, n.term = .literal l → ∀ datatype ∈ l.datatype, 0 ≤ datatype.id := by
    intro l hterm datatype hl
    refine (checkDatatype_eq_ok hchecked).1 datatype ?_
    simpa [Node.datatype?, Node.literal?, hterm] using hl
  have hfits₁ : w₁.view.Fits Legible n := hfits.mono fun r hr => (hcheck.ok hchecked : _ = _) ▸ hr
  refine finalState_bind (stays_of_aside beginWrite_aside w₁) fun _ w₂ hbegin => ?_
  refine finalState_bind (stays_of_aside (nextId_aside .nodes) w₂) fun id w₃ hnext => ?_
  have hnodes : w₃.view.nodes = w₁.view.nodes :=
    ((nextId_aside .nodes).ok hnext).nodes.trans (beginWrite_aside.ok hbegin).nodes
  have hfits₃ : w₃.view.Fits Legible n := hfits₁.mono fun r hr => hnodes ▸ hr
  refine finalState_bind (keeps_view _ w₃) fun tables w₄ hview => ?_
  obtain ⟨hinsert, rfl⟩ := view_eq_ok_iff.mp hview
  have keep : ∀ stored : Node, Keeps StaysLegible (do
      let stored ← (pure stored : Action Node)
      modifyConn fun c => { c with freshNodes := c.freshNodes ++ [stored] }
      pure stored) := fun stored => (Keeps.pure stored).bind fun stored =>
    Keeps.bind (R := StaysLegible) (fun w h => h) fun _ => .pure _
  cases tables with
  | some tables =>
      exact finalState_bind (setTables_legible hfits₃ hdatatype hinsert) fun _ w₄ _ => keep _ w₄
  | none =>
      refine finalState_bind (stays_of_reads (loadNode_reads n) w₃) fun existing w₄ _ => ?_
      cases existing with
      | some existing => exact keep _ w₄
      | none => exact refl w₄

theorem loadOrStore_legible (hfits : w.view.Fits Legible n) :
    StaysLegible w (finalState (loadOrStore n w)) := by
  refine finalState_bind (stays_of_reads (loadNode_reads n) w) fun found w₁ hload => ?_
  have hview := ((loadNode_reads n).ok hload).view_eq
  cases found with
  | none => exact storeNode_legible (hview ▸ hfits)
  | some m =>
      refine finalState_bind (SameNodes.staysLegible ?_) fun _ w₂ _ => refl w₂
      exact AllowsCaching.cacheNode (hview ▸ (holdsNode_of_loadNode hload).1)

theorem createUri_legible (uri : String) : Keeps StaysLegible (createUri uri) := by
  refine keeps_get.bind fun w => ?_
  split
  · exact .pure _
  · exact fun w => loadOrStore_legible (by rintro l ⟨⟩)

theorem createBlank_legible (label : Option String) : Keeps StaysLegible (createBlank label) := by
  have load_blank : ∀ label : String, Keeps StaysLegible (createBlank (some label)) := by
    intro label
    refine Keeps.bind (Keeps.pure label) fun label => keeps_get.bind fun w => ?_
    split
    · exact .pure _
    · exact fun w => loadOrStore_legible (by rintro l ⟨⟩)
  cases label with
  | some label => exact load_blank label
  | none => exact (stays_of_aside freshLabel_aside).bind fun label => load_blank label

theorem createDatatype_legible (uri : String) : Keeps StaysLegible (createDatatype uri) := by
  refine (createUri_legible uri).bind fun n => ?_
  split
  · exact .pure _
  · exact .throw _

theorem createDatatype_eq_ok {uri : String} {datatype : UriResource} (hgood : w.Good)
    (h : createDatatype uri w = .ok datatype w') :
    datatype.uri = uri ∧ w'.view.HoldsNode ⟨datatype.id, .uri datatype.uri⟩ := by
  obtain ⟨⟨id, term⟩, w₁, hcreate, h⟩ := bind_eq_ok_iff.mp h
  obtain ⟨rfl, hholds⟩ := createUri_eq_ok hgood hcreate
  obtain ⟨rfl, rfl⟩ := pure_eq_ok_iff.mp h
  exact ⟨rfl, hholds⟩

theorem resolveValue_legible {value : LiteralValue}
    (hvalue : value.Legible) {datatype : UriResource}
    (hheld : w.view.HoldsNode ⟨datatype.id, .uri datatype.uri⟩) :
    StaysLegible w (finalState (resolveValue value datatype w)) := by
  refine finalState_bind (keeps_get w) fun w₁ w₂ hget => ?_
  obtain ⟨rfl, rfl⟩ := get_eq_ok_iff.mp hget
  cases w.store.caches.literal.get? (Literal.key ⟨value, some datatype⟩) with
  | some m => exact refl w
  | none =>
      refine loadOrStore_legible ?_
      rintro l ⟨⟩
      exact ⟨hvalue, datatype, rfl, hheld⟩

/-- Asks for the literal with a value of a datatype. -/
def request (literal : LiteralValue × String) : Action Node := do
  resolveLiteral literal.1 (← createDatatype literal.2)

theorem createString_eq_request (content : String) (language : Option String) :
    createString content language = request (.string content (language.map Text.lowerCase),
      (LiteralValue.string content language).defaultDatatype) := rfl

theorem createLiteral_eq_request (value : LiteralValue) :
    createLiteral value = request (value.lowered, value.defaultDatatype) := by
  cases value <;> rfl

theorem createTyped_eq_request (content datatype : String) :
    createTyped content datatype = request (LiteralValue.ofText content datatype) := by
  unfold createTyped LiteralValue.ofText
  cases LiteralValue.read datatype content <;> rfl

/-- A literal that has no id is converted by asking for it. -/
theorem convert_eq_request {l : Literal} (hnew : n.isPersisted = false)
    (hterm : n.term = .literal l) :
    convert n = request l.asked := by
  unfold convert
  rw [if_neg (by simp [hnew]), hterm]
  rfl

theorem createString_legible (content : String) (language : Option String) (hgood : w.Good) :
    StaysLegible w (finalState (createString content language w)) := by
  refine finalState_bind (createDatatype_legible _ w) fun datatype w₁ hdatatype => ?_
  have hheld := (createDatatype_eq_ok hgood hdatatype).2
  exact resolveValue_legible (LiteralValue.legible_string _ _) hheld

theorem resolveLiteral_legible {value : LiteralValue} (hgood : w.Good) (hyears : value.InYears)
    {datatype : UriResource} (hheld : w.view.HoldsNode ⟨datatype.id, .uri datatype.uri⟩) :
    StaysLegible w (finalState (resolveLiteral value datatype w)) := by
  have hnumber : value.isNaN = false →
      StaysLegible w (finalState (resolveValue value datatype w)) :=
    fun hnumber => resolveValue_legible ⟨hnumber, hyears⟩ hheld
  cases value with
  | double x =>
      unfold resolveLiteral
      dsimp only
      split
      · exact createString_legible _ _ hgood
      · rename_i hx
        exact hnumber (eq_false_of_ne_true hx)
  | string | int | boolean | date => exact hnumber rfl

theorem request_legible {literal : LiteralValue × String} (hgood : w.Good)
    (hyears : literal.1.InYears) :
    StaysLegible w (finalState (request literal w)) := by
  refine finalState_bind (createDatatype_legible _ w) fun datatype w₁ hdatatype => ?_
  exact resolveLiteral_legible (((createDatatype_silent _).ok hdatatype).good hgood) hyears
    (createDatatype_eq_ok hgood hdatatype).2

theorem keepsLegible_of_works {a : Action α} (hworks : Keeps Works a)
    (h : ∀ w, w.Good → StaysLegible w (finalState (a w))) : Keeps KeepsLegible a :=
  fun w hgood => ⟨(hworks w).good hgood, h w hgood⟩

theorem request_keepsLegible {literal : LiteralValue × String} (hyears : literal.1.InYears) :
    Keeps KeepsLegible (request literal) := by
  have hsilent : Keeps Silent (request literal) :=
    (createDatatype_silent _).bind fun _ => resolveLiteral_silent _ _
  exact keepsLegible_of_works hsilent.quiet.works fun w hgood => request_legible hgood hyears

theorem createUri_keepsLegible (uri : String) : Keeps KeepsLegible (createUri uri) :=
  keepsLegible_of_works (createUri_silent uri).quiet.works fun w _ => createUri_legible uri w

theorem createBlank_keepsLegible (label : Option String) :
    Keeps KeepsLegible (createBlank label) :=
  keepsLegible_of_works (createBlank_silent label).quiet.works fun w _ =>
    createBlank_legible label w

theorem convert_keepsLegible (hyears : ∀ value ∈ n.newValue?, value.InYears) :
    Keeps KeepsLegible (convert n) := by
  cases hnew : n.isPersisted with
  | true =>
      unfold convert
      rw [if_pos hnew]
      exact .pure _
  | false =>
      cases hterm : n.term with
      | literal l =>
          rw [convert_eq_request hnew hterm]
          exact request_keepsLegible
            (hyears l.value (by simp [Node.newValue?, hnew, Node.literal?, hterm]))
      | uri uri =>
          unfold convert
          rw [if_neg (by simp [hnew]), hterm]
          exact createUri_keepsLegible uri
      | blank label =>
          unfold convert
          rw [if_neg (by simp [hnew]), hterm]
          exact createBlank_keepsLegible _

theorem keepsLegible_of_same {a : Action α} (hworks : Keeps Works a) (hsame : Keeps SameNodes a) :
    Keeps KeepsLegible a :=
  keepsLegible_of_works hworks fun w _ => (hsame w).staysLegible

theorem createStatement_keepsLegible {subject predicate object : Node} {context : Option Node}
    (hyears : ∀ n ∈ [subject, predicate, object] ++ context.toList,
      ∀ value ∈ n.newValue?, value.InYears) :
    Keeps KeepsLegible (createStatement subject predicate object context) := by
  have identify : ∀ s p o c, Keeps KeepsLegible (do
      identifyShared (← ofStatement (Statement.make s p o (some c))) : Action Statement) := by
    intro s p o c
    exact (keeps_ofStatement _).bind fun t =>
      keepsLegible_of_same (identifyShared_quiet t).works (identifyShared_keeps t)
  refine (keeps_ofStatement _).bind fun _ => ?_
  refine (convert_keepsLegible (hyears subject (by simp))).bind fun _ => ?_
  refine (convert_keepsLegible (hyears predicate (by simp))).bind fun _ => ?_
  refine (convert_keepsLegible (hyears object (by simp))).bind fun _ => ?_
  cases context with
  | some c => exact (convert_keepsLegible (hyears c (by simp))).bind fun _ => identify _ _ _ _
  | none =>
      exact keeps_get.bind fun w => (createUri_keepsLegible _).bind fun _ => identify _ _ _ _

end Action

namespace Transaction

theorem store_keepsLegible (t : Statement) : Keeps (WorkChanges KeepsLegible) (store t) := by
  refine (work_changes (Action.keepsLegible_of_same (Action.storeStatement_works t)
    (Action.storeStatement_keeps t))).bind fun stored => ?_
  have account : Keeps (WorkChanges KeepsLegible) (modifyChanges (·.add stored.1)) :=
    fun x => refl x.work
  dsimp only
  split
  · exact account.bind fun _ => .pure _
  · exact Keeps.bind (R := WorkChanges KeepsLegible) (.pure _) fun _ => .pure _

theorem addMade_keepsLegible {subject predicate object : Node} {context : Option Node}
    (mark : Statement → Statement)
    (hyears : ∀ n ∈ [subject, predicate, object] ++ context.toList,
      ∀ value ∈ n.newValue?, value.InYears) :
    Keeps (WorkChanges KeepsLegible) (addMade subject predicate object context mark) :=
  (work_changes (Action.createStatement_keepsLegible hyears)).bind fun _ => store_keepsLegible _

theorem addInferred_keepsLegible {subject predicate object : Node} {context : Option Node}
    (hyears : ∀ n ∈ [subject, predicate, object] ++ context.toList,
      ∀ value ∈ n.newValue?, value.InYears) :
    Keeps (WorkChanges KeepsLegible) (addInferred subject predicate object context) := by
  intro x hgood
  refine addInferred_leaves (R := WorkChanges KeepsLegible)
    (work_changes (keeps_inferredContext Action.createUri_keepsLegible))
    (fun c w hknown => addMade_keepsLegible _ (hknown.forall_mem hyears ?_) _) hgood
  intro uri hcreate value hvalue
  have hterm : c.term = _ := (Action.createUri_eq_ok hgood hcreate).1
  simp [Node.newValue?, Node.literal?, hterm] at hvalue

end Transaction

namespace Call

variable {c : Call} {x : Scope}

theorem keepsLegible (hends : c.ends = false) (hyears : ∀ value ∈ c.values, value.InYears)
    (hgood : x.work.Good) : StaysLegible x.work (finalState (c.run x)).work := by
  cases hstores : c.storesNodes with
  | false => exact SameNodes.staysLegible (keeps_aside (R := SameNodes) hends hstores x)
  | true =>
      suffices hkeeps : WorkChanges KeepsLegible x (finalState (c.run x)) from (hkeeps hgood).2
      cases c with
      | uri uri => exact perform_changes (Action.createUri_keepsLegible uri) x
      | blank label => exact perform_changes (Action.createBlank_keepsLegible label) x
      | literal value =>
          rw [run, Action.createLiteral_eq_request]
          exact perform_changes
            (Action.request_keepsLegible (hyears _ (List.mem_singleton_self _))) x
      | string content language =>
          rw [run, Action.createString_eq_request]
          exact perform_changes
            (Action.request_keepsLegible (hyears _ (List.mem_singleton_self _))) x
      | typed content datatype =>
          rw [run, Action.createTyped_eq_request]
          exact perform_changes
            (Action.request_keepsLegible (hyears _ (List.mem_singleton_self _))) x
      | statement s p o c =>
          exact perform_changes
            (Action.createStatement_keepsLegible (List.forall_mem_filterMap.mp hyears)) x
      | add s p o c =>
          exact keeps_whileOpen
            (addMade_keepsLegible (fun t => t) (List.forall_mem_filterMap.mp hyears)) x
      | addInferred s p o c =>
          exact addInferred_keepsLegible (List.forall_mem_filterMap.mp hyears) x
      | _ => cases hstores

end Call
end QuadStore
