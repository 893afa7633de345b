import QuadStore.Proofs.Reopenings

/-!
Ids in the files of a store, however often it is opened. Main statement: where a sequence goes on
when the store is opened, every id is passed that a committed row has had, so that none is given
to another row, and the stored counters never decrease.
-/

namespace QuadStore

open Transaction

/-! Stored counters -/

namespace Tables

/-- Whether no stored counter has decreased. -/
def CountsOn (t t' : Tables) : Prop :=
  ∀ name value, t.sequences.get? name = some value →
    ∃ value', t'.sequences.get? name = some value' ∧ value ≤ value'

instance : IsPreorder Tables CountsOn where
  refl _ _ value h := ⟨value, h, le_refl value⟩
  trans _ _ _ h h' name value hvalue := by
    obtain ⟨value', hvalue', hle⟩ := h name value hvalue
    obtain ⟨value'', hvalue'', hle'⟩ := h' name value' hvalue'
    exact ⟨value'', hvalue'', le_trans hle hle'⟩

theorem CountsOn.of_eq {t t' : Tables} (h : t'.sequences = t.sequences) : t.CountsOn t' := by
  rw [CountsOn, h]
  exact fun _ value hvalue => ⟨value, hvalue, le_refl value⟩

theorem sequences_prepare (t : Tables) : t.prepare.sequences = t.sequences := by
  unfold prepare
  split <;> rfl

end Tables

namespace Counters

variable (c : Counters) (t : Tables)

theorem countsOn_persistOne (q : Sequence) : t.CountsOn (c.persistOne t q) := by
  intro name value hvalue
  simp only [persistOne, Dict.get?_insert]
  split
  · rename_i hname
    subst hname
    rw [hvalue]
    exact ⟨_, rfl, le_max_left _ _⟩
  · exact ⟨value, hvalue, le_refl value⟩

theorem countsOn_foldl (qs : List Sequence) : t.CountsOn (qs.foldl c.persistOne t) := by
  induction qs generalizing t with
  | nil => exact refl t
  | cons q rest ih => exact IsTrans.trans _ _ _ (c.countsOn_persistOne t q) (ih _)

theorem countsOn_persist : t.CountsOn (c.persist t) :=
  c.countsOn_foldl t _

theorem stored_persistOne (q : Sequence) :
    ∃ value, (c.persistOne t q).sequences.get? q.name = some value ∧ c.current q ≤ value := by
  simp only [persistOne, Dict.get?_insert, if_pos]
  split
  · exact ⟨_, rfl, le_max_right _ _⟩
  · exact ⟨_, rfl, le_refl _⟩

theorem stored_foldl {qs : List Sequence} {q : Sequence} (hq : q ∈ qs) :
    ∃ value, (qs.foldl c.persistOne t).sequences.get? q.name = some value ∧
    c.current q ≤ value := by
  induction qs generalizing t with
  | nil => cases hq
  | cons first rest ih =>
      rcases List.mem_cons.mp hq with rfl | hq
      · obtain ⟨value, hvalue, hle⟩ := c.stored_persistOne t q
        obtain ⟨value', hvalue', hle'⟩ := c.countsOn_foldl (c.persistOne t q) rest _ _ hvalue
        exact ⟨value', hvalue', le_trans hle hle'⟩
      · exact ih _ hq

theorem current_le_resume (q : Sequence) : c.current q ≤ resume (c.persist t) q := by
  obtain ⟨value, hvalue, hle⟩ := c.stored_foldl t (by cases q <;> simp :
    q ∈ [Sequence.nodes, .statements, .namespaces, .transactions])
  refine le_max_of_le_left ?_
  rw [persist, hvalue]
  exact hle

variable {t}

theorem le_resume {q : Sequence} {id : Int} (h : id ∈ q.ids t) : id ≤ resume t q :=
  le_max_of_le_right (Tables.le_greatestId h)

theorem resume_prepare (t : Tables) (q : Sequence) : resume t.prepare q = resume t q := by
  cases q <;> simp only [resume, Sequence.ids, Tables.sequences_prepare, Tables.nodes_prepare,
    Tables.statements_prepare, Tables.namespaces_prepare]

end Counters

theorem OpenStore.current_opened (config : Config) (tables : Tables) (registryFile : RegistryFile)
    (labelStart : String) (q : Sequence) :
    (opened config tables registryFile labelStart).store.counters.current q =
      Counters.resume tables q := by
  rw [← Counters.resume_prepare]
  cases q <;> rfl

/-! Rows of bindings -/

/-- Whether no two rows of bindings have the same id. -/
def Tables.NumbersOnce (t : Tables) : Prop :=
  ∀ r ∈ t.namespaces, ∀ r' ∈ t.namespaces, r'.id = r.id → r' = r

/-- What calls leave of the ids of bindings and of the stored counters. -/
structure KeepsNumbers (w w' : Workspace) : Prop where
  sequences : w'.view.sequences = w.view.sequences
  once : w.view.NumbersOnce → w'.view.NumbersOnce

namespace KeepsNumbers

variable {w w' : Workspace}

instance : IsPreorder Workspace KeepsNumbers where
  refl _ := ⟨rfl, id⟩
  trans _ _ _ h h' := ⟨h'.sequences.trans h.sequences, fun hw => h'.once (h.once hw)⟩

theorem of_same (hsequences : w'.view.sequences = w.view.sequences)
    (hnamespaces : w'.view.namespaces = w.view.namespaces) : KeepsNumbers w w' := by
  refine ⟨hsequences, fun h => ?_⟩
  rw [Tables.NumbersOnce, hnamespaces]
  exact h

theorem of_view (h : w'.view = w.view) : KeepsNumbers w w' :=
  .of_same (by rw [h]) (by rw [h])

theorem of_aside (h : Aside w w') : KeepsNumbers w w' :=
  .of_same h.sequences h.namespaces

theorem storeNamespace (ns : Namespace) : Keeps KeepsNumbers (Action.storeNamespace ns) := by
  refine (Action.beginWrite_aside.mono fun _ _ => of_aside).bind fun _ => ?_
  refine ((Action.nextId_aside _).mono fun _ _ => of_aside).bind fun id =>
    Action.keeps_get.bind_of ?_
  intro w v w₁ hget
  obtain ⟨rfl, rfl⟩ := Action.get_eq_ok_iff.mp hget
  refine finalState_bind (Action.keeps_ofData _ w) fun t w₁ hfound => ?_
  obtain ⟨hinsert, rfl⟩ := Action.ofData_eq_ok_iff.mp hfound
  obtain ⟨rfl, hnew⟩ := Tables.insertNamespace_eq_ok_iff.mp hinsert
  refine ⟨rfl, fun honce r hr r' hr' hid => ?_⟩
  rcases List.mem_append.mp hr with hold | hadded <;>
    rcases List.mem_append.mp hr' with hold' | hadded'
  · exact honce r hold r' hold' hid
  · rw [List.mem_singleton.mp hadded'] at hid
    exact absurd hid.symm (hnew r hold).1
  · rw [List.mem_singleton.mp hadded] at hid
    exact absurd hid (hnew r' hold').1
  · rw [List.mem_singleton.mp hadded, List.mem_singleton.mp hadded']

theorem deleteNamespace (ns : Namespace) : Keeps KeepsNumbers (Action.deleteNamespace ns) := by
  refine (Action.beginWrite_aside.mono fun _ _ => of_aside).bind fun _ =>
    (Action.keeps_view _).bind_of fun w t w₁ hview => ?_
  obtain ⟨rfl, rfl⟩ := Action.view_eq_ok_iff.mp hview
  have remains : ∀ r ∈ (w.view.namespaces.partition fun row => row.label == ns.label).2,
      r ∈ w.view.namespaces := fun r hr => by
    rw [List.partition_eq_filter_filter] at hr
    exact (List.mem_filter.mp hr).1
  exact ⟨rfl, fun honce r hr r' hr' => honce r (remains r hr) r' (remains r' hr')⟩

instance : AllowsWork KeepsNumbers where
  aside := of_aside
  cacheNode hn := of_view (Action.cacheNode_reads fun _ => hn).view_eq
  insertNode _ hinsert := by
    obtain ⟨rfl, -⟩ := Tables.insertNode?_eq_some hinsert
    exact of_same rfl rfl
  keepNode _ _ := of_view rfl
  storeNamespace := storeNamespace
  deleteNamespace := deleteNamespace

end KeepsNumbers

/-! Rows that go on -/

namespace Tables

/-- Whether rows of nodes and statements are still there in later tables, and whether what has the
id of the row of a binding is that row. -/
structure Continues (t t' : Tables) : Prop where
  nodes : ∀ r ∈ t.nodes, r ∈ t'.nodes
  evolves : t.Evolves t'
  namespaces : ∀ r ∈ t.namespaces, ∀ r' ∈ t'.namespaces, r'.id = r.id → r' = r

/-- Whether no id of a row has been given to another one in later tables. -/
structure KeepsIds (t t' : Tables) : Prop where
  nodes : ∀ r ∈ t.nodes, ∀ r' ∈ t'.nodes, r'.id = r.id → r' = r
  statements : ∀ r ∈ t.statements, ∀ r' ∈ t'.statements, r'.id = r.id → r.Becomes r'
  namespaces : ∀ r ∈ t.namespaces, ∀ r' ∈ t'.namespaces, r'.id = r.id → r' = r

variable {t t' t'' : Tables}

theorem Continues.keepsIds (h : t.Continues t') (hsound : t'.Sound) : t.KeepsIds t' := by
  refine ⟨fun r hr r' hr' hid => ?_, fun r hr r' hr' hid => ?_, h.namespaces⟩
  · exact List.inj_on_of_nodup_map hsound.nodeIds hr' (h.nodes r hr) hid
  · obtain ⟨r₁, hr₁, hbecomes⟩ := h.evolves r hr
    rwa [hsound.row_eq hr' hr₁ (hid.trans hbecomes.id.symm)]

theorem NumbersOnce.continues (h : t.NumbersOnce) : t.Continues t :=
  ⟨fun _ hr => hr, refl t, h⟩

theorem NumbersOnce.of_eq (h : t.NumbersOnce) (hsame : t'.namespaces = t.namespaces) :
    t'.NumbersOnce := by
  rw [NumbersOnce, hsame]
  exact h

theorem Continues.of_eq (h : t.Continues t') (hnodes : t''.nodes = t'.nodes)
    (hstatements : t''.statements = t'.statements)
    (hnamespaces : t''.namespaces = t'.namespaces) :
    t.Continues t'' := by
  refine ⟨?_, ?_, ?_⟩
  · rw [hnodes]
    exact h.nodes
  · exact IsTrans.trans (r := Evolves) _ _ _ h.evolves (.of_eq hstatements)
  · rw [hnamespaces]
    exact h.namespaces

theorem Continues.mem_ids (h : t.Continues t') {q : Sequence} (hq : q ≠ .namespaces) {id : Int}
    (hid : id ∈ q.ids t) : id ∈ q.ids t' := by
  cases q with
  | nodes =>
      obtain ⟨r, hr, rfl⟩ := List.mem_map.mp hid
      exact List.mem_map_of_mem (h.nodes r hr)
  | statements => exact h.evolves.mem_ids hid
  | namespaces => exact absurd rfl hq
  | transactions => exact hid

theorem Continues.call {x : Scope} {c : Call}
    (h : t.Continues x.work.view) (hends : c.ends = false)
    (hpassed : ∀ r ∈ t.namespaces, r.id ≤ x.work.store.counters.namespaces) :
    t.Continues (finalState (c.run x)).work.view := by
  have hworks := (Call.advances hends x).works
  refine ⟨fun r hr => hworks.nodes r (h.nodes r hr),
    IsTrans.trans (r := Evolves) _ _ _ h.evolves hworks.evolves, fun r hr r' hr' hid => ?_⟩
  rcases hworks.binds.ids r' hr' with hold | hnew
  · exact h.namespaces r hr r' hold hid
  · have hle := hpassed r hr
    omega

end Tables

/-! Ids in an open store -/

namespace OpenStore

variable {s s' : OpenStore} {m : Happening} {t : Tables}

/-- Whether all tables that are seen number their bindings once and go on with what is committed.
None of them but the committed ones have had counters written to them. -/
structure Numbered (s : OpenStore) : Prop where
  once : s.Everywhere Tables.NumbersOnce
  sequences : s.Everywhere fun t => t.sequences = s.database.committed.sequences

theorem numbered_opened (config : Config) {tables : Tables} (honce : tables.NumbersOnce)
    (registryFile : RegistryFile) (labelStart : String) :
    (opened config tables registryFile labelStart).Numbered :=
  ⟨⟨honce.of_eq tables.namespaces_prepare, by rintro i x ⟨⟩⟩, ⟨rfl, by rintro i x ⟨⟩⟩⟩

theorem Numbered.happens (hgood : s.Good) (hs : s.Numbered)
    (h : s.Happens m s') : s'.Numbered := by
  rcases h.rewrites_or_goesOn hgood with hrewrites | hgoesOn
  · obtain ⟨t, hsees, hcommitted⟩ := hrewrites.committed
    refine ⟨hrewrites.everywhere ?_, hrewrites.everywhere rfl⟩
    rw [hcommitted]
    exact (hs.once.of_sees hsees).of_eq rfl
  · refine ⟨hgoesOn.everywhere hs.once fun _ hends =>
      (Call.keeps (R := KeepsNumbers) hends _).once, ?_⟩
    rw [hgoesOn.committed]
    exact hgoesOn.everywhere hs.sequences fun _ hends hview =>
      (Call.keeps (R := KeepsNumbers) hends _).sequences.trans hview

/-- Whether the tables of an open store are later ones of some tables. -/
structure Follows (t : Tables) (s : OpenStore) : Prop where
  seen : s.Everywhere t.Continues
  counts : t.CountsOn s.database.committed
  stored : ∀ r ∈ t.namespaces, r.id ≤ Counters.resume s.database.committed .namespaces
  passed : ∀ r ∈ t.namespaces, r.id ≤ s.store.counters.namespaces

theorem Follows.happens (hgood : s.Good) (hnumbered : s.Numbered) (hs : Follows t s)
    (h : s.Happens m s') : Follows t s' := by
  rcases h.rewrites_or_goesOn hgood with hrewrites | hgoesOn
  · obtain ⟨t', hsees, hcommitted⟩ := hrewrites.committed
    have hcounts : s.database.committed.CountsOn t' := .of_eq (hnumbered.sequences.of_sees hsees)
    refine ⟨hrewrites.everywhere ?_, ?_, ?_, ?_⟩
    · rw [hcommitted]
      exact (hs.seen.of_sees hsees).of_eq rfl rfl rfl
    · rw [hcommitted]
      exact IsTrans.trans (r := Tables.CountsOn) _ _ _ hs.counts
        (IsTrans.trans (r := Tables.CountsOn) _ _ _ hcounts (Counters.countsOn_persist _ t'))
    · rw [hcommitted]
      exact fun r hr => le_trans (hs.passed r hr) (Counters.current_le_resume _ t' .namespaces)
    · rw [hrewrites.counters]
      exact hs.passed
  · refine ⟨hgoesOn.everywhere hs.seen fun hx hends hview => hview.call hends ?_, ?_, ?_,
      fun r hr => le_trans (hs.passed r hr) hgoesOn.counter⟩
    · rw [store_of_scope? hx]
      exact hs.passed
    · rw [hgoesOn.committed]
      exact hs.counts
    · rw [hgoesOn.committed]
      exact hs.stored

/-- Whether a store is in order and all that is seen goes on with what is committed. -/
structure InOrder (s : OpenStore) : Prop where
  good : s.Good
  bound : s.Bound
  numbered : s.Numbered
  follows : Follows s.database.committed s

theorem inOrder_opened (config : Config) {tables : Tables} (hsound : tables.Sound)
    (hbinds : tables.BindsOnce) (honce : tables.NumbersOnce) (registryFile : RegistryFile)
    (labelStart : String) : (opened config tables registryFile labelStart).InOrder := by
  have hnumbered := numbered_opened config honce registryFile labelStart
  have hbound := bound_opened config hbinds registryFile labelStart
  refine ⟨good_opened config hsound registryFile labelStart, hbound, hnumbered, ?_⟩
  exact ⟨⟨hnumbered.once.committed.continues, by rintro i x ⟨⟩⟩, refl _,
    fun r hr => Counters.le_resume (List.mem_map_of_mem hr), hbound.shared.committedIds⟩

theorem InOrder.happens (hs : s.InOrder) (h : s.Happens m s') : s'.InOrder := by
  have hbound := hs.bound.happens hs.good h
  have hnumbered := hs.numbered.happens hs.good h
  refine ⟨hs.good.happens h, hbound, hnumbered, ?_, refl _,
    fun r hr => Counters.le_resume (List.mem_map_of_mem hr), hbound.shared.committedIds⟩
  rcases h.rewrites_or_goesOn hs.good with hrewrites | hgoesOn
  · exact hrewrites.everywhere hnumbered.once.committed.continues
  · rw [hgoesOn.committed]
    exact (hs.follows.happens hs.good hs.numbered h).seen

end OpenStore

/-! Ids in files -/

namespace Files

variable {p p' p'' : Files} {c : FileChange} {log log' : List FileChange} {t : Tables}

/-- Whether the tables are sound and their bindings have their own ids and prefixes, and so has
what is seen of them while a store is open. -/
def InOrder : Files → Prop
  | closed tables _ => tables.Sound ∧ tables.BindsOnce ∧ tables.NumbersOnce
  | opened s => s.InOrder

/-- Whether the tables are later ones of some tables. -/
def Follows (t : Tables) : Files → Prop
  | closed tables _ => t.Continues tables ∧ t.CountsOn tables ∧
      ∀ r ∈ t.namespaces, r.id ≤ Counters.resume tables .namespaces
  | opened s => OpenStore.Follows t s

theorem InOrder.step (hp : p.InOrder) (h : Step p c p') : p'.InOrder := by
  cases h with
  | opening config labelStart =>
      obtain ⟨hsound, hbinds, honce⟩ := hp
      exact OpenStore.inOrder_opened config hsound hbinds honce _ labelStart
  | work h => exact OpenStore.InOrder.happens hp h
  | leaving =>
      exact ⟨hp.good.sound, hp.bound.shared.committed, hp.numbered.once.committed⟩
  | replaced => exact hp

theorem InOrder.run (hp : p.InOrder) (h : Run p log p') : p'.InOrder := by
  induction h with
  | nil => exact hp
  | snoc _ hstep ih => exact ih.step hstep

theorem InOrder.everywhere_sound (hp : p.InOrder) : p.Everywhere Tables.Sound := by
  cases p with
  | closed => exact hp.1
  | opened s => exact ⟨hp.good.sound, fun i x hx => (hp.good.scopes i x hx).work.sound⟩

theorem InOrder.follows (hp : p.InOrder) : p.Follows p.committed := by
  cases p with
  | closed =>
      exact ⟨hp.2.2.continues, refl _, fun r hr => Counters.le_resume (List.mem_map_of_mem hr)⟩
  | opened s => exact hp.follows

theorem Follows.step (horder : p.InOrder) (hp : p.Follows t)
    (h : Step p c p') : p'.Follows t := by
  cases h with
  | opening config labelStart =>
      obtain ⟨hcontinues, hcounts, hstored⟩ := hp
      rename_i tables registryFile
      refine ⟨⟨hcontinues.of_eq tables.nodes_prepare tables.statements_prepare
        tables.namespaces_prepare, by rintro i x ⟨⟩⟩, ?_, ?_, ?_⟩
      · exact IsTrans.trans (r := Tables.CountsOn) _ _ _ hcounts (.of_eq tables.sequences_prepare)
      · exact fun r hr => (hstored r hr).trans_eq (Counters.resume_prepare tables _).symm
      · exact fun r hr => (hstored r hr).trans_eq
          (OpenStore.current_opened config tables registryFile labelStart .namespaces).symm
  | work h => exact OpenStore.Follows.happens horder.good horder.numbered hp h
  | leaving => exact ⟨hp.seen.committed, hp.counts, hp.stored⟩
  | replaced => exact hp

theorem Follows.run (horder : p.InOrder) (hp : p.Follows t)
    (h : Run p log p') : p'.Follows t := by
  induction h with
  | nil => exact hp
  | snoc hrun hstep ih => exact ih.step (horder.run hrun) hstep

theorem Follows.countsOn (hp : p.Follows t) : t.CountsOn p.committed := by
  cases p with
  | closed => exact hp.2.1
  | opened s => exact hp.counts

theorem Follows.everywhere_keepsIds (horder : p.InOrder) (hp : p.Follows t) :
    p.Everywhere t.KeepsIds := by
  have hsound := horder.everywhere_sound
  cases p with
  | closed => exact hp.1.keepsIds hsound
  | opened s =>
      exact ⟨hp.seen.committed.keepsIds hsound.committed,
        fun i x hx => (hp.seen.scopes i x hx).keepsIds (hsound.scopes i x hx)⟩

theorem Follows.current_opened {config : Config} {tables : Tables} {registryFile : RegistryFile}
    {labelStart : String} {s : OpenStore} (hp : p.Follows t)
    (h : p.Step (.opening config tables registryFile labelStart) (.opened s))
    {q : Sequence} {id : Int} (hid : id ∈ q.ids t) : id ≤ s.store.counters.current q := by
  cases h
  obtain ⟨hcontinues, -, hstored⟩ := hp
  rw [OpenStore.current_opened]
  by_cases hq : q = .namespaces
  · subst hq
    obtain ⟨r, hr, rfl⟩ := List.mem_map.mp hid
    exact hstored r hr
  · exact Counters.le_resume (hcontinues.mem_ids hq hid)

/-- On files that are closed and opened again any number of times, with or without a shutdown and
whatever the transactions do: when a store is opened its counters have passed every id that a row
had when it was committed, no later row, be it committed or not, has the id of another one that
was committed before, though that was deleted since, and no stored counter has decreased. -/
theorem ids_never_reassigned {tables : Tables} (hsound : tables.Sound) (hbinds : tables.BindsOnce)
    (honce : tables.NumbersOnce) {registryFile : RegistryFile}
    (h : (closed tables registryFile).Run log p) (h' : p.Run log' p') :
    (∀ config tables registryFile labelStart s,
      p'.Step (.opening config tables registryFile labelStart) (.opened s) →
        ∀ q : Sequence, ∀ id ∈ q.ids p.committed, id ≤ s.store.counters.current q) ∧
      p'.Everywhere p.committed.KeepsIds ∧ p.committed.CountsOn p'.committed := by
  have hp : p.InOrder := InOrder.run (p := closed tables registryFile) ⟨hsound, hbinds, honce⟩ h
  have hfollows := hp.follows.run hp h'
  exact ⟨fun _ _ _ _ _ hstep _ _ hid => hfollows.current_opened hstep hid,
    hfollows.everywhere_keepsIds (hp.run h'), hfollows.countsOn⟩

/-- A binding is removed and the files are opened again: its id stays in use. -/
theorem removed_id_never_reassigned :
    let bound := (OpenStore.opened {} {} [] "v").begin |>.after 0 (.setNamespace "a" "urn:a")
      |>.after 0 (.commit none)
    let removed := bound.begin |>.after 1 (.removeNamespace "a") |>.after 1 (.commit none)
    let later := OpenStore.opened {} removed.database.committed removed.registryFile "w"
    1 ∈ Sequence.namespaces.ids bound.database.committed ∧
      later.database.committed.namespaces = [] ∧
      1 ≤ later.store.counters.current .namespaces := by
  intro bound removed later
  have hempty : Tables.NumbersOnce {} := by rintro r ⟨⟩
  have hrun := Run.nil (p := closed {} []) |>.snoc (.opening {} "v") |>.events
    (OpenStore.Run.nil |>.snoc .begin |>.call 0 (.setNamespace "a" "urn:a")
      |>.call 0 (.commit none))
  have hrun' := Run.nil (p := opened bound)
    |>.events (OpenStore.Run.nil |>.snoc .begin |>.call 1 (.removeNamespace "a")
      |>.call 1 (.commit none))
    |>.snoc .leaving
  have hid : 1 ∈ Sequence.namespaces.ids bound.database.committed := by decide +kernel
  obtain ⟨hpassed, -⟩ :=
    ids_never_reassigned Tables.sound_empty (by rintro r ⟨⟩) hempty hrun hrun'
  exact ⟨hid, by decide +kernel, hpassed _ _ _ _ later (.opening {} "w") .namespaces 1 hid⟩

end Files
end QuadStore
