import QuadStore.Connection.Namespaces
import QuadStore.Proofs.Coherence

namespace QuadStore

/-- Whether a row is the one of a binding. -/
structure NamespaceRow.Holds (r : NamespaceRow) (ns : Namespace) : Prop where
  id : r.id = ns.id
  label : r.label = ns.label
  uri : r.uri = ns.uri

theorem NamespaceRow.holds_of_toNamespace {r : NamespaceRow} {ns : Namespace}
    (h : r.toNamespace = .ok ns) : r.Holds ns := by
  unfold toNamespace at h
  cases hcheck : r.created.check with
  | error fault =>
      rw [hcheck] at h
      cases h
  | ok u =>
      rw [hcheck] at h
      obtain rfl := Except.ok.inj h
      exact ⟨rfl, rfl, rfl⟩

namespace Tables

def HoldsNamespace (t : Tables) (ns : Namespace) : Prop :=
  ∃ r ∈ t.namespaces, r.Holds ns

/-- Whether no two rows bind the same prefix. -/
def BindsOnce (t : Tables) : Prop :=
  ∀ r ∈ t.namespaces, ∀ r' ∈ t.namespaces, r.label = r'.label → r = r'

variable {t t' : Tables} {row : NamespaceRow}

theorem BindsOnce.of_eq (h : t.BindsOnce) (hsame : t'.namespaces = t.namespaces) :
    t'.BindsOnce := by
  rw [BindsOnce, hsame]
  exact h

theorem insertNamespace_eq_ok_iff :
    t.insertNamespace row = .ok t' ↔ t' = { t with namespaces := t.namespaces ++ [row] } ∧
      ∀ r ∈ t.namespaces, r.id ≠ row.id ∧ r.uri ≠ row.uri ∧ r.label ≠ row.label := by
  unfold insertNamespace
  constructor
  · intro h
    split at h
    · cases h
    rename_i hid
    split at h
    · cases h
    rename_i huri
    split at h
    · cases h
    rename_i hlabel
    refine ⟨(Except.ok.inj h).symm, fun r hr => ⟨fun heq => ?_, fun heq => ?_, fun heq => ?_⟩⟩
    · exact hid (List.any_eq_true.mpr ⟨r, hr, beq_iff_eq.mpr heq⟩)
    · exact huri (List.any_eq_true.mpr ⟨r, hr, beq_iff_eq.mpr heq⟩)
    · exact hlabel (List.any_eq_true.mpr ⟨r, hr, beq_iff_eq.mpr heq⟩)
  · rintro ⟨rfl, hnew⟩
    rw [if_neg, if_neg, if_neg] <;>
    · rw [List.any_eq_true]
      rintro ⟨r, hr, hsame⟩
      have hne := hnew r hr
      simp_all

theorem insertNamespace_eq_ok (h : t.insertNamespace row = .ok t') :
    t' = { t with namespaces := t.namespaces ++ [row] } ∧
    ∀ r ∈ t.namespaces, r.label ≠ row.label := by
  obtain ⟨heq, hnew⟩ := insertNamespace_eq_ok_iff.mp h
  exact ⟨heq, fun r hr => (hnew r hr).2.2⟩

theorem BindsOnce.insert (h : t.BindsOnce) (hinsert : t.insertNamespace row = .ok t') :
    t'.BindsOnce := by
  obtain ⟨rfl, hnew⟩ := insertNamespace_eq_ok hinsert
  intro r hr r' hr' hlabel
  rcases List.mem_append.mp hr with hold | hadded <;>
    rcases List.mem_append.mp hr' with hold' | hadded'
  · exact h r hold r' hold' hlabel
  · obtain rfl := List.mem_singleton.mp hadded'
    exact absurd hlabel (hnew r hold)
  · obtain rfl := List.mem_singleton.mp hadded
    exact absurd hlabel.symm (hnew r' hold')
  · rw [List.mem_singleton.mp hadded, List.mem_singleton.mp hadded']

/-- The tables without the rows that bind a prefix. -/
def withoutBinding (t : Tables) (label : String) : Tables :=
  { t with namespaces := t.namespaces.filter fun row => !(row.label == label) }

theorem mem_withoutBinding_iff {label : String} {r : NamespaceRow} :
    r ∈ (t.withoutBinding label).namespaces ↔ r ∈ t.namespaces ∧ r.label ≠ label := by
  simp [withoutBinding, List.mem_filter]

theorem BindsOnce.without (h : t.BindsOnce) (label : String) :
    (t.withoutBinding label).BindsOnce :=
  fun r hr r' hr' => h r (mem_withoutBinding_iff.mp hr).1 r' (mem_withoutBinding_iff.mp hr').1

/-- Whether prefixes and URIs are bound to each other one to one, by rows that can be read. -/
structure OneToOne (t : Tables) : Prop where
  label : t.BindsOnce
  uri : ∀ r ∈ t.namespaces, ∀ r' ∈ t.namespaces, r.uri = r'.uri → r = r'
  readable : ∀ r ∈ t.namespaces, r.created.check = .ok ()

theorem oneToOne_empty : OneToOne {} :=
  ⟨by simp [BindsOnce], by simp, by simp⟩

theorem OneToOne.mono (h : t.OneToOne) (hrows : ∀ r ∈ t'.namespaces, r ∈ t.namespaces) :
    t'.OneToOne :=
  ⟨fun r hr r' hr' => h.label r (hrows r hr) r' (hrows r' hr'),
    fun r hr r' hr' => h.uri r (hrows r hr) r' (hrows r' hr'),
      fun r hr => h.readable r (hrows r hr)⟩

theorem OneToOne.of_eq (h : t.OneToOne) (hsame : t'.namespaces = t.namespaces) : t'.OneToOne :=
  h.mono fun _ hr => hsame ▸ hr

theorem OneToOne.without (h : t.OneToOne) (label : String) : (t.withoutBinding label).OneToOne :=
  h.mono fun _ hr => (mem_withoutBinding_iff.mp hr).1

theorem OneToOne.insert (h : t.OneToOne) (hinsert : t.insertNamespace row = .ok t')
    (hread : row.created.check = .ok ()) : t'.OneToOne := by
  obtain ⟨rfl, hnew⟩ := insertNamespace_eq_ok_iff.mp hinsert
  refine ⟨h.label.insert hinsert, ?_, ?_⟩
  · intro r hr r' hr' huri
    rcases List.mem_append.mp hr with hold | hadded <;>
      rcases List.mem_append.mp hr' with hold' | hadded'
    · exact h.uri r hold r' hold' huri
    · obtain rfl := List.mem_singleton.mp hadded'
      exact absurd huri (hnew r hold).2.1
    · obtain rfl := List.mem_singleton.mp hadded
      exact absurd huri.symm (hnew r' hold').2.1
    · rw [List.mem_singleton.mp hadded, List.mem_singleton.mp hadded']
  · intro r hr
    rcases List.mem_append.mp hr with hold | hadded
    · exact h.readable r hold
    · rwa [List.mem_singleton.mp hadded]

end Tables

namespace Caches

/-- Whether the bindings that are cached are in the tables, each under its prefix and its URI. -/
structure Bound (c : Caches) (t : Tables) : Prop where
  label : ∀ label ns, c.namespaceLabel.get? label = some ns →
    ns.label = label ∧ t.HoldsNamespace ns
  uri : ∀ uri ns, c.namespaceUri.get? uri = some ns → ns.uri = uri ∧ t.HoldsNamespace ns

/-- Whether two caches hold the same bindings. -/
def SameBindings (c c' : Caches) : Prop :=
  c'.namespaceLabel = c.namespaceLabel ∧ c'.namespaceUri = c.namespaceUri

theorem SameBindings.trans {c c' c'' : Caches} (h : c.SameBindings c')
    (h' : c'.SameBindings c'') :
    c.SameBindings c'' :=
  ⟨h'.1.trans h.1, h'.2.trans h.2⟩

theorem sameBindings_addNode (c : Caches) (n : Node) : c.SameBindings (c.addNode n) := by
  unfold addNode
  split
  · exact ⟨rfl, rfl⟩
  · dsimp only
    split <;> exact ⟨rfl, rfl⟩

theorem sameBindings_addStatement (c : Caches) (s : Statement) :
    c.SameBindings (c.addStatement s) := by
  unfold addStatement
  split <;> exact ⟨rfl, rfl⟩

theorem sameBindings_foldl {α : Type} {f : Caches → α → Caches}
    (hf : ∀ c x, SameBindings c (f c x)) (xs : List α) (c : Caches) :
    c.SameBindings (xs.foldl f c) := by
  induction xs generalizing c with
  | nil => exact ⟨rfl, rfl⟩
  | cons x rest ih => exact (hf c x).trans (ih (f c x))

theorem sameBindings_eraseStatements (ids : List Int) (c : Caches) :
    c.SameBindings (ids.foldl eraseStatement c) :=
  sameBindings_foldl (f := eraseStatement) (fun _ _ => ⟨rfl, rfl⟩) ids c

namespace Bound

variable {c c' : Caches} {t t' : Tables}

theorem of_same (h : c.Bound t) (hsame : c.SameBindings c') : c'.Bound t := by
  constructor
  · rw [hsame.1]
    exact h.label
  · rw [hsame.2]
    exact h.uri

theorem of_eq (h : c.Bound t) (hsame : t'.namespaces = t.namespaces) : c.Bound t' := by
  constructor <;> simp only [Tables.HoldsNamespace, hsame]
  · exact h.label
  · exact h.uri

theorem mono (h : c.Bound t) (hholds : ∀ ns, t.HoldsNamespace ns → t'.HoldsNamespace ns) :
    c.Bound t' :=
  ⟨fun label ns hns => (h.label label ns hns).imp_right (hholds ns),
    fun uri ns hns => (h.uri uri ns hns).imp_right (hholds ns)⟩

theorem addNamespace (h : c.Bound t) {ns : Namespace} (hns : t.HoldsNamespace ns) :
    (c.addNamespace ns).Bound t :=
  ⟨Cache.forall_put h.label ⟨rfl, hns⟩, Cache.forall_put h.uri ⟨rfl, hns⟩⟩

theorem eraseNamespace (h : c.Bound t) (ns : Namespace) : (c.eraseNamespace ns).Bound t :=
  ⟨fun label other hother => h.label label other (Cache.get?_of_erase hother).2,
    fun uri other hother => h.uri uri other (Cache.get?_of_erase hother).2⟩

/-- What is still cached when a binding that is seen has gone has another
prefix and another URI. -/
theorem without (h : c.Bound t) (hone : t.OneToOne) {ns : Namespace} (hns : t.HoldsNamespace ns) :
    (c.eraseNamespace ns).Bound (t.withoutBinding ns.label) := by
  constructor
  · intro label other hother
    obtain ⟨hne, hother⟩ := Cache.get?_of_erase hother
    obtain ⟨rfl, r, hr, hholds⟩ := h.label label other hother
    exact ⟨rfl, r, Tables.mem_withoutBinding_iff.mpr ⟨hr, hholds.label ▸ hne⟩, hholds⟩
  · intro uri other hother
    obtain ⟨hne, hother⟩ := Cache.get?_of_erase hother
    obtain ⟨rfl, r, hr, hholds⟩ := h.uri uri other hother
    refine ⟨rfl, r, Tables.mem_withoutBinding_iff.mpr ⟨hr, fun hlabel => hne ?_⟩, hholds⟩
    obtain ⟨r', hr', hholds'⟩ := hns
    obtain rfl := hone.label r hr r' hr' (hlabel.trans hholds'.label.symm)
    exact hholds.uri.symm.trans hholds'.uri

theorem foldl {α : Type} {f : Caches → α → Caches} {xs : List α}
    (hf : ∀ c, c.Bound t → ∀ x ∈ xs, (f c x).Bound t) (h : c.Bound t) :
    (xs.foldl f c).Bound t := by
  induction xs generalizing c with
  | nil => exact h
  | cons x rest ih =>
      exact ih (fun c hc y hy => hf c hc y (by simp [hy])) (hf c h x (by simp))

theorem make (config : CacheConfig) (t : Tables) : (Caches.make config).Bound t := by
  constructor <;> simp [Caches.make, Cache.make, Cache.get?]

theorem clear (c : Caches) (t : Tables) : c.clear.Bound t := by
  constructor <;> simp [Caches.clear]

theorem of_partOf {c' : Caches} (h : c'.Bound t) (hpart : c.PartOf c') : c.Bound t :=
  ⟨fun label ns hns => h.label label ns (hpart.namespaceLabel.found label ns hns),
    fun uri ns hns => h.uri uri ns (hpart.namespaceUri.found uri ns hns)⟩

end Bound

theorem get?_foldl_eraseNamespace (removed : List Namespace) (c : Caches) :
    (∀ label ns, (removed.foldl eraseNamespace c).namespaceLabel.get? label = some ns →
      c.namespaceLabel.get? label = some ns ∧ ∀ other ∈ removed, other.label ≠ label) ∧
    ∀ uri ns, (removed.foldl eraseNamespace c).namespaceUri.get? uri = some ns →
      c.namespaceUri.get? uri = some ns ∧ ∀ other ∈ removed, other.uri ≠ uri := by
  induction removed generalizing c with
  | nil => exact ⟨fun _ _ h => ⟨h, by simp⟩, fun _ _ h => ⟨h, by simp⟩⟩
  | cons first rest ih =>
      obtain ⟨hlabel, huri⟩ := ih (c.eraseNamespace first)
      constructor
      · intro label ns h
        obtain ⟨h, hrest⟩ := hlabel label ns h
        obtain ⟨hne, h⟩ := Cache.get?_of_erase h
        exact ⟨h, List.forall_mem_cons.mpr ⟨Ne.symm hne, hrest⟩⟩
      · intro uri ns h
        obtain ⟨h, hrest⟩ := huri uri ns h
        obtain ⟨hne, h⟩ := Cache.get?_of_erase h
        exact ⟨h, List.forall_mem_cons.mpr ⟨Ne.symm hne, hrest⟩⟩

end Caches

/-- Whether caches and notes of bindings agree with the tables. What is committed is in the
connection's tables or noted as removed. -/
structure Workspace.Bound (w : Workspace) : Prop where
  caches : w.store.caches.Bound w.database.committed
  committed : w.database.committed.BindsOnce
  view : w.view.BindsOnce
  committedIds : ∀ r ∈ w.database.committed.namespaces, r.id ≤ w.store.counters.namespaces
  viewIds : ∀ r ∈ w.view.namespaces, r.id ≤ w.store.counters.namespaces
  fresh : ∀ ns ∈ w.conn.freshNamespaces, w.view.HoldsNamespace ns
  removed : ∀ r ∈ w.database.committed.namespaces, r ∉ w.view.namespaces →
    ∃ ns ∈ w.conn.removedNamespaces, ns.label = r.label ∧ ns.uri = r.uri
  idle : w.conn.writing = false → w.conn.freshNamespaces = [] ∧ w.conn.removedNamespaces = []

/-- Whether a binding is committed or in the tables of the connection, as far as the caches are
right; if they hold nothing but what the connection sees, then it sees the binding. -/
structure Workspace.KnowsNamespace (w : Workspace) (ns : Namespace) : Prop where
  held : w.store.caches.Bound w.database.committed →
    w.database.committed.HoldsNamespace ns ∨ w.view.HoldsNamespace ns
  seen : w.store.caches.Bound w.view → w.view.HoldsNamespace ns

/-- What operations leave of bindings: new ones have new ids, and caches and notes agree with the
tables as before. Nothing is cached that the connection does not see, if that was so before. -/
structure Binds (w w' : Workspace) : Prop where
  counter : w.store.counters.namespaces ≤ w'.store.counters.namespaces
  ids : ∀ r ∈ w'.view.namespaces, r ∈ w.view.namespaces ∨ w.store.counters.namespaces < r.id
  oneToOne : w.view.OneToOne → w'.view.OneToOne
  bound : w.Bound → w'.Bound
  seen : w.view.OneToOne → w.store.caches.Bound w.view → w'.store.caches.Bound w'.view

namespace Binds

instance : IsPreorder Workspace Binds where
  refl w := ⟨le_refl _, fun _ hr => .inl hr, id, id, fun _ h => h⟩
  trans w w' w'' h h' := by
    refine ⟨le_trans h.counter h'.counter, fun r hr => ?_, fun hw => h'.oneToOne (h.oneToOne hw),
      fun hw => h'.bound (h.bound hw), fun hone hw => h'.seen (h.oneToOne hone) (h.seen hone hw)⟩
    rcases h'.ids r hr with hr | hlt
    · exact h.ids r hr
    · exact .inr (lt_of_le_of_lt h.counter hlt)

variable {w w' : Workspace}

theorem of_same (hcommitted : w'.database.committed = w.database.committed)
    (hview : w'.view.namespaces = w.view.namespaces)
    (hcounter : w'.store.counters.namespaces = w.store.counters.namespaces)
    (hcaches : w.store.caches.SameBindings w'.store.caches)
    (hfresh : w'.conn.freshNamespaces = w.conn.freshNamespaces)
    (hremoved : w'.conn.removedNamespaces = w.conn.removedNamespaces)
    (hwriting : w'.conn.writing = false → w.conn.writing = false) : Binds w w' := by
  refine ⟨le_of_eq hcounter.symm, fun r hr => .inl (hview ▸ hr),
    fun h => h.of_eq hview, fun h => ?_, fun _ h => (h.of_same hcaches).of_eq hview⟩
  refine ⟨?_, ?_, h.view.of_eq hview, ?_, ?_, ?_, ?_, ?_⟩
  · rw [hcommitted]
    exact h.caches.of_same hcaches
  · rw [hcommitted]
    exact h.committed
  · rw [hcommitted, hcounter]
    exact h.committedIds
  · rw [hview, hcounter]
    exact h.viewIds
  · rw [hfresh]
    simp only [Tables.HoldsNamespace, hview]
    exact h.fresh
  · rw [hcommitted, hview, hremoved]
    exact h.removed
  · rw [hfresh, hremoved]
    exact fun hidle => h.idle (hwriting hidle)

end Binds
end QuadStore
