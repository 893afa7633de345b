import QuadStore.Proofs.SeenTables
import QuadStore.Proofs.SharedCaches

/-!
Bindings as a transaction sees them. Lookups ask the caches first, which hold what is committed,
and another transaction may put there again what this one has removed. Main statement: unless
another transaction has done something since this one has removed a binding, lookups answer what
it sees, and binding a prefix to a URI leaves both bound to each other and to nothing else, or
leaves everything as it was.
-/

namespace QuadStore

open Transaction

/-- The binding of a row. -/
def NamespaceRow.binding (r : NamespaceRow) : Namespace :=
  ⟨r.id, r.label, r.uri⟩

theorem NamespaceRow.Holds.binding_eq {r : NamespaceRow} {ns : Namespace} (h : r.Holds ns) :
    r.binding = ns := by
  rw [binding, h.id, h.label, h.uri]

theorem NamespaceRow.toNamespace_of_readable {r : NamespaceRow} (h : r.created.check = .ok ()) :
    r.toNamespace = .ok r.binding := by
  rw [toNamespace, h]
  rfl

namespace Tables

/-- The binding of a prefix. -/
def binding? (t : Tables) (label : String) : Option Namespace :=
  (t.namespaceByLabel? label).map NamespaceRow.binding

/-- The binding of a URI. -/
def bindingOf? (t : Tables) (uri : String) : Option Namespace :=
  (t.namespaceByUri? uri).map NamespaceRow.binding

/-- Whether a binding is the only one of its prefix and of its URI. -/
structure HoldsAlone (t : Tables) (ns : Namespace) : Prop where
  holds : t.HoldsNamespace ns
  only : ∀ r ∈ t.namespaces, r.label = ns.label ∨ r.uri = ns.uri → r.Holds ns

/-- Whether two tables have the same rows but for those of a prefix or a URI. -/
def SameBeside (t t' : Tables) (label uri : String) : Prop :=
  ∀ r : NamespaceRow, r.label ≠ label → r.uri ≠ uri → (r ∈ t'.namespaces ↔ r ∈ t.namespaces)

/-- Whether a binding has been made in place of what its prefix and its
URI were bound to before. -/
structure Rebinds (t : Tables) (label uri : String) (ns : Namespace) (t' : Tables) : Prop where
  label_eq : ns.label = label
  uri_eq : ns.uri = uri
  alone : t'.HoldsAlone ns
  beside : t.SameBeside t' label uri

variable {t t' t'' : Tables} {ns : Namespace} {label uri : String}

theorem find?_eq_some_iff {rows : List NamespaceRow} {key : NamespaceRow → String}
    (hunique : ∀ r ∈ rows, ∀ r' ∈ rows, key r = key r' → r = r') {k : String} {r : NamespaceRow} :
    rows.find? (fun r => key r == k) = some r ↔ key r = k ∧ r ∈ rows := by
  constructor
  · intro hfind
    exact ⟨by simpa using List.find?_some hfind, List.mem_of_find?_eq_some hfind⟩
  · rintro ⟨rfl, hr⟩
    obtain ⟨r', hr'⟩ := Option.isSome_iff_exists.mp
      (List.find?_isSome (p := fun r' => key r' == key r).mpr ⟨r, hr, beq_iff_eq.mpr rfl⟩)
    rw [hr', hunique r' (List.mem_of_find?_eq_some hr') r hr (by simpa using List.find?_some hr')]

theorem binding?_eq_some_iff (h : t.OneToOne) :
    t.binding? label = some ns ↔ ns.label = label ∧ t.HoldsNamespace ns := by
  simp only [binding?, namespaceByLabel?, Option.map_eq_some_iff, find?_eq_some_iff h.label]
  constructor
  · rintro ⟨r, ⟨rfl, hr⟩, rfl⟩
    exact ⟨rfl, r, hr, rfl, rfl, rfl⟩
  · rintro ⟨rfl, r, hr, hholds⟩
    exact ⟨r, ⟨hholds.label, hr⟩, hholds.binding_eq⟩

theorem bindingOf?_eq_some_iff (h : t.OneToOne) :
    t.bindingOf? uri = some ns ↔ ns.uri = uri ∧ t.HoldsNamespace ns := by
  simp only [bindingOf?, namespaceByUri?, Option.map_eq_some_iff, find?_eq_some_iff h.uri]
  constructor
  · rintro ⟨r, ⟨rfl, hr⟩, rfl⟩
    exact ⟨rfl, r, hr, rfl, rfl, rfl⟩
  · rintro ⟨rfl, r, hr, hholds⟩
    exact ⟨r, ⟨hholds.uri, hr⟩, hholds.binding_eq⟩

theorem binding?_eq_none_iff : t.binding? label = none ↔ ∀ r ∈ t.namespaces, r.label ≠ label := by
  simp [binding?, namespaceByLabel?]

theorem bindingOf?_eq_none_iff : t.bindingOf? uri = none ↔ ∀ r ∈ t.namespaces, r.uri ≠ uri := by
  simp [bindingOf?, namespaceByUri?]

theorem OneToOne.holdsAlone (h : t.OneToOne) (hns : t.HoldsNamespace ns) : t.HoldsAlone ns := by
  obtain ⟨r, hr, hholds⟩ := hns
  refine ⟨⟨r, hr, hholds⟩, fun r' hr' hsame => ?_⟩
  rcases hsame with hlabel | huri
  · rwa [h.label r' hr' r hr (hlabel.trans hholds.label.symm)]
  · rwa [h.uri r' hr' r hr (huri.trans hholds.uri.symm)]

theorem HoldsAlone.of_eq (h : t.HoldsAlone ns) (hsame : t'.namespaces = t.namespaces) :
    t'.HoldsAlone ns := by
  obtain ⟨⟨r, hr, hholds⟩, honly⟩ := h
  refine ⟨⟨r, hsame ▸ hr, hholds⟩, ?_⟩
  rw [hsame]
  exact honly

theorem SameBeside.refl (t : Tables) (label uri : String) : t.SameBeside t label uri :=
  fun _ _ _ => Iff.rfl

theorem SameBeside.trans (h : t.SameBeside t' label uri) (h' : t'.SameBeside t'' label uri) :
    t.SameBeside t'' label uri :=
  fun r hlabel huri => (h' r hlabel huri).trans (h r hlabel huri)

theorem sameBeside_without (t : Tables) (label uri : String) :
    t.SameBeside (t.withoutBinding label) label uri :=
  fun _ hlabel _ => mem_withoutBinding_iff.trans (and_iff_left hlabel)

theorem sameBeside_without_of_uri (hns : t.HoldsAlone ns) (label : String) :
    t.SameBeside (t.withoutBinding ns.label) label ns.uri := by
  refine fun r _ huri => mem_withoutBinding_iff.trans ⟨And.left, fun hr => ⟨hr, fun hsame => ?_⟩⟩
  exact huri (hns.only r hr (.inl hsame)).uri

end Tables

theorem Caches.bound_iff {c : Caches} {t : Tables} (h : t.OneToOne) :
    c.Bound t ↔
      (∀ label, (c.namespaceLabel.get? label).or (t.binding? label) = t.binding? label) ∧
      ∀ uri, (c.namespaceUri.get? uri).or (t.bindingOf? uri) = t.bindingOf? uri := by
  constructor
  · refine fun hc => ⟨fun label => ?_, fun uri => ?_⟩
    · cases hcached : c.namespaceLabel.get? label with
      | none => rfl
      | some ns => exact ((Tables.binding?_eq_some_iff h).mpr (hc.label label ns hcached)).symm
    · cases hcached : c.namespaceUri.get? uri with
      | none => rfl
      | some ns => exact ((Tables.bindingOf?_eq_some_iff h).mpr (hc.uri uri ns hcached)).symm
  · rintro ⟨hlabel, huri⟩
    refine ⟨fun label ns hns => ?_, fun uri ns hns => ?_⟩
    · have hfound := hlabel label
      rw [hns] at hfound
      exact (Tables.binding?_eq_some_iff h).mp hfound.symm
    · have hfound := huri uri
      rw [hns] at hfound
      exact (Tables.bindingOf?_eq_some_iff h).mp hfound.symm

namespace Action

variable {w w' : Workspace} {ns : Namespace} {label uri : String}

/-! Looking up -/

theorem loadNamespace_eq {cached : Caches → Option Namespace} {row : Tables → Option NamespaceRow}
    (hrow : ∀ r, row w.view = some r → r ∈ w.view.namespaces) (h : w.view.OneToOne) :
    ∃ w', loadNamespace cached row w =
      .ok ((cached w.store.caches).or ((row w.view).map NamespaceRow.binding)) w' := by
  unfold loadNamespace
  rw [bind_of_ok (a := (get : Action Workspace)) (s := w) rfl]
  cases hcached : cached w.store.caches with
  | some ns => exact ⟨w, rfl⟩
  | none =>
  dsimp only
  rw [bind_of_ok (a := view row) (s := w) rfl]
  cases hfind : row w.view with
  | none => exact ⟨w, rfl⟩
  | some r =>
      have hread := NamespaceRow.toNamespace_of_readable (h.readable r (hrow r hfind))
      dsimp only
      rw [bind_of_ok (a := ofData r.toNamespace) (ofData_eq_ok_iff.mpr ⟨hread, rfl⟩),
        bind_of_ok (a := (get : Action Workspace)) (s := w) rfl]
      cases hwriting : w.conn.writing <;> exact ⟨_, rfl⟩

theorem loadNamespaceByLabel_eq (h : w.view.OneToOne) (label : String) :
    ∃ w', loadNamespaceByLabel label w =
      .ok ((w.store.caches.namespaceLabel.get? label).or (w.view.binding? label)) w' :=
  loadNamespace_eq (fun _ => List.mem_of_find?_eq_some) h

theorem loadNamespaceByUri_eq (h : w.view.OneToOne) (uri : String) :
    ∃ w', loadNamespaceByUri uri w =
      .ok ((w.store.caches.namespaceUri.get? uri).or (w.view.bindingOf? uri)) w' :=
  loadNamespace_eq (fun _ => List.mem_of_find?_eq_some) h

end Action

/-- Whether lookups of a connection answer what it sees, and the counter
has reached its bindings. -/
structure Workspace.Resolves (w : Workspace) : Prop where
  oneToOne : w.view.OneToOne
  caches : w.store.caches.Bound w.view
  ids : ∀ r ∈ w.view.namespaces, r.id ≤ w.store.counters.namespaces

namespace Action

variable {w w' : Workspace} {ns : Namespace} {label uri : String}

theorem resolves_of_reads (hw : w.Resolves) (h : Reads w w') :
    w'.Resolves ∧ w'.view = w.view ∧ w'.conn.writing = w.conn.writing := by
  have hcaches := h.binds.seen hw.oneToOne hw.caches
  obtain ⟨_, _, _, rfl⟩ := h.caching
  exact ⟨⟨hw.oneToOne, hcaches, hw.ids⟩, rfl, rfl⟩

theorem loadNamespaceByLabel_of_resolves (hw : w.Resolves) (label : String) :
    ∃ w', loadNamespaceByLabel label w = .ok (w.view.binding? label) w' ∧ w'.Resolves ∧
      w'.view = w.view ∧ w'.conn.writing = w.conn.writing := by
  obtain ⟨w', hload⟩ := loadNamespaceByLabel_eq hw.oneToOne label
  rw [((Caches.bound_iff hw.oneToOne).mp hw.caches).1 label] at hload
  exact ⟨w', hload, resolves_of_reads hw ((loadNamespaceByLabel_reads label).ok hload)⟩

theorem loadNamespaceByUri_of_resolves (hw : w.Resolves) (uri : String) :
    ∃ w', loadNamespaceByUri uri w = .ok (w.view.bindingOf? uri) w' ∧ w'.Resolves ∧
      w'.view = w.view ∧ w'.conn.writing = w.conn.writing := by
  obtain ⟨w', hload⟩ := loadNamespaceByUri_eq hw.oneToOne uri
  rw [((Caches.bound_iff hw.oneToOne).mp hw.caches).2 uri] at hload
  exact ⟨w', hload, resolves_of_reads hw ((loadNamespaceByUri_reads uri).ok hload)⟩

/-! Changing -/

theorem beginWrite_cases (w : Workspace) :
    (∃ w₁, beginWrite w = .ok () w₁ ∧ w₁.conn.writing = true ∧ w₁.view = w.view ∧
        w₁.store = w.store) ∨
      beginWrite w = .error (.data .locked) w ∧ w.conn.writing = false := by
  cases hbegin : beginWrite w with
  | ok u w₁ =>
      obtain ⟨hwriting, hview⟩ := beginWrite_eq_ok hbegin
      exact .inl ⟨w₁, rfl, hwriting, hview, store_of_beginWrite hbegin⟩
  | error e w₁ =>
      right
      unfold beginWrite at hbegin
      rw [bind_of_ok (a := (get : Action Workspace)) (s := w) rfl] at hbegin
      dsimp only at hbegin
      split at hbegin
      · rename_i hidle
        split at hbegin <;> cases hbegin
        exact ⟨rfl, by simpa using hidle⟩
      · cases hbegin

theorem deleteNamespace_cases (hw : w.Resolves) (hns : w.view.HoldsNamespace ns) :
    (∃ removed w', deleteNamespace ns w = .ok removed w' ∧ w'.Resolves ∧
        w'.view = w.view.withoutBinding ns.label ∧ w'.conn.writing = true) ∨
      deleteNamespace ns w = .error (.data .locked) w ∧ w.conn.writing = false := by
  rcases beginWrite_cases w with ⟨w₁, hbegin, hwriting, hview, hstore⟩ | ⟨hbegin, hidle⟩
  · left
    have hkept : (w₁.view.namespaces.partition fun row => row.label == ns.label).2 =
        (w₁.view.withoutBinding ns.label).namespaces := by
      rw [List.partition_eq_filter_filter]
      rfl
    have hdelete : ∃ removed, deleteNamespace ns w = .ok removed (withoutNamespace w₁ ns) := by
      unfold deleteNamespace
      rw [bind_of_ok hbegin, bind_of_ok (a := view id) (s := w₁) rfl]
      dsimp only [id]
      rw [hkept]
      exact ⟨_, rfl⟩
    obtain ⟨removed, hdelete⟩ := hdelete
    have hview' : (withoutNamespace w₁ ns).view = w.view.withoutBinding ns.label := by
      rw [← hview]
      rfl
    refine ⟨removed, _, hdelete, ⟨?_, ?_, ?_⟩, hview', rfl⟩ <;> rw [hview']
    · exact hw.oneToOne.without _
    · show (w₁.store.caches.eraseNamespace ns).Bound _
      rw [hstore]
      exact hw.caches.without hw.oneToOne hns
    · intro r hr
      show r.id ≤ w₁.store.counters.namespaces
      rw [hstore]
      exact hw.ids r (Tables.mem_withoutBinding_iff.mp hr).1
  · right
    refine ⟨?_, hidle⟩
    unfold deleteNamespace
    rw [bind_of_error hbegin]

theorem storeNamespace_cases (hw : w.Resolves)
    (hnew : ∀ r ∈ w.view.namespaces, r.label ≠ label ∧ r.uri ≠ uri) :
    (∃ ns w', storeNamespace (.make label uri) w = .ok ns w' ∧
      w.view.Rebinds label uri ns w'.view) ∨
      storeNamespace (.make label uri) w = .error (.data .locked) w ∧ w.conn.writing = false := by
  rcases beginWrite_cases w with ⟨w₁, hbegin, hwriting, hview, hstore⟩ | ⟨hbegin, hidle⟩
  · left
    let row : NamespaceRow := ⟨w₁.store.counters.namespaces + 1, label, uri, .clock⟩
    have hinsert : w₁.view.insertNamespace row =
        .ok { w₁.view with namespaces := w₁.view.namespaces ++ [row] } := by
      refine Tables.insertNamespace_eq_ok_iff.mpr ⟨rfl, fun r hr => ?_⟩
      rw [hview] at hr
      have hid := hw.ids r hr
      rw [← hstore] at hid
      refine ⟨fun heq => ?_, (hnew r hr).2, (hnew r hr).1⟩
      have : r.id = w₁.store.counters.namespaces + 1 := heq
      omega
    have hstored : storeNamespace (.make label uri) w =
        .ok row.binding (withNamespace w₁ (.make label uri)) := by
      unfold storeNamespace
      rw [bind_of_ok hbegin, bind_of_ok (a := nextId .namespaces) (s := w₁) rfl,
        bind_of_ok (a := (get : Action Workspace)) rfl]
      change ((ofData (w₁.view.insertNamespace row) >>= _) _) = _
      rw [hinsert]
      rfl
    have hrows : ∀ r, r ∈ (withNamespace w₁ (.make label uri)).view.namespaces ↔
        r ∈ w.view.namespaces ∨ r = row := by
      intro r
      rw [← hview]
      exact List.mem_append.trans (or_congr_right List.mem_singleton)
    refine ⟨_, _, hstored, rfl, rfl, ⟨⟨row, (hrows row).mpr (.inr rfl), rfl, rfl, rfl⟩, ?_⟩, ?_⟩
    · intro r hr hsame
      rcases (hrows r).mp hr with hold | rfl
      · exact (hsame.elim (hnew r hold).1 (hnew r hold).2).elim
      · exact ⟨rfl, rfl, rfl⟩
    · intro r hlabel huri
      rw [hrows r]
      exact or_iff_left fun heq => hlabel (heq ▸ rfl)
  · right
    refine ⟨?_, hidle⟩
    unfold storeNamespace
    rw [bind_of_error hbegin]

theorem discard_of_ok {α : Type} {a : Action α} {v : α} (h : a w = .ok v w') :
    (Functor.discard a : Action Unit) w = .ok () w' := by
  show (a >>= fun _ => pure ()) w = _
  rw [bind_of_ok h]
  rfl

theorem discard_of_error {α : Type} {a : Action α} {e : StoreError} (h : a w = .error e w') :
    (Functor.discard a : Action Unit) w = .error e w' := by
  show (a >>= fun _ => pure ()) w = _
  rw [bind_of_error h]

/-- The last part of binding a prefix: the binding that the URI had makes way for the new one. -/
def rebindUri (label uri : String) : Action Namespace := do
  match ← loadNamespaceByUri uri with
  | some ns => Functor.discard (deleteNamespace ns)
  | none => pure ()
  storeNamespace (.make label uri)

theorem rebindUri_cases (hw : w.Resolves) (hnew : ∀ r ∈ w.view.namespaces, r.label ≠ label)
    (uri : String) :
    (∃ ns w', rebindUri label uri w = .ok ns w' ∧ w.view.Rebinds label uri ns w'.view) ∨
      ∃ e w', rebindUri label uri w = .error e w' ∧
      w.conn.writing = false ∧ w'.view = w.view := by
  obtain ⟨w₁, hload, hw₁, hview₁, hsame⟩ := loadNamespaceByUri_of_resolves hw uri
  rw [rebindUri, bind_of_ok hload]
  cases hfound : w.view.bindingOf? uri with
  | none =>
      have hnone := Tables.bindingOf?_eq_none_iff.mp hfound
      have hnew₁ : ∀ r ∈ w₁.view.namespaces, r.label ≠ label ∧ r.uri ≠ uri :=
        fun r hr => ⟨hnew r (hview₁ ▸ hr), hnone r (hview₁ ▸ hr)⟩
      rcases storeNamespace_cases hw₁ hnew₁ with ⟨ns, w₂, hstore, hrebinds⟩ | ⟨hstore, hidle⟩
      · exact .inl ⟨ns, w₂, hstore, hview₁ ▸ hrebinds⟩
      · exact .inr ⟨_, w₁, hstore, hsame ▸ hidle, hview₁⟩
  | some ns =>
      obtain ⟨rfl, hholds⟩ := (Tables.bindingOf?_eq_some_iff hw.oneToOne).mp hfound
      have halone := hw.oneToOne.holdsAlone hholds
      dsimp only
      rcases deleteNamespace_cases hw₁ (hview₁.symm ▸ hholds) with
        ⟨removed, w₂, hdelete, hw₂, hview₂, hwriting⟩ | ⟨hdelete, hidle⟩
      · left
        rw [bind_of_ok (discard_of_ok hdelete)]
        rw [hview₁] at hview₂
        have hnew₂ : ∀ r ∈ w₂.view.namespaces, r.label ≠ label ∧ r.uri ≠ ns.uri := by
          intro r hr
          rw [hview₂] at hr
          obtain ⟨hr, hne⟩ := Tables.mem_withoutBinding_iff.mp hr
          exact ⟨hnew r hr, fun huri => hne (halone.only r hr (.inr huri)).label⟩
        rcases storeNamespace_cases hw₂ hnew₂ with ⟨ns', w₃, hstore, hrebinds⟩ | ⟨-, hidle⟩
        · rw [hview₂] at hrebinds
          exact ⟨ns', w₃, hstore, hrebinds.label_eq, hrebinds.uri_eq, hrebinds.alone,
            (Tables.sameBeside_without_of_uri halone label).trans hrebinds.beside⟩
        · cases hwriting.symm.trans hidle
      · right
        rw [bind_of_error (discard_of_error hdelete)]
        exact ⟨_, w₁, rfl, hsame ▸ hidle, hview₁⟩

end Action

namespace Transaction

variable {x : Scope} {label uri : String}

theorem setNamespace_cases (hx : x.work.Resolves)
    (hopen : x.closed = false) (label uri : String) :
    (∃ ns y, setNamespace label uri x = .ok ns y ∧ y.closed = false ∧
        x.work.view.Rebinds label uri ns y.work.view) ∨
      ∃ e y, setNamespace label uri x = .error e y ∧ y.work.view = x.work.view := by
  have of_work : ∀ {a : Action Namespace} {R : Namespace → Workspace → Prop},
      (∃ ns w, a x.work = .ok ns w ∧ R ns w) ∨
        (∃ e w, a x.work = .error e w ∧ w.view = x.work.view) →
        (∃ ns y, perform a x = .ok ns y ∧ y.closed = false ∧ R ns y.work) ∨
          ∃ e y, perform a x = .error e y ∧ y.work.view = x.work.view := by
    intro a R h
    rw [perform, whileOpen_of_open hopen]
    rcases h with ⟨ns, w, hop, hR⟩ | ⟨e, w, hop, hview⟩
    · exact .inl ⟨ns, _, work_of_ok hop, hopen, hR⟩
    · exact .inr ⟨e, _, work_of_error hop, hview⟩
  refine of_work (R := fun ns w => x.work.view.Rebinds label uri ns w.view) ?_
  obtain ⟨w₁, hload, hw₁, hview₁, hsame⟩ := Action.loadNamespaceByLabel_of_resolves hx label
  rw [bind_of_ok hload]
  cases hfound : x.work.view.binding? label with
  | none =>
      have hnone := Tables.binding?_eq_none_iff.mp hfound
      have hnew : ∀ r ∈ w₁.view.namespaces, r.label ≠ label := fun r hr => hnone r (hview₁ ▸ hr)
      rcases Action.rebindUri_cases hw₁ hnew uri with
        ⟨ns, w₂, hrebind, hrebinds⟩ | ⟨e, w₂, hrebind, -, hview⟩
      · exact .inl ⟨ns, w₂, hrebind, hview₁ ▸ hrebinds⟩
      · exact .inr ⟨e, w₂, hrebind, hview.trans hview₁⟩
  | some ns =>
      obtain ⟨rfl, hholds⟩ := (Tables.binding?_eq_some_iff hx.oneToOne).mp hfound
      dsimp only
      split
      · rename_i huri
        subst huri
        refine .inl ⟨ns, w₁, rfl, rfl, rfl, ?_, ?_⟩ <;> rw [hview₁]
        · exact hx.oneToOne.holdsAlone hholds
        · exact .refl _ _ _
      · rcases Action.deleteNamespace_cases hw₁ (hview₁.symm ▸ hholds) with
          ⟨removed, w₂, hdelete, hw₂, hview₂, hwriting⟩ | ⟨hdelete, hidle⟩
        · left
          rw [bind_of_ok (Action.discard_of_ok hdelete)]
          rw [hview₁] at hview₂
          have hnew : ∀ r ∈ w₂.view.namespaces, r.label ≠ ns.label := by
            intro r hr
            rw [hview₂] at hr
            exact (Tables.mem_withoutBinding_iff.mp hr).2
          rcases Action.rebindUri_cases hw₂ hnew uri with
            ⟨ns', w₃, hrebind, hrebinds⟩ | ⟨e, w₃, -, hidle, -⟩
          · rw [hview₂] at hrebinds
            exact ⟨ns', w₃, hrebind, hrebinds.label_eq, hrebinds.uri_eq, hrebinds.alone,
              (Tables.sameBeside_without _ _ _).trans hrebinds.beside⟩
          · cases hwriting.symm.trans hidle
        · right
          rw [bind_of_error (Action.discard_of_error hdelete)]
          exact ⟨_, w₁, rfl, hview₁⟩

theorem lookups_iff (hview : x.work.view.OneToOne) (hopen : x.closed = false) :
    x.work.store.caches.Bound x.work.view ↔
      (∀ label, answerOf ((Call.namespaceByLabel label).run x) =
        .ok (x.work.view.binding? label)) ∧
        ∀ uri, answerOf ((Call.namespaceByUri uri).run x) = .ok (x.work.view.bindingOf? uri) := by
  rw [Caches.bound_iff hview]
  refine and_congr (forall_congr' fun label => ?_) (forall_congr' fun uri => ?_)
  · obtain ⟨w, hload⟩ := Action.loadNamespaceByLabel_eq hview label
    have hrun : (Call.namespaceByLabel label).run x = .ok _ { x with work := w } :=
      (whileOpen_of_open hopen).trans (work_of_ok hload)
    rw [hrun]
    exact Except.ok.injEq _ _ ▸ Iff.rfl
  · obtain ⟨w, hload⟩ := Action.loadNamespaceByUri_eq hview uri
    have hrun : (Call.namespaceByUri uri).run x = .ok _ { x with work := w } :=
      (whileOpen_of_open hopen).trans (work_of_ok hload)
    rw [hrun]
    exact Except.ok.injEq _ _ ▸ Iff.rfl

end Transaction

/-! What a transaction goes on seeing -/

namespace Event

/-- The transaction that is asked to do something. -/
def caller? : Event → Option Nat
  | .call number _ _ _ _ => some number
  | _ => none

/-- Whether a transaction loses sight of a binding. -/
def Unbinds (i : Nat) : Event → Prop
  | .call number before after _ _ => number = i ∧ ∃ r ∈ before.namespaces, r ∉ after.namespaces
  | _ => False

instance (i : Nat) : DecidablePred (Unbinds i)
  | .call number before after _ _ =>
      inferInstanceAs (Decidable (number = i ∧ ∃ r ∈ before.namespaces, r ∉ after.namespaces))
  | .begin | .clearCaches | .evict _ => inferInstanceAs (Decidable False)

/-- Whether no other transaction is asked anything after one has lost sight of a binding. -/
def Undisturbed (i : Nat) (log : List Event) : Prop :=
  log.Pairwise fun e e' => e.Unbinds i → ∀ j ∈ e'.caller?, j = i

instance (i : Nat) (log : List Event) : Decidable (Undisturbed i log) :=
  inferInstanceAs (Decidable (log.Pairwise _))

theorem undisturbed_snoc {i : Nat} {log : List Event} {e : Event} :
    Undisturbed i (log ++ [e]) ↔
      Undisturbed i log ∧ ∀ e' ∈ log, e'.Unbinds i → ∀ j ∈ e.caller?, j = i := by
  simp [Undisturbed, List.pairwise_append]

end Event

/-- What a transaction sees of bindings: all that are committed, or it has lost sight of some and
nothing is cached beyond what it sees. -/
def Workspace.InSight (w : Workspace) (log : List Event) (i : Nat) : Prop :=
  (∀ r ∈ w.database.committed.namespaces, r ∈ w.view.namespaces) ∨
    (∃ e ∈ log, e.Unbinds i) ∧ w.store.caches.Bound w.view

theorem Workspace.InSight.of_idle {w : Workspace} {log : List Event} {i : Nat}
    (hidle : w.conn.writing = false) : w.InSight log i := by
  left
  rw [view_eq_committed hidle]
  exact fun r hr => hr

namespace OpenStore

variable {s s' : OpenStore} {log : List Event} {e : Event} {i : Nat} {x : Scope}

theorem oneToOne_run (hs : s.Everywhere Tables.OneToOne) (h : s.Run log s') :
    s'.Everywhere Tables.OneToOne := by
  induction h with
  | nil => exact hs
  | snoc hrun hstep ih =>
      refine ih.step hstep (fun t t' _ _ hnamespaces ht => ht.of_eq hnamespaces) ?_
      rintro i before after c answer - hends x - - hone
      exact (Call.advances hends x).works.binds.oneToOne hone

/-- Whether a transaction has in sight what it needs of bindings. -/
def InSight (s : OpenStore) (log : List Event) (i : Nat) : Prop :=
  ∀ x, s.scope? i = some x → x.work.InSight log i

theorem InSight.bound (h : s.InSight log i) (hbound : s.Bound) (hx : s.scope? i = some x) :
    x.work.store.caches.Bound x.work.view := by
  rcases h x hx with hall | ⟨-, hcaches⟩
  · exact (hbound.scopes i x hx).caches.mono fun ns ⟨r, hr, hholds⟩ => ⟨r, hall r hr, hholds⟩
  · exact hcaches

theorem InSight.within (h : s.InSight log i) (hx : s.scope? i = some x) {w : Workspace}
    (hcommitted : w.database.committed = s.database.committed)
    (hcaches : (∃ e ∈ log, e.Unbinds i) → s.store.caches.Bound x.work.view →
      w.store.caches.Bound x.work.view) : (x.within w).work.InSight (log ++ [e]) i := by
  have hsame : w.database.committed = x.work.database.committed := by
    rw [hcommitted, database_of_scope? hx]
  have hview := Scope.view_within_of_eq hsame
  rcases h x hx with hall | ⟨⟨e', he', hunbinds⟩, hbound⟩
  · left
    rw [hview]
    show ∀ r ∈ w.database.committed.namespaces, r ∈ x.work.view.namespaces
    rwa [hsame]
  · right
    refine ⟨⟨e', List.mem_append_left _ he', hunbinds⟩, ?_⟩
    rw [hview]
    exact hcaches ⟨e', he', hunbinds⟩ (store_of_scope? hx ▸ hbound)

theorem InSight.own (h : s.InSight log i) (hbound : s.Bound) (hone : s.Everywhere Tables.OneToOne)
    (hx : s.scope? i = some x) (c : Call) {answer : Except StoreError c.Answer} :
    (finalState (c.run x)).work.InSight
      (log ++ [.call i x.work.view (finalState (c.run x)).work.view c answer]) i := by
  rcases c.run_cases x with
    ⟨hadvances, -⟩ | ⟨refusal, y, rfl, hop, -, hended⟩ | ⟨-, -, habandoned⟩
  · by_cases hall : ∀ r ∈ (finalState (c.run x)).work.database.committed.namespaces,
        r ∈ (finalState (c.run x)).work.view.namespaces
    · exact .inl hall
    · right
      refine ⟨?_, hadvances.works.binds.seen (hone.scopes i x hx) (h.bound hbound hx)⟩
      obtain ⟨r, hr, hgone⟩ := not_forall₂.mp hall
      rw [hadvances.works.committed] at hr
      rcases h x hx with hbefore | ⟨⟨e, he, hunbinds⟩, -⟩
      · exact ⟨_, List.mem_append_right _ (List.mem_singleton_self _),
          rfl, r, hbefore r hr, hgone⟩
      · exact ⟨e, List.mem_append_left _ he, hunbinds⟩
  · rw [Call.run, hop]
    have hidle : y.work.conn.writing = false := by simp [Connection.writing, hended.pending]
    exact .of_idle hidle
  · exact .of_idle (by simp [Connection.writing, habandoned.pending])

theorem InSight.step (h : s.InSight log i) (hgood : s.Good) (hbound : s.Bound)
    (hone : s.Everywhere Tables.OneToOne) (hstep : s.Step e s')
    (hspares : ∀ e' ∈ log, e'.Unbinds i → ∀ j ∈ e.caller?, j = i) :
    s'.InSight (log ++ [e]) i := by
  intro z hz
  cases hstep with
  | begin =>
      rcases scope?_begin hz with ⟨z', hz', rfl⟩ | ⟨-, rfl⟩
      · exact h.within hz' (w := s.begin.shared) rfl fun _ hcaches => hcaches
      · exact .of_idle rfl
  | clearCaches =>
      obtain ⟨z', hz', rfl⟩ := of_scope?_withStore hz
      exact h.within hz' (w := s.clearCaches.shared) rfl fun _ _ => .clear _ _
  | evict hevicts =>
      obtain ⟨z', hz', rfl⟩ := of_scope?_withStore hz
      obtain ⟨hcaches, hregistry⟩ := hevicts.loses
      exact h.within hz' rfl fun _ hbound => hbound.of_partOf hcaches
  | call c hx =>
      rename_i j x
      rcases scope?_put_eq_some hx hz with ⟨rfl, rfl⟩ | ⟨hij, z', hz', rfl⟩
      · exact h.own hbound hone hx c
      · cases hwriting : z'.work.conn.writing with
        | false => exact .of_idle hwriting
        | true =>
            -- Then the other one does not write, so it commits nothing.
            have hidle := hgood.others_idle hz' hwriting hx hij.symm
            refine h.within hz' (committed_of_idle hx hidle c) ?_
            rintro ⟨e', he', hunbinds⟩
            exact absurd (hspares e' he' hunbinds j rfl).symm hij

theorem Run.inSight (hgood : s.Good) (hbound : s.Bound) (hone : s.Everywhere Tables.OneToOne)
    (hs : s.InSight [] i) (h : s.Run log s') (hundisturbed : Event.Undisturbed i log) :
    s'.InSight log i := by
  induction h with
  | nil => exact hs
  | snoc hrun hstep ih =>
      obtain ⟨hlog, hspares⟩ := Event.undisturbed_snoc.mp hundisturbed
      exact (ih hlog).step (hgood.run hrun) (hbound.run hgood hrun)
        (oneToOne_run hone hrun) hstep hspares

variable {config : Config} {tables : Tables} {registryFile : RegistryFile} {labelStart : String}

theorem oneToOne_opened (h : tables.OneToOne) :
    (opened config tables registryFile labelStart).Everywhere Tables.OneToOne :=
  ⟨h.of_eq tables.namespaces_prepare, by rintro i x ⟨⟩⟩

/-- Unless another transaction has been asked something since an open one has lost sight of a
binding, lookups of the open one answer exactly what it sees, and binding a prefix to a URI binds
them to each other and to nothing else and leaves all other bindings alone, which a commit right
afterwards makes last, or it fails and changes nothing that is seen. -/
theorem bindings_seen (hsound : tables.Sound) (hone : tables.OneToOne)
    (h : (opened config tables registryFile labelStart).Run log s)
    (hundisturbed : Event.Undisturbed i log) (hx : s.scope? i = some x)
    (hopen : x.closed = false) :
    (∀ label, answerOf ((Call.namespaceByLabel label).run x) = .ok (x.work.view.binding? label)) ∧
      (∀ uri, answerOf ((Call.namespaceByUri uri).run x) = .ok (x.work.view.bindingOf? uri)) ∧
      ∀ label uri,
        (∃ ns y, setNamespace label uri x = .ok ns y ∧
          x.work.view.Rebinds label uri ns y.work.view ∧
            ∃ z, Transaction.commit y = .ok () z ∧ z.work.database.committed.HoldsAlone ns) ∨
          ∃ e y, setNamespace label uri x = .error e y ∧ y.work.view = x.work.view := by
  have hgood := good_opened config hsound registryFile labelStart
  have hbound := bound_opened config hone.label registryFile labelStart
  have hview := (oneToOne_run (oneToOne_opened hone) h).scopes i x hx
  have hcaches : x.work.store.caches.Bound x.work.view :=
    (h.inSight hgood hbound (oneToOne_opened hone) (by rintro x ⟨⟩) hundisturbed).bound
      (hbound.run hgood h) hx
  obtain ⟨hlabel, huri⟩ := (lookups_iff hview hopen).mp hcaches
  refine ⟨hlabel, huri, fun label uri => ?_⟩
  have hids := ((hbound.run hgood h).scopes i x hx).viewIds
  rcases setNamespace_cases ⟨hview, hcaches, hids⟩ hopen label uri with
    ⟨ns, y, hset, hopen', hrebinds⟩ | hfails
  · obtain ⟨z, hcommit, hcommitted⟩ := finish_eq_ok hopen' (.inl rfl)
    exact .inl ⟨ns, y, hset, hrebinds, z, hcommit, hrebinds.alone.of_eq hcommitted.namespaces⟩
  · exact .inr hfails

/-- A transaction has removed a binding that is committed, and finds it no more. Another one
had asked for it before. -/
theorem bindings_seen_removed :
    let s := (opened {} {} [] "w").begin.after 0 (.setNamespace "a" "urn:a")
      |>.after 0 (.commit none)
      |>.begin.begin.after 2 (.namespaceByLabel "a") |>.after 1 (.removeNamespace "a")
    s.database.committed.binding? "a" = some ⟨1, "a", "urn:a"⟩ ∧
      ∃ x, s.scope? 1 = some x ∧ x.closed = false ∧
        answerOf ((Call.namespaceByLabel "a").run x) = .ok none := by
  intro s
  have hrun := Run.nil (s := opened {} {} [] "w") |>.snoc .begin
    |>.call 0 (.setNamespace "a" "urn:a")
    |>.call 0 (.commit none) |>.snoc .begin |>.snoc .begin |>.call 2 (.namespaceByLabel "a")
    |>.call 1 (.removeNamespace "a")
  obtain ⟨hlookup, -⟩ := bindings_seen Tables.sound_empty Tables.oneToOne_empty hrun
    (i := 1) (by decide +kernel) rfl rfl
  exact ⟨rfl, _, rfl, rfl, hlookup "a"⟩

/-- A transaction has removed a binding, and another one has asked for it meanwhile.
Then the first one finds it again, is told that it is bound when it binds it anew,
and commits without it. -/
theorem bindings_unseen_removed :
    let s := (opened {} {} [] "w").begin.after 0 (.setNamespace "a" "urn:a")
      |>.after 0 (.commit none)
      |>.begin.begin.after 1 (.removeNamespace "a") |>.after 2 (.namespaceByLabel "a")
    let s' := (s.after 1 (.setNamespace "a" "urn:a")).after 1 (.commit none)
    (∃ log, (opened {} {} [] "w").Run log s) ∧
      (∃ x, s.scope? 1 = some x ∧ x.closed = false ∧ x.work.view.namespaces = [] ∧
        answerOf ((Call.namespaceByLabel "a").run x) = .ok (some ⟨1, "a", "urn:a"⟩) ∧
          answerOf ((Call.setNamespace "a" "urn:a").run x) = .ok ⟨1, "a", "urn:a"⟩) ∧
      s'.database.committed.namespaces = [] := by
  intro s s'
  have hrun := Run.nil (s := opened {} {} [] "w") |>.snoc .begin
    |>.call 0 (.setNamespace "a" "urn:a")
    |>.call 0 (.commit none) |>.snoc .begin |>.snoc .begin |>.call 1 (.removeNamespace "a")
    |>.call 2 (.namespaceByLabel "a")
  exact ⟨⟨_, hrun⟩, ⟨_, rfl, rfl, rfl, rfl, rfl⟩, rfl⟩

end OpenStore
end QuadStore
