import QuadStore.Proofs.AssignedIds
import QuadStore.Proofs.SeenTables

/-!
The ids that are answered for statements with a committed row. Main statement: whoever
asks for a statement that all transactions see under the id of its committed row gets this
id, unless a transaction that had removed the row, and had asked for the statement anew,
has not kept the removal.
-/

namespace QuadStore

open Transaction
open QuadStore.Action (registered?)

namespace Tables

variable {t t' : Tables} {key : StatementKey} {id : Int}

instance : Decidable (t.HasLive key id) :=
  inferInstanceAs (Decidable (∃ r ∈ t.statements, r.live = true ∧ r.key = key ∧ r.id = id))

/-- Whether the row with an id is marked as deleted. -/
def HasDeleted (t : Tables) (id : Int) : Prop :=
  ∃ r ∈ t.statements, r.live = false ∧ r.id = id

instance : Decidable (t.HasDeleted id) :=
  inferInstanceAs (Decidable (∃ r ∈ t.statements, r.live = false ∧ r.id = id))

theorem HasLive.mem_ids (h : t.HasLive key id) : id ∈ t.statements.map StatementRow.id := by
  obtain ⟨r, hr, -, -, rfl⟩ := h
  exact List.mem_map_of_mem hr

theorem Evolves.hasLive (h : t.Evolves t') (hsound : t'.Sound)
    (hid : id ∈ t.statements.map StatementRow.id) (hlive : t'.HasLive key id) :
    t.HasLive key id := by
  obtain ⟨r, hr, rfl⟩ := List.mem_map.mp hid
  obtain ⟨r', hr', hbecomes⟩ := h r hr
  obtain ⟨r'', hr'', hlive', hkey, hid'⟩ := hlive
  obtain rfl : r'' = r' := hsound.row_eq hr'' hr' (hid'.trans hbecomes.id.symm)
  exact ⟨r, hr, hbecomes.live hlive', hbecomes.key.symm.trans hkey, rfl⟩

theorem Evolves.hasDeleted (h : t.Evolves t') (hlive : t.HasLive key id)
    (hgone : ¬t'.HasLive key id) : t'.HasDeleted id := by
  obtain ⟨r, hr, -, hkey, rfl⟩ := hlive
  obtain ⟨r', hr', hbecomes⟩ := h r hr
  cases hlive' : r'.live with
  | false => exact ⟨r', hr', hlive', hbecomes.id⟩
  | true => exact absurd ⟨r', hr', hlive', hbecomes.key.trans hkey, hbecomes.id⟩ hgone

end Tables

theorem Workspace.writing_of_gone {w : Workspace} {key : StatementKey} {id : Int}
    (hcommitted : w.database.committed.HasLive key id) (hgone : ¬w.view.HasLive key id) :
    w.conn.writing = true := by
  by_contra hidle
  apply hgone
  rwa [view_eq_committed (by simpa using hidle)]

namespace Event

/-- Whether caches that may hold a registry are cleared or lose entries. -/
def unregisters : Event → Bool
  | .clearCaches => true
  | .evict group => group != .rows
  | _ => false

theorem losesKeys_of_unregisters (e : Event) (h : e.unregisters = false) :
    e.losesKeys = false := by
  cases e with
  | evict group => cases group <;> simp_all [unregisters, losesKeys]
  | _ => rfl

/-- The transaction that asks for a statement or adds it, or fails to ask for or to add one, while
it sees that the row with the given id is deleted. -/
def renews? (key : StatementKey) (id : Int) : Event → Option Nat
  | .call number before after c answer =>
      if before.HasDeleted id ∧ (call number before after c answer).Requests key then some number
      else none
  | _ => none

/-- The transaction that ends without having kept its removal of a row. -/
def undoes? (key : StatementKey) (id : Int) : Event → Option Nat
  | .call number before after c _ =>
      if c.ends = true ∧ before.HasDeleted id ∧ after.HasLive key id then some number else none
  | _ => none

/-- The transactions that have asked anew for a statement whose row they have seen deleted. -/
def renewing (log : List Event) (key : StatementKey) (id : Int) : List Nat :=
  log.filterMap (renews? key id)

/-- The transactions that have ended without having kept their removal of a row. -/
def undoing (log : List Event) (key : StatementKey) (id : Int) : List Nat :=
  log.filterMap (undoes? key id)

variable {log : List Event} {e : Event} {key : StatementKey} {id : Int} {i : Nat}

theorem mem_renewing_snoc :
    i ∈ renewing (log ++ [e]) key id ↔ i ∈ renewing log key id ∨ e.renews? key id = some i := by
  simp [renewing, List.filterMap_append]

theorem mem_undoing_snoc :
    i ∈ undoing (log ++ [e]) key id ↔ i ∈ undoing log key id ∨ e.undoes? key id = some i := by
  simp [undoing, List.filterMap_append]

end Event

namespace Transaction.Ended

variable {x y : Scope} {key : StatementKey} {id : Int}

theorem lookup (h : Ended x y) (hx : x.work.Numbers) (hid : registered? y.work key = some id) :
    registered? x.work key = some id := by
  obtain ⟨-, hlookup, -⟩ := Registry.released hx.reliable x.work.conn.transaction
  rw [← h.registry] at hlookup
  exact hlookup key id hid

theorem fits (h : Ended x y) (hx : x.work.Numbers) {t : Tables} (ht : x.work.Fits t) :
    y.work.Fits t := by
  refine ht.later ?_ fun key id hid => .inl (h.lookup hx hid)
  rw [h.counters]

end Transaction.Ended

namespace OpenStore

variable {s s' : OpenStore} {log : List Event} {e : Event} {i j : Nat} {x y z : Scope}
  {key : StatementKey} {id : Int}

theorem registered?_of_scope? (hx : s.scope? i = some x) :
    registered? x.work key = registered? s.shared key := by
  rw [work_of_scope? hx]
  rfl

theorem fits_of_scope? (hx : s.scope? i = some x) (hz : s.scope? j = some z) {t : Tables}
    (h : z.work.Fits t) : x.work.Fits t := by
  rw [work_of_scope? hz] at h
  rw [work_of_scope? hx]
  exact h.of_conn x.work.conn

/-- Whether the registered ids fit the rows of all tables of a store, and what its transactions
have stored is registered for them. -/
structure Assigns (s : OpenStore) : Prop extends Apart s where
  shared : s.shared.Assigns
  scopes : ∀ i x, s.scope? i = some x → x.work.Assigns

theorem Identifies.assigns (hs : s.Identifies) : s.Assigns :=
  ⟨hs.toApart, hs.shared.assigns, fun i x hx => (hs.scopes i x hx).assigns⟩

theorem Assigns.put {requested : StatementKey → Prop} (hs : s.Assigns) (hgood : (s.put i y).Good)
    (hx : s.scope? i = some x) (h : Assigning requested x.work y.work)
    (hworks : Works x.work y.work) : (s.put i y).Assigns := by
  have hy := h.assigns
  refine ⟨hs.toApart.put hx hworks.transaction hworks.transactionCounter,
    .of_idle (hy.numbers.of_conn _) (hy.committed.of_conn _) rfl, fun j z hz => ?_⟩
  rcases scope?_put_eq_some hx hz with ⟨-, rfl⟩ | ⟨hj, z', hz', rfl⟩
  · exact hy
  have hsame := committed_of_scope? hx hz' hworks.committed
  have hview := Scope.view_within_of_eq hsame
  have hold := hs.scopes j z' hz'
  refine ⟨hy.numbers.of_conn _, hy.committed.of_conn _, ?_, fun k id hlive => ?_⟩
  · rw [hview]
    refine ((fits_of_scope? hx hz' hold.view).later hworks.statementCounter
      fun k id hid => ?_).of_conn _
    exact (h.lookup k id hid).imp_right fun hnew => hnew.2.2
  · rw [hview] at hlive
    show y.work.database.committed.HasLive k id ∨ y.work.Owns k z'.work.conn.transaction id
    rw [hsame]
    rcases hold.owned k id hlive with hcommitted | howns
    · exact .inl hcommitted
    · rcases h.owns k _ id ((owns_of_scope? hx).mpr ((owns_of_scope? hz').mp howns)) with
        hkept | hwriting
      · exact .inr hkept
      · -- Only one transaction writes, so this one sees what is committed.
        have hidle := hgood.others_idle (scope?_put_self hx) hwriting hz hj
        change z'.work.conn.writing = false at hidle
        rw [Workspace.view_eq_committed hidle] at hlive
        exact .inl hlive

theorem Assigns.put_ended (hs : s.Assigns) (hgood : s.Good) (hx : s.scope? i = some x)
    (h : Ended x y) (hfits : x.work.Fits y.work.database.committed)
    (hchanged : x.work.conn.writing = true ∨
      y.work.database.committed = x.work.database.committed) : (s.put i y).Assigns := by
  have hnumbers := (hs.scopes i x hx).numbers
  have hnumbers' := h.numbers hnumbers
  have hcommitted := h.fits hnumbers hfits
  have idle_assigns : ∀ c : Connection, c.pending = none →
      Workspace.Assigns { y.work with conn := c } := fun c hc =>
    .of_idle (hnumbers'.of_conn c) (hcommitted.of_conn c) hc
  refine ⟨hs.toApart.put hx h.transaction (congrArg Counters.transactions h.counters),
    idle_assigns { transaction := 0 } rfl, fun j z hz => ?_⟩
  rcases scope?_put_eq_some hx hz with ⟨-, rfl⟩ | ⟨hj, z', hz', rfl⟩
  · exact idle_assigns _ h.pending
  cases hpending : z'.work.conn.pending with
  | none => exact idle_assigns _ hpending
  | some t =>
      -- Then the other one writes, and this one has changed nothing.
      have hidle := hgood.others_idle hz' (by simp [Connection.writing, hpending]) hx hj.symm
      have hsame := committed_of_scope? hx hz' (hchanged.resolve_left (by simp [hidle]))
      have hview := Scope.view_within_of_eq hsame
      have hold := hs.scopes j z' hz'
      refine ⟨hnumbers'.of_conn _, hcommitted.of_conn _, ?_, fun k id hlive => ?_⟩
      · rw [hview]
        exact (h.fits hnumbers (fits_of_scope? hx hz' hold.view)).of_conn _
      · rw [hview] at hlive
        show y.work.database.committed.HasLive k id ∨ y.work.Owns k z'.work.conn.transaction id
        rw [hsame]
        refine (hold.owned k id hlive).imp_right fun howns => ?_
        refine h.owns hnumbers (fun hother => hj (hs.distinct j z' i x hz' hx hother)) ?_
        exact (owns_of_scope? hx).mpr ((owns_of_scope? hz').mp howns)

theorem Assigns.begin (hs : s.Assigns) : s.begin.Assigns := by
  have hapart : s.begin.Apart := hs.toApart.begin
  have hnumbers : s.begin.shared.Numbers :=
    ⟨hs.shared.numbers.counter, hs.shared.numbers.reliable, hs.shared.numbers.bounded,
      hs.shared.numbers.injective⟩
  have hcommitted : s.begin.shared.Fits s.database.committed :=
    ⟨hs.shared.committed.bounded, hs.shared.committed.live⟩
  refine ⟨hapart, .of_idle hnumbers hcommitted rfl, fun i x hx => ?_⟩
  rcases scope?_begin hx with ⟨x', hx', rfl⟩ | ⟨-, rfl⟩
  · have hold := hs.scopes i x' hx'
    rw [work_of_scope? hx'] at hold
    exact ⟨hnumbers.of_conn _, hcommitted.of_conn _,
      ⟨hold.view.bounded, hold.view.live⟩, hold.owned⟩
  · exact .of_idle (hnumbers.of_conn _) (hcommitted.of_conn _) rfl

theorem Assigns.withCaches (hs : s.Assigns) (caches : Caches) :
    (s.withStore { s.store with caches }).Assigns := by
  have hnumbers : (s.withStore { s.store with caches }).shared.Numbers :=
    ⟨hs.shared.numbers.counter, hs.shared.numbers.reliable, hs.shared.numbers.bounded,
      hs.shared.numbers.injective⟩
  have hcommitted : (s.withStore { s.store with caches }).shared.Fits s.database.committed :=
    ⟨hs.shared.committed.bounded, hs.shared.committed.live⟩
  refine ⟨hs.toApart.withStore rfl, .of_idle hnumbers hcommitted rfl, fun i x hx => ?_⟩
  obtain ⟨x', hx', rfl⟩ := of_scope?_withStore hx
  have hold := hs.scopes i x' hx'
  rw [work_of_scope? hx'] at hold
  exact ⟨hnumbers.of_conn _, hcommitted.of_conn _,
    ⟨hold.view.bounded, hold.view.live⟩, hold.owned⟩

theorem Assigns.step (hs : s.Assigns) (hgood : s.Good) (h : s.Step e s')
    (hkeeps : e.unregisters = false) : s'.Assigns := by
  have hgood' := hgood.step h
  cases h with
  | begin => exact hs.begin
  | clearCaches => cases hkeeps
  | evict hevicts =>
      cases hevicts with
      | rows => exact hs.withCaches _
      | _ => cases hkeeps
  | call c hx =>
      rename_i i x
      have hx' := hs.scopes i x hx
      rcases c.run_cases x with
        ⟨hadvances, hends | hsame⟩ | ⟨refusal, y, rfl, hop, -, hended⟩ | ⟨-, -, habandoned⟩
      · exact hs.put hgood' hx (Call.assigning hends hx' (hgood.scopes i x hx).work i {} {})
          hadvances.works
      · rw [hsame] at hgood' ⊢
        exact hs.put hgood' hx ((refl x.work : Removes _ _).assigning hx') (refl x.work)
      · rw [Call.run, hop]
        exact hs.put_ended hgood hx hended.toEnded
          (hx'.view.congr hended.statements) hended.changed
      · refine hs.put_ended hgood hx habandoned.toEnded ?_ (.inr habandoned.committed)
        rw [habandoned.committed]
        exact hx'.committed

/-- What is registered for a statement with a committed row. When all transactions see the
row then it is the id of the row; while a transaction has removed it there is only what that
one has asked for anew. -/
structure Tracks (s : OpenStore) (log : List Event) (key : StatementKey) (id : Int) : Prop where
  settled : s.Everywhere (·.HasLive key id) →
    ∀ id', registered? s.shared key = some id' → id' = id
  renewed : ∀ i x, s.scope? i = some x → s.database.committed.HasLive key id →
    ¬x.work.view.HasLive key id → ∀ id', registered? s.shared key = some id' →
      i ∈ Event.renewing log key id

theorem Tracks.put {requested : StatementKey → Prop} (ht : s.Tracks log key id) (hgood : s.Good)
    (hgood' : (s.put i y).Good) (hx : s.scope? i = some x) (h : Assigning requested x.work y.work)
    (hworks : Works x.work y.work)
    (hrenews : requested key → x.work.view.HasDeleted id → e.renews? key id = some i) :
    (s.put i y).Tracks (log ++ [e]) key id := by
  have hcommitted : y.work.database.committed = s.database.committed := by
    rw [hworks.committed, database_of_scope? hx]
  have hothers : ∀ {j z}, s.scope? j = some z →
      (z.within y.work).work.view = z.work.view := fun hz =>
    Scope.view_within_of_eq (committed_of_scope? hx hz hworks.committed)
  constructor
  · intro hlive id' hid
    have hrow : s.database.committed.HasLive key id := hcommitted ▸ hlive.committed
    have hbefore : x.work.view.HasLive key id := by
      have hids := (hgood.scopes i x hx).work.evolves.mem_ids
        (database_of_scope? hx ▸ hrow.mem_ids)
      exact hworks.evolves.hasLive (hgood'.scopes i y (scope?_put_self hx)).work.sound hids
        (hlive.scopes i y (scope?_put_self hx))
    rcases h.lookup key id' hid with hregistered | ⟨-, hnew, -⟩
    · exact ht.settled (hlive.of_put hrow hx hbefore) id' (registered?_of_scope? hx ▸ hregistered)
    · exact absurd hbefore.mem_members hnew
  · intro j z hz hrow hgone id' hid
    have hrow' : s.database.committed.HasLive key id := hcommitted ▸ hrow
    have old_renewed : registered? x.work key = some id' → ∀ {z'}, s.scope? j = some z' →
        ¬z'.work.view.HasLive key id → j ∈ Event.renewing (log ++ [e]) key id :=
      fun hregistered _ hz' hgone' => Event.mem_renewing_snoc.mpr
        (.inl (ht.renewed j _ hz' hrow' hgone' id' (registered?_of_scope? hx ▸ hregistered)))
    rcases scope?_put_eq_some hx hz with ⟨rfl, rfl⟩ | ⟨hj, z', hz', rfl⟩
    · by_cases hlive : x.work.view.HasLive key id
      · rcases h.gone key id hlive with hkept | hnone
        · exact absurd hkept hgone
        · cases hnone.symm.trans hid
      · rcases h.lookup key id' hid with hregistered | ⟨hrequested, -⟩
        · exact old_renewed hregistered hx hlive
        · have hevolves := (hgood.scopes j x hx).work.evolves
          exact Event.mem_renewing_snoc.mpr
            (.inr (hrenews hrequested
              (hevolves.hasDeleted (database_of_scope? hx ▸ hrow') hlive)))
    · rw [hothers hz'] at hgone
      rcases h.lookup key id' hid with hregistered | ⟨-, hnew, -⟩
      · exact old_renewed hregistered hz' hgone
      · -- The other one writes, so this one saw the committed row and has not asked anew.
        have hwriting := Workspace.writing_of_gone (database_of_scope? hz' ▸ hrow') hgone
        have hidle := hgood.others_idle hz' hwriting hx hj.symm
        rw [Workspace.view_eq_committed hidle, database_of_scope? hx] at hnew
        exact absurd hrow'.mem_members hnew

theorem Tracks.put_ended (ht : s.Tracks log key id) (hs : s.Assigns) (hgood : s.Good)
    (hx : s.scope? i = some x) (h : Ended x y) (hchanged : x.work.conn.writing = true ∨
      y.work.database.committed = x.work.database.committed)
    (hsettled : (s.put i y).Everywhere (·.HasLive key id) → ∀ id',
      registered? x.work key = some id' → id' = id) : (s.put i y).Tracks (log ++ [e]) key id := by
  have hlookup : ∀ {id'}, registered? y.work key = some id' → registered? x.work key = some id' :=
    fun hid => h.lookup (hs.scopes i x hx).numbers hid
  refine ⟨fun hlive id' hid => hsettled hlive id' (hlookup hid),
    fun j z hz hrow hgone id' hid => ?_⟩
  rcases scope?_put_eq_some hx hz with ⟨rfl, rfl⟩ | ⟨hj, z', hz', rfl⟩
  · rw [Workspace.view_eq_committed (by simp [Connection.writing, h.pending])] at hgone
    exact absurd hrow hgone
  · have hwriting : z'.work.conn.writing = true :=
      Workspace.writing_of_gone (w := (z'.within y.work).work) hrow hgone
    have hidle := hgood.others_idle hz' hwriting hx hj.symm
    have hsame := committed_of_scope? hx hz' (hchanged.resolve_left (by simp [hidle]))
    rw [Scope.view_within_of_eq hsame] at hgone
    have hrow' : s.database.committed.HasLive key id := by
      rw [← database_of_scope? hz', ← hsame]
      exact hrow
    exact Event.mem_renewing_snoc.mpr
      (.inl (ht.renewed j z' hz' hrow' hgone id' (registered?_of_scope? hx ▸ hlookup hid)))

theorem Tracks.put_committed (ht : s.Tracks log key id) (hs : s.Assigns) (hgood : s.Good)
    (hx : s.scope? i = some x) (h : Committed x y) : (s.put i y).Tracks (log ++ [e]) key id := by
  refine ht.put_ended hs hgood hx h.toEnded h.changed fun hlive id' hid => ?_
  have hx' := hs.scopes i x hx
  have hrow : x.work.view.HasLive key id := (Tables.hasLive_congr h.statements).mp hlive.committed
  by_cases hold : s.database.committed.HasLive key id
  · exact ht.settled (hlive.of_put hold hx hrow) id' (registered?_of_scope? hx ▸ hid)
  · -- The row is new, so its id was registered for the transaction that has committed.
    rcases hx'.owned key id hrow with hcommitted | howns
    · exact absurd (database_of_scope? hx ▸ hcommitted) hold
    · exact Option.some.inj (hid.symm.trans (hx'.numbers.registered_of_owns howns))

theorem Tracks.put_abandoned (ht : s.Tracks log key id) (hs : s.Assigns) (hgood : s.Good)
    (hx : s.scope? i = some x) (h : Abandoned x y)
    (hundone : x.work.view.HasDeleted id → y.work.view.HasLive key id →
      i ∉ Event.renewing log key id) : (s.put i y).Tracks (log ++ [e]) key id := by
  refine ht.put_ended hs hgood hx h.toEnded (.inr h.committed) fun hlive id' hid => ?_
  have hregistered : registered? s.shared key = some id' := registered?_of_scope? hx ▸ hid
  have hrow : s.database.committed.HasLive key id := by
    rw [← database_of_scope? hx, ← h.committed]
    exact hlive.committed
  by_cases hseen : x.work.view.HasLive key id
  · exact ht.settled (hlive.of_put hrow hx hseen) id' hregistered
  · have hrenewed := ht.renewed i x hx hrow hseen id' hregistered
    have hdeleted := (hgood.scopes i x hx).work.evolves.hasDeleted
      (database_of_scope? hx ▸ hrow) hseen
    exact absurd hrenewed (hundone hdeleted (hlive.scopes i y (scope?_put_self hx)))

theorem Tracks.begin (ht : s.Tracks log key id) : s.begin.Tracks (log ++ [e]) key id := by
  have hothers : ∀ {i x}, s.scope? i = some x →
      (x.within s.begin.shared).work.view = x.work.view :=
    fun hx => Scope.view_within_of_eq (congrArg Database.committed (database_of_scope? hx).symm)
  constructor
  · refine fun hlive id' hid => ht.settled ⟨hlive.committed, fun i x hx => ?_⟩ id' hid
    rw [← hothers hx]
    exact hlive.scopes i _ (scope?_begin_of_some hx)
  · intro i x hx hrow hgone id' hid
    rcases scope?_begin hx with ⟨x', hx', rfl⟩ | ⟨-, rfl⟩
    · rw [hothers hx'] at hgone
      exact Event.mem_renewing_snoc.mpr (.inl (ht.renewed i x' hx' hrow hgone id' hid))
    · exact absurd hrow hgone

theorem Tracks.withCaches (ht : s.Tracks log key id) (caches : Caches) :
    (s.withStore { s.store with caches }).Tracks (log ++ [e]) key id := by
  have hothers : ∀ {i x}, s.scope? i = some x →
      (x.within (s.withStore { s.store with caches }).shared).work.view = x.work.view :=
    fun hx => Scope.view_within_of_eq (congrArg Database.committed (database_of_scope? hx).symm)
  constructor
  · refine fun hlive id' hid => ht.settled ⟨hlive.committed, fun i x hx => ?_⟩ id' hid
    rw [← hothers hx]
    exact hlive.scopes i _ (scope?_withStore_of_some hx _)
  · intro i x hx hrow hgone id' hid
    obtain ⟨x', hx', rfl⟩ := of_scope?_withStore hx
    rw [hothers hx'] at hgone
    exact Event.mem_renewing_snoc.mpr (.inl (ht.renewed i x' hx' hrow hgone id' hid))

theorem Tracks.step (ht : s.Tracks log key id) (hs : s.Assigns) (hgood : s.Good) (h : s.Step e s')
    (hkeeps : e.unregisters = false)
    (hundone : ∀ i, e.undoes? key id = some i → i ∉ Event.renewing log key id) :
    s'.Tracks (log ++ [e]) key id := by
  have hgood' := hgood.step h
  cases h with
  | begin => exact ht.begin
  | clearCaches => cases hkeeps
  | evict hevicts =>
      cases hevicts with
      | rows => exact ht.withCaches _
      | _ => cases hkeeps
  | call c hx =>
      rename_i i x
      have hx' := hs.scopes i x hx
      rcases c.run_cases x with
        ⟨hadvances, hends | hsame⟩ | ⟨refusal, y, rfl, hop, -, hended⟩ | ⟨-, hends, habandoned⟩
      · exact ht.put hgood hgood' hx (Call.assigning hends hx' (hgood.scopes i x hx).work i _ _)
          hadvances.works fun hrequested hdeleted => if_pos ⟨hdeleted, hrequested⟩
      · rw [hsame] at hgood' ⊢
        exact ht.put hgood hgood' hx ((refl x.work : Removes _ _).assigning hx') (refl x.work)
          fun hnone => hnone.elim
      · rw [Call.run, hop]
        exact ht.put_committed hs hgood hx hended
      · exact ht.put_abandoned hs hgood hx habandoned fun hdeleted hlive =>
          hundone i (if_pos ⟨hends, hdeleted, hlive⟩)

theorem Run.tracks (hs : s.Assigns) (hgood : s.Good) (ht : s.Tracks [] key id) (h : s.Run log s')
    (hkeeps : ∀ e ∈ log, e.unregisters = false)
    (hundone : ∀ i ∈ Event.undoing log key id, i ∉ Event.renewing log key id) :
    s'.Assigns ∧ s'.Tracks log key id := by
  induction h with
  | nil => exact ⟨hs, ht⟩
  | snoc hrun hstep ih =>
      rename_i log e s₁ s₂
      rw [List.forall_mem_append, List.forall_mem_singleton] at hkeeps
      have hstays : ∀ i, i ∈ Event.undoing log key id ∨ e.undoes? key id = some i →
          i ∉ Event.renewing log key id := fun i hi hrenewed =>
        hundone i (Event.mem_undoing_snoc.mpr hi) (Event.mem_renewing_snoc.mpr (.inl hrenewed))
      obtain ⟨hs₁, ht₁⟩ := ih hkeeps.1 fun i hi => hstays i (.inl hi)
      have hgood₁ := hgood.run hrun
      exact ⟨hs₁.step hgood₁ hstep hkeeps.2,
        ht₁.step hs₁ hgood₁ hstep hkeeps.2 fun i hi => hstays i (.inr hi)⟩

end OpenStore

/-! What is answered -/

section

variable {w w' : Workspace} {x y : Scope} {t : Statement} {key : StatementKey} {id id' : Int}

theorem Transaction.Requested.id_eq_live (h : Requested w w' key id') (hgood : w.Good)
    (hlive : w.view.HasLive key id) (hregistered : ∀ i, registered? w key = some i → i = id) :
    id' = id := by
  obtain ⟨w₁, hsilent, hidentified⟩ := h
  have hlive₁ : w₁.view.HasLive key id := (Tables.hasLive_congr hsilent.statements).mpr hlive
  cases hidentified with
  | shared h => exact hregistered id' ((hsilent.sameRegistry.registered?_eq key).symm.trans h)
  | stored h hrow hreads => exact (hsilent.good hgood).sound.hasLive_inj hrow hlive₁
  | minted h hnew hid => exact absurd hlive₁.mem_members hnew

theorem Transaction.Adds.id_eq_live (h : Adds x y t) (hgood : x.work.Good)
    (hlive : x.work.view.HasLive t.key id) : t.id = id := by
  obtain ⟨w, t₁, added, hrequested, hkey, hstored, -⟩ := h.stored
  have hlive₁ : w.view.HasLive t₁.key id := by
    rw [← hkey]
    exact (Tables.hasLive_congr hrequested.quiet.statements).mpr hlive
  cases hstored with
  | found hview hrow => exact (hrequested.quiet.good hgood).sound.hasLive_inj hrow hlive₁
  | added hview hnew hfresh hid => exact absurd hlive₁.mem_members hnew

theorem Call.requests_of_answer {c : Call} {answer : Except StoreError c.Answer} {number i : Nat}
    {before after : Tables}
    (h : (Event.call number before after c answer).statement? = some (i, t)) :
    c.requests = true ∧ c.ends = false ∧ c.removes = false := by
  cases c with
  | statement | add | addInferred => exact ⟨rfl, rfl, rfl⟩
  | _ => cases h

theorem Action.identifyShared_ok (hgood : w.Good) (hlive : w.view.HasLive t.key id)
    (hloads : (answerOf (loadStatement id w)).isOk = true) :
    ∃ t' w', identifyShared t w = .ok t' w' := by
  unfold identifyShared
  rw [bind_of_ok (a := registeredId t.key) (s := w) rfl]
  cases w.store.registry.lookup? w.registryFile t.key with
  | some i => exact ⟨_, _, rfl⟩
  | none =>
      cases hfind : liveStatementId t.key w with
      | error e w₁ => cases hfind
      | ok live w₁ =>
          obtain rfl : w = w₁ := (view_eq_ok_iff.mp hfind).2
          dsimp only
          rw [bind_of_ok hfind]
          cases live with
          | none => exact absurd hlive.mem_members (liveStatementId_eq_none hfind)
          | some i =>
              obtain rfl : i = id :=
                hgood.sound.hasLive_inj (liveStatementId_eq_some hfind rfl) hlive
              cases hload : loadStatement i w with
              | ok found w' => exact ⟨_, _, bind_of_ok hload⟩
              | error e w' =>
                  rw [hload] at hloads
                  cases hloads

end

/-- Whether nodes with ids of their own may stand in the slots of a statement and
have the ids of its key. -/
structure StatementKey.Names (k : StatementKey)
    (subject predicate object context : Node) : Prop where
  slots : checkSlots subject predicate (some context) = .ok ()
  persisted : ∀ n ∈ [subject, predicate, object, context], n.isPersisted = true
  key : k = ⟨subject.id, predicate.id, object.id, context.id⟩

theorem Action.createStatement_of_names {k : StatementKey}
    {subject predicate object context : Node}
    (h : k.Names subject predicate object context) (w : Workspace) :
    ∃ t : Statement, t.key = k ∧
      createStatement subject predicate object (some context) w = identifyShared t w := by
  have converts : ∀ n ∈ [subject, predicate, object, context], convert n w = .ok n w := by
    intro n hn
    unfold convert
    rw [if_pos (h.persisted n hn)]
    rfl
  have hmade : ∃ t : Statement, t.key = k ∧
      Statement.make subject predicate object (some context) = .ok t := by
    unfold Statement.make
    rw [h.slots, h.key]
    exact ⟨_, rfl, rfl⟩
  obtain ⟨t, hkey, hmade⟩ := hmade
  refine ⟨t, hkey, ?_⟩
  unfold createStatement
  rw [bind_of_ok (ofStatement_eq_ok_iff.mpr ⟨h.slots, rfl⟩),
    bind_of_ok (converts subject (by simp)),
    bind_of_ok (converts predicate (by simp)), bind_of_ok (converts object (by simp))]
  dsimp only
  rw [bind_of_ok (converts context (by simp)),
    bind_of_ok (ofStatement_eq_ok_iff.mpr ⟨hmade, rfl⟩)]

namespace OpenStore

variable {s s' : OpenStore} {log : List Event} {e : Event} {i : Nat} {t : Statement}
  {key : StatementKey} {id : Int}

theorem Step.id_eq_live (h : s.Step e s') (hgood : s.Good)
    (hlive : s.Everywhere (·.HasLive key id))
    (hregistered : ∀ id', registered? s.shared key = some id' → id' = id)
    (hanswer : e.statement? = some (i, t)) (hkey : t.key = key) : t.id = id := by
  subst hkey
  cases h with
  | begin | clearCaches | evict => cases hanswer
  | call c hx =>
      rename_i j x
      have hwork := (hgood.scopes j x hx).work
      have hseen := hlive.scopes j x hx
      obtain ⟨hrequests, hends, hremoves⟩ := Call.requests_of_answer hanswer
      rcases Call.request_cases hends hremoves hwork with
        ⟨-, hnone⟩ | ⟨-, ⟨t', hdone, hanswered⟩ | ⟨-, hfailed⟩⟩
      · cases hnone.symm.trans hrequests
      · cases (hanswered j _ _).symm.trans hanswer
        rcases hdone with hrequested | hadds
        · exact hrequested.id_eq_live hwork hseen fun id' hid =>
            hregistered id' (registered?_of_scope? hx ▸ hid)
        · exact hadds.id_eq_live hwork hseen
      · cases (hfailed j _ _).symm.trans hanswer

variable {config : Config} {tables : Tables} {labelStart : String}

theorem Run.registered_eq (htables : tables.Sound)
    (h : (opened config tables [] labelStart).Run log s)
    (hkeeps : ∀ e ∈ log, e.unregisters = false)
    (hundone : ∀ i ∈ Event.undoing log key id, i ∉ Event.renewing log key id)
    (hlive : s.Everywhere (·.HasLive key id)) {id' : Int}
    (hid : registered? s.shared key = some id') :
    id' = id := by
  rcases Registry.reliable_or_forgets config with hreliable | hforgets
  · have none_registered :
        ∀ id', registered? (opened config tables [] labelStart).shared key ≠ some id' :=
      fun id' hid => by cases (Registry.lookup?_make config).symm.trans hid
    obtain ⟨-, ht⟩ := h.tracks
      (identifies_opened_of_reliable hreliable htables labelStart).assigns
      (good_opened config htables [] labelStart)
      ⟨fun _ id' hid => absurd hid (none_registered id'),
        fun i x hx _ _ id' hid => absurd hid (none_registered id')⟩ hkeeps hundone
    exact ht.settled hlive id' hid
  · have hkeys : Event.KeepsKeys log := fun e he => e.losesKeys_of_unregisters (hkeeps e he)
    cases (h.registry Registry.stable_forgets hkeys hforgets).lookup?_eq.symm.trans hid

/-- Whoever asks for or adds a statement that has a committed row which all transactions see is
answered with the id of the row, and whoever asks for it by its nodes is answered if the row can
be read. No transaction that had removed the row and asked for the statement anew has ended
without keeping the removal, no caches have been cleared, and those that hold a registry have lost
no entries of their own accord. -/
theorem live_row_answered (htables : tables.Sound)
    (h : (opened config tables [] labelStart).Run log s)
    (hkeeps : ∀ e ∈ log, e.unregisters = false)
    (hundone : ∀ i ∈ Event.undoing log key id, i ∉ Event.renewing log key id)
    (hcommitted : s.database.committed.HasLive key id)
    (hseen : ∀ i x, s.scope? i = some x → x.closed = false → x.work.view.HasLive key id) :
    (∀ e s' i t, s.Step e s' → e.statement? = some (i, t) → t.key = key → t.id = id) ∧
      ∀ i x, s.scope? i = some x → x.closed = false → ∀ subject predicate object context,
        key.Names subject predicate object context →
          (answerOf (Action.loadStatement id x.work)).isOk = true →
            ∃ t, answerOf ((Call.statement subject predicate object (some context)).run x) =
              .ok t ∧
              t.key = key ∧ t.id = id := by
  have hopened := good_opened config htables [] labelStart
  have hgood := hopened.run h
  have hlive : s.Everywhere (·.HasLive key id) := by
    refine ⟨hcommitted, fun i x hx => ?_⟩
    cases hclosed : x.closed with
    | false => exact hseen i x hx hclosed
    | true =>
        rwa [Workspace.view_eq_committed (hgood.closed i x hx hclosed), database_of_scope? hx]
  have hregistered : ∀ id', registered? s.shared key = some id' → id' = id :=
    fun id' hid => h.registered_eq htables hkeeps hundone hlive hid
  refine ⟨fun e s' i t hstep => hstep.id_eq_live hgood hlive hregistered, ?_⟩
  intro i x hx hopen subject predicate object context hnames hloads
  have hwork := (hgood.scopes i x hx).work
  obtain ⟨made, hkey, hcreate⟩ := Action.createStatement_of_names hnames x.work
  obtain ⟨t, w, hidentify⟩ := Action.identifyShared_ok (t := made) hwork
    (hkey ▸ hlive.scopes i x hx) hloads
  have hrun : (Call.statement subject predicate object (some context)).run x =
      .ok t { x with work := w } :=
    (whileOpen_of_open hopen).trans (work_of_ok (hcreate.trans hidentify))
  have hkey' : t.key = key := (Action.identifyShared_eq_ok hwork hidentify).1.trans hkey
  refine ⟨t, by rw [hrun]; rfl, hkey', ?_⟩
  have hstep : s.Step _ _ := .call (Call.statement subject predicate object (some context)) hx
  refine hstep.id_eq_live hgood hlive hregistered (i := i) ?_ hkey'
  rw [hrun]
  rfl

/-- A statement was removed and the removal rolled back: another transaction
gets the id of its row. -/
theorem live_row_answered_rolled_back :
    let a : Node := ⟨1, .uri "urn:a"⟩
    let s := (opened {} {} [] "w").begin.after 0 (.uri "urn:a") |>.after 0 (.add a a a (some a))
      |>.after 0 (.commit none) |>.begin.begin.after 1 (.remove (some a) none none none)
      |>.after 1 .rollback
    ∃ x t, s.scope? 2 = some x ∧
      answerOf ((Call.statement a a a (some a)).run x) = .ok t ∧
        t.key = ⟨1, 1, 1, 1⟩ ∧ t.id = 1 := by
  intro a s
  have hrun := Run.nil (s := opened {} {} [] "w") |>.snoc .begin |>.call 0 (.uri "urn:a")
    |>.call 0 (.add a a a (some a)) |>.call 0 (.commit none) |>.snoc .begin |>.snoc .begin
    |>.call 1 (.remove (some a) none none none) |>.call 1 .rollback
  have hlive : s.Everywhere (·.HasLive ⟨1, 1, 1, 1⟩ 1) := by decide +kernel
  obtain ⟨-, hanswered⟩ := live_row_answered Tables.sound_empty hrun
    (by decide +kernel) (by decide +kernel) hlive.committed fun i x hx _ => hlive.scopes i x hx
  obtain ⟨t, hanswer⟩ := hanswered 2 _ rfl rfl a a a a ⟨rfl, by decide, rfl⟩ (by decide +kernel)
  exact ⟨_, t, rfl, hanswer⟩

/-- A transaction asks for a statement that has a row. Another one removes the statement and asks
for it anew, then the first one asks again, and the removal is rolled back. The first one goes on
being answered with the id that was given out meanwhile, although the row is live under its own,
which it was answered before and by which an addition finds the row. -/
theorem live_row_missed_after_rollback :
    let a : Node := .uri "urn:a"
    let k : StatementKey := ⟨1, 1, 1, 1⟩
    let answered (x : Scope) (c : Call) :=
      (Event.call 2 {} {} c (answerOf (c.run x))).statement?.map
      fun found => (found.2.key, found.2.id)
    let s₁ := (opened {} {} [] "w").begin.after 0 (.add a a a (some a)) |>.after 0 (.commit none)
      |>.begin.begin
    let s₂ := s₁.after 2 (.statement a a a (some a)) |>.after 1 (.remove (some a) none none none)
      |>.after 1 (.statement a a a (some a))
        |>.after 2 (.statement a a a (some a)) |>.after 1 .rollback
    (∃ log, (opened {} {} [] "w").Run log s₂) ∧ s₂.Everywhere (·.HasLive k 1) ∧
      ∃ x₁ x₂, s₁.scope? 2 = some x₁ ∧ s₂.scope? 2 = some x₂ ∧ x₂.closed = false ∧
        answered x₁ (.statement a a a (some a)) = some (k, 1) ∧
          answered x₂ (.statement a a a (some a)) = some (k, 2) ∧
            answered x₂ (.add a a a (some a)) = some (k, 1) := by
  intro a k answered s₁ s₂
  have hrun := Run.nil (s := opened {} {} [] "w") |>.snoc .begin |>.call 0 (.add a a a (some a))
    |>.call 0 (.commit none) |>.snoc .begin |>.snoc .begin |>.call 2 (.statement a a a (some a))
    |>.call 1 (.remove (some a) none none none) |>.call 1 (.statement a a a (some a))
    |>.call 2 (.statement a a a (some a)) |>.call 1 .rollback
  exact ⟨⟨_, hrun⟩, by decide +kernel, _, _, rfl, rfl, by decide +kernel, by decide +kernel,
    by decide +kernel, by decide +kernel⟩

end OpenStore
end QuadStore
