import QuadStore.Proofs.StatementIds

namespace QuadStore

open Transaction
open QuadStore.Action (registered? Identified Stored SameRegistry)

namespace Transaction

variable {w w' : Workspace} {key : StatementKey} {id id' : Int} {x y : Scope} {t : Statement}

/-- Work after which statements still have one id each, and that has removed none. -/
structure Proceeds (w w' : Workspace) : Prop extends Extends w w' where
  identifies : w'.Identifies
  live : ∀ key id, w.view.HasLive key id → w'.view.HasLive key id

theorem Proceeds.trans {w'' : Workspace} (h : Proceeds w w') (h' : Proceeds w' w'') :
    Proceeds w w'' :=
  ⟨h.toExtends.trans h'.toExtends, h'.identifies,
    fun key id hid => h'.live key id (h.live key id hid)⟩

theorem Proceeds.of_quiet (hw : w.Identifies) (hquiet : Quiet w w') (h : Extends w w') :
    Proceeds w w' :=
  ⟨h, hw.quiet hquiet h, fun _ _ hid => (Tables.hasLive_congr hquiet.statements).mpr hid⟩

theorem Proceeds.of_silent (hw : w.Identifies) (h : Silent w w') : Proceeds w w' :=
  .of_quiet hw h.toQuiet (Extends.of_silent hw.numbers h)

theorem Requested.proceeds (hw : w.Identifies) (h : Requested w w' key id) :
    Proceeds w w' ∧ w'.Knows key id := by
  obtain ⟨w₁, hsilent, hidentified⟩ := h
  have hproceeds := Proceeds.of_silent hw hsilent
  have hw₁ := hproceeds.identifies
  exact ⟨hproceeds.trans
    (.of_quiet hw₁ hidentified.quiet (Extends.of_identified hw₁ hidentified)),
    hw₁.numbers.known hidentified⟩

theorem Requested.id_eq (hw : w.Identifies) (hgood : w.Good) (h : Requested w w' key id)
    (hheld : (∃ transaction, w.Owns key transaction id') ∨ w.database.committed.HasLive key id') :
    id = id' := by
  obtain ⟨w₁, hsilent, hidentified⟩ := h
  have hextends := Extends.of_silent hw.numbers hsilent
  have hw₁ := hw.quiet hsilent.toQuiet hextends
  have hheld' : registered? w₁ key = some id' ∨ w₁.database.committed.HasLive key id' := by
    rw [hextends.committed]
    refine hheld.imp_left ?_
    rintro ⟨transaction, howns⟩
    exact hextends.numbers.registered_of_owns (hextends.owns key transaction id' howns)
  cases hidentified with
  | shared h =>
      rcases hheld' with hregistered | hlive
      · exact Option.some.inj (h.symm.trans hregistered)
      · exact (hw₁.committed.id key id' hlive id h).symm
  | stored h hrow hreads =>
      rcases hheld' with hregistered | hlive
      · cases h.symm.trans hregistered
      · exact (hsilent.good hgood).sound.hasLive_inj hrow (hw₁.kept key id' hlive)
  | minted h hnew hid =>
      rcases hheld' with hregistered | hlive
      · cases h.symm.trans hregistered
      · exact absurd (hw₁.kept key id' hlive).mem_members hnew

theorem Adds.proceeds (hx : x.work.Identifies) (hgood : x.work.Good) (h : Adds x y t) :
    Proceeds x.work y.work ∧ y.work.view.HasLive t.key t.id ∧
      ∃ w, Requested x.work w t.key t.id := by
  obtain ⟨w, t₁, added, hrequested, hkey, hstored, hworks, hregistry⟩ := h.stored
  obtain ⟨hproceeds, hknown⟩ := hrequested.proceeds hx
  have hw := hproceeds.identifies
  have hsound := (hrequested.quiet.good hgood).sound
  obtain ⟨hy, hid, hlive⟩ := hw.stored hsound hknown hkey hstored hworks hregistry
  rw [← hkey, ← hid] at hlive hrequested
  exact ⟨hproceeds.trans ⟨Extends.of_sameRegistry hw.numbers hworks hregistry, hy,
    fun _ _ => hstored.hasLive⟩, hlive, w, hrequested⟩

theorem Fails.proceeds (hx : x.work.Identifies) (h : Fails x y) : Proceeds x.work y.work := by
  rcases h with hunder | ⟨w, key, id, hrequested, hunder⟩
  · exact .of_silent hx hunder.work
  · obtain ⟨hproceeds, -⟩ := hrequested.proceeds hx
    obtain ⟨hquiet, hregistry⟩ := hunder.work
    exact hproceeds.trans (.of_quiet hproceeds.identifies hquiet
      (Extends.of_sameRegistry hproceeds.identifies.numbers hquiet.toWorks hregistry))

end Transaction

namespace Workspace

variable {w w' : Workspace}

theorem Identifies.of_idle (hnumbers : w.Numbers) (hcommitted : w.Agrees w.database.committed)
    (hpending : w.conn.pending = none) : w.Identifies := by
  have hview : w.view = w.database.committed :=
    view_eq_committed (by simp [Connection.writing, hpending])
  refine ⟨hnumbers, hcommitted, ?_, ?_, ?_⟩
  · rw [hview]
    exact hcommitted
  · rw [hview]
    exact fun _ _ h => h
  · rw [hview]
    exact fun _ _ h => .inl h

theorem Numbers.of_conn (h : w.Numbers) (c : Connection) : Numbers { w with conn := c } :=
  ⟨h.counter, h.reliable, h.bounded, h.injective⟩

theorem Agrees.of_conn {t : Tables} (h : w.Agrees t) (c : Connection) :
    Agrees { w with conn := c } t :=
  ⟨h.bounded, h.key, h.id⟩

theorem Identifies.within (hw : w.Identifies) (h : Extends w w') (hconn : w'.conn = w.conn) :
    w'.Identifies := by
  have hview : w'.view = w.view := by
    unfold Workspace.view
    rw [hconn, h.committed]
  refine ⟨h.numbers, ?_, ?_, ?_, ?_⟩
  · rw [h.committed]
    exact h.agrees _ w.conn.transaction hw.committed fun key id hid => .inl hid
  · rw [hview]
    exact h.agrees _ w.conn.transaction hw.view hw.owned
  · rw [hview, h.committed]
    exact hw.kept
  · intro key id hid
    rw [hview] at hid
    rw [h.committed, hconn]
    exact (hw.owned key id hid).imp_right (h.owns key _ id)

end Workspace

theorem Extends.of_conn {w w' : Workspace} (h : Extends w w') (c : Connection) :
    Extends { w with conn := c } { w' with conn := c } :=
  ⟨h.committed, h.numbers.of_conn c, h.owns, fun t transaction ht hknown =>
    (h.agrees t transaction (ht.of_conn w.conn) hknown).of_conn c⟩

theorem Config.internal_of_validate {c : Config} (h : c.validate = .ok ())
    (hc : c.registry = .cache) :
    c.cache.backend = .internal := by
  cases hbackend : c.cache.backend with
  | internal => rfl
  | disabled =>
      unfold validate at h
      dsimp only at h
      split at h
      · cases h
      split at h
      · cases h
      split at h
      · cases h
      · rw [if_pos ⟨hc, hbackend⟩] at h
        cases h

namespace Transaction.Ended

variable {x y : Scope}

theorem numbers (h : Ended x y) (hx : x.work.Numbers) : y.work.Numbers := by
  obtain ⟨hreliable, hlookup, -⟩ := Registry.released hx.reliable x.work.conn.transaction
  rw [← h.registry] at hreliable hlookup
  refine ⟨?_, hreliable, ?_, ?_⟩
  · rw [h.counters]
    exact hx.counter
  · intro key id hid
    rw [h.counters]
    exact hx.bounded key id (hlookup key id hid)
  · intro key key' id hid hid'
    exact hx.injective key key' id (hlookup key id hid) (hlookup key' id hid')

theorem agrees (h : Ended x y) (hx : x.work.Numbers) {t : Tables} (ht : x.work.Agrees t) :
    y.work.Agrees t := by
  obtain ⟨-, hlookup, -⟩ := Registry.released hx.reliable x.work.conn.transaction
  rw [← h.registry] at hlookup
  refine ⟨?_, ?_, ?_⟩
  · rw [h.counters]
    exact ht.bounded
  · exact fun r hr key hid => ht.key r hr key (hlookup key r.id hid)
  · exact fun key id hlive id' hid => ht.id key id hlive id' (hlookup key id' hid)

theorem owns (h : Ended x y) (hx : x.work.Numbers) {key : StatementKey} {transaction id : Int}
    (hother : transaction ≠ x.work.conn.transaction) (howns : x.work.Owns key transaction id) :
    y.work.Owns key transaction id := by
  obtain ⟨-, -, hreleased⟩ := Registry.released hx.reliable x.work.conn.transaction
  rw [← h.registry] at hreleased
  exact hreleased key transaction id hother howns

end Transaction.Ended

namespace OpenStore

/-- Whether the transactions of a store have ids of their own, which its counter has reached. -/
structure Apart (s : OpenStore) : Prop where
  distinct : ∀ i x j y, s.scope? i = some x → s.scope? j = some y →
    x.work.conn.transaction = y.work.conn.transaction → i = j
  begun : ∀ i x, s.scope? i = some x →
    x.work.conn.transaction ≤ s.store.counters.transactions

/-- Whether statements have one id each in all transactions of a store. -/
structure Identifies (s : OpenStore) : Prop extends Apart s where
  shared : s.shared.Identifies
  scopes : ∀ i x, s.scope? i = some x → x.work.Identifies

variable {s s' : OpenStore} {i : Nat} {x y : Scope}

theorem work_of_scope? (h : s.scope? i = some x) :
    x.work = { s.shared with conn := x.work.conn } := by
  obtain ⟨t, -, rfl⟩ := Option.map_eq_some_iff.mp h
  rfl

theorem work_with_conn {j : Nat} {z : Scope} (hx : s.scope? i = some x)
    (hz : s.scope? j = some z) :
    { z.work with conn := x.work.conn } = x.work := by
  obtain ⟨t, -, rfl⟩ := Option.map_eq_some_iff.mp hx
  obtain ⟨t', -, rfl⟩ := Option.map_eq_some_iff.mp hz
  rfl

theorem Apart.put (hs : s.Apart) (hx : s.scope? i = some x)
    (htransaction : y.work.conn.transaction = x.work.conn.transaction)
    (hcounter : y.work.store.counters.transactions = x.work.store.counters.transactions) :
    (s.put i y).Apart := by
  have before : ∀ {j z}, (s.put i y).scope? j = some z →
      ∃ z', s.scope? j = some z' ∧ z.work.conn.transaction = z'.work.conn.transaction := by
    intro j z hz
    rcases scope?_put_eq_some hx hz with ⟨rfl, rfl⟩ | ⟨-, z', hz', rfl⟩
    · exact ⟨x, hx, htransaction⟩
    · exact ⟨z', hz', rfl⟩
  constructor
  · intro j z k u hz hu hsame
    obtain ⟨z', hz', hz''⟩ := before hz
    obtain ⟨u', hu', hu''⟩ := before hu
    exact hs.distinct j z' k u' hz' hu' (hz''.symm.trans (hsame.trans hu''))
  · intro j z hz
    obtain ⟨z', hz', hz''⟩ := before hz
    show _ ≤ y.work.store.counters.transactions
    rw [hz'', hcounter, store_of_scope? hx]
    exact hs.begun j z' hz'

theorem Identifies.put (hs : s.Identifies) (hx : s.scope? i = some x)
    (hextends : Extends x.work y.work) (hy : y.work.Identifies)
    (htransaction : y.work.conn.transaction = x.work.conn.transaction)
    (hcounter : y.work.store.counters.transactions = x.work.store.counters.transactions) :
    (s.put i y).Identifies := by
  have hextends' : ∀ c, Extends { s.shared with conn := c } { y.work with conn := c } := by
    intro c
    have hc := hextends.of_conn c
    rw [work_of_scope? hx] at hc
    exact hc
  refine ⟨hs.toApart.put hx htransaction hcounter, ?_, ?_⟩
  · exact hs.shared.within (hextends' { transaction := 0 }) rfl
  · intro j z hz
    rcases scope?_put_eq_some hx hz with ⟨rfl, rfl⟩ | ⟨-, z', hz', rfl⟩
    · exact hy
    · have hz := hs.scopes j z' hz'
      rw [work_of_scope? hz'] at hz
      exact hz.within (hextends' z'.work.conn) rfl

/-- The ids stay in line when a transaction ends: others keep what they own. -/
theorem Identifies.put_ended (hs : s.Identifies) (hgood : s.Good) (hx : s.scope? i = some x)
    (h : Ended x y) (hagrees : x.work.Agrees y.work.database.committed)
    (hchanged : x.work.conn.writing = true ∨
      y.work.database.committed = x.work.database.committed) : (s.put i y).Identifies := by
  have hnumbers := (hs.scopes i x hx).numbers
  have hnumbers' := h.numbers hnumbers
  have hagrees' := h.agrees hnumbers hagrees
  have idle_identifies : ∀ c : Connection, c.pending = none →
      Workspace.Identifies { y.work with conn := c } := fun c hc =>
    .of_idle (hnumbers'.of_conn c) (hagrees'.of_conn c) hc
  have hcounter := congrArg Counters.transactions h.counters
  refine ⟨hs.toApart.put hx h.transaction hcounter, idle_identifies { transaction := 0 } rfl, ?_⟩
  intro j z hz
  rcases scope?_put_eq_some hx hz with ⟨rfl, rfl⟩ | ⟨hj, z', hz', rfl⟩
  · exact idle_identifies _ h.pending
  cases hpending : z'.work.conn.pending with
  | none => exact idle_identifies _ hpending
  | some t =>
      -- Then the other one writes, and this one has changed nothing.
      have hidle := hgood.others_idle hz' (by simp [Connection.writing, hpending]) hx hj.symm
      have hsame := committed_of_scope? hx hz' (hchanged.resolve_left (by simp [hidle]))
      have hview := Scope.view_within_of_eq hsame
      have hz := hs.scopes j z' hz'
      refine ⟨hnumbers'.of_conn _, hagrees'.of_conn _, ?_, ?_, ?_⟩
      · rw [hview]
        have hz := hz.view.of_conn x.work.conn
        rw [work_with_conn hx hz'] at hz
        exact (h.agrees hnumbers hz).of_conn _
      · rw [hview]
        show ∀ key id, y.work.database.committed.HasLive key id → _
        rw [hsame]
        exact hz.kept
      · rw [hview]
        show ∀ key id, _ → y.work.database.committed.HasLive key id ∨ _
        rw [hsame]
        intro key id hlive
        refine (hz.owned key id hlive).imp_right fun howns => ?_
        refine h.owns hnumbers (fun hsame' => hj (hs.distinct j z' i x hz' hx hsame')) ?_
        rw [← work_with_conn hx hz']
        exact howns

theorem Identifies.put_committed (hs : s.Identifies) (hgood : s.Good) (hx : s.scope? i = some x)
    (h : Committed x y) : (s.put i y).Identifies :=
  hs.put_ended hgood hx h.toEnded ((hs.scopes i x hx).view.congr h.statements) h.changed

theorem Identifies.put_abandoned (hs : s.Identifies) (hgood : s.Good) (hx : s.scope? i = some x)
    (h : Abandoned x y) : (s.put i y).Identifies := by
  refine hs.put_ended hgood hx h.toEnded ?_ (.inr h.committed)
  rw [h.committed]
  exact (hs.scopes i x hx).committed

theorem Apart.begin (hs : s.Apart) : s.begin.Apart := by
  have hcounter : s.begin.store.counters.transactions = s.store.counters.transactions + 1 := rfl
  constructor
  · intro j z k u hz hu hsame
    rcases scope?_begin hz with ⟨z', hz', rfl⟩ | ⟨rfl, rfl⟩ <;>
      rcases scope?_begin hu with ⟨u', hu', rfl⟩ | ⟨rfl, rfl⟩
    · exact hs.distinct j z' k u' hz' hu' hsame
    · have hle := hs.begun j z' hz'
      have hnew : z'.work.conn.transaction = s.store.counters.transactions + 1 := hsame
      omega
    · have hle := hs.begun k u' hu'
      have hnew : s.store.counters.transactions + 1 = u'.work.conn.transaction := hsame
      omega
    · rfl
  · intro j z hz
    rw [hcounter]
    rcases scope?_begin hz with ⟨z', hz', rfl⟩ | ⟨-, rfl⟩
    · have hle := hs.begun j z' hz'
      show z'.work.conn.transaction ≤ _
      omega
    · exact le_refl _

theorem Apart.withStore {store : Store} (hs : s.Apart)
    (hcounters : store.counters = s.store.counters) :
    (s.withStore store).Apart := by
  constructor
  · intro j z k u hz hu hsame
    obtain ⟨z', hz', rfl⟩ := of_scope?_withStore hz
    obtain ⟨u', hu', rfl⟩ := of_scope?_withStore hu
    exact hs.distinct j z' k u' hz' hu' hsame
  · intro j z hz
    obtain ⟨z', hz', rfl⟩ := of_scope?_withStore hz
    exact le_of_le_of_eq (hs.begun j z' hz') (congrArg Counters.transactions hcounters).symm

theorem Identifies.withCaches (hs : s.Identifies) (caches : Caches) :
    (s.withStore { s.store with caches }).Identifies := by
  have hextends : ∀ c, Extends { s.shared with conn := c }
      { (s.withStore { s.store with caches }).shared with conn := c } := fun c =>
    .of_registered (hs.shared.numbers.of_conn c) rfl (le_refl _) hs.shared.numbers.reliable
      (fun _ => rfl) fun _ _ _ h => h
  refine ⟨hs.toApart.withStore rfl, hs.shared.within (hextends { transaction := 0 }) rfl,
    fun j z hz => ?_⟩
  obtain ⟨z', hz', rfl⟩ := of_scope?_withStore hz
  have hz := hs.scopes j z' hz'
  rw [work_of_scope? hz'] at hz
  exact hz.within (hextends z'.work.conn) rfl

theorem Identifies.begin (hs : s.Identifies) : s.begin.Identifies := by
  have hextends : ∀ c, Extends { s.shared with conn := c } { s.begin.shared with conn := c } :=
    fun c => .of_registered (hs.shared.numbers.of_conn c) rfl (le_refl _)
      hs.shared.numbers.reliable (fun _ => rfl) fun _ _ _ h => h
  have hshared := hs.shared.within (hextends { transaction := 0 }) rfl
  refine ⟨hs.toApart.begin, hshared, fun j z hz => ?_⟩
  rcases scope?_begin hz with ⟨z', hz', rfl⟩ | ⟨-, rfl⟩
  · have hz := hs.scopes j z' hz'
    rw [work_of_scope? hz'] at hz
    exact hz.within (hextends z'.work.conn) rfl
  · exact .of_idle (hshared.numbers.of_conn _) (hshared.committed.of_conn _) rfl

theorem identifies_opened_of_reliable {config : Config}
    (hreliable : (Registry.make config).Reliable []) {tables : Tables} (hsound : tables.Sound)
    (labelStart : String) : (opened config tables [] labelStart).Identifies := by
  have none_registered : ∀ key,
      registered? (opened config tables [] labelStart).shared key = none :=
    fun key => Registry.lookup?_make config
  have none_begun : ∀ i x, (opened config tables [] labelStart).scope? i ≠ some x := by
    rintro i x ⟨⟩
  refine ⟨⟨fun i x _ _ hx => absurd hx (none_begun i x),
    fun i x hx => absurd hx (none_begun i x)⟩,
    .of_idle ⟨?_, ?_, ?_, ?_⟩ ⟨?_, ?_, ?_⟩ rfl, fun i x hx => absurd hx (none_begun i x)⟩
  · exact (good_opened config hsound [] labelStart).counter
  · exact hreliable
  · intro key id hid
    cases (none_registered key).symm.trans hid
  · intro key key' id hid
    cases (none_registered key).symm.trans hid
  · intro r hr
    exact le_trans (Tables.le_greatestId (List.mem_map_of_mem hr)) (le_max_right _ _)
  · intro r hr key hid
    cases (none_registered key).symm.trans hid
  · intro key id hlive id' hid
    cases (none_registered key).symm.trans hid

theorem identifies_opened {config : Config} (hvalid : config.validate = .ok ())
    (hroom : config.registry = .cache → config.cache.registry.maxEntries ≠ 0) {tables : Tables}
    (hsound : tables.Sound) (labelStart : String) :
    (opened config tables [] labelStart).Identifies :=
  identifies_opened_of_reliable (Registry.reliable_make fun hcache =>
    ⟨Config.internal_of_validate hvalid hcache, hroom hcache⟩) hsound labelStart

end OpenStore
end QuadStore
