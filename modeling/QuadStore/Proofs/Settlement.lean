import QuadStore.Proofs.StatementWork

namespace QuadStore

/-- Whether the rows of statements are as the indexes of their table allow: no two have the same
id, and no two live ones the same nodes. -/
structure Tables.Indexed (t : Tables) : Prop where
  ids : (t.statements.map StatementRow.id).Nodup
  keys : ∀ r ∈ t.statements, ∀ r' ∈ t.statements, r.live = true →
    r'.live = true → r.key = r'.key →
    r = r'

/-- Whether a statement has a context and all of its nodes are stored. -/
structure Statement.Seated (t : Statement) : Prop where
  context : ∃ c, t.context = some c ∧ 0 ≤ c.id
  subject : 0 ≤ t.subject.id
  predicate : 0 ≤ t.predicate.id
  object : 0 ≤ t.object.id

namespace Tables

/-- The live row that holds a statement. -/
def liveRow? (t : Tables) (key : StatementKey) : Option StatementRow :=
  t.statements.find? fun r => r.live && r.key = key

/-- One attempt after another to add the row of a statement, from an id and a counter to those
that it ends with, and whether the row has been added. -/
inductive Settles (t : Tables) (u : Statement) : Int → Int → Int → Int → Bool → Prop
  /-- The row is added. -/
  | added {id counter : Int}
    (h : (t.insertStatement? (.ofStatement { u with id })).isSome = true) :
      Settles t u id counter id counter true
  /-- There is a live row of the statement, whose id is taken over. -/
  | found {id counter : Int} {r : StatementRow}
      (h : t.insertStatement? (.ofStatement { u with id }) = none)
      (hlive : t.liveRow? u.key = some r) :
      Settles t u id counter r.id counter false
  /-- The id is that of another row, and the next one is tried. -/
  | retried {id counter id' counter' : Int} {added : Bool}
      (h : t.insertStatement? (.ofStatement { u with id }) = none)
      (hlive : t.liveRow? u.key = none)
      (hnext : Settles t u (Counters.nextTried counter)
        (Counters.nextTried counter) id' counter' added) :
      Settles t u id counter id' counter' added

variable {t : Tables} {u : Statement} {key : StatementKey} {id counter : Int}

theorem liveRow?_eq_none_iff : t.liveRow? key = none ↔ key ∉ t.members := by
  simp [liveRow?, members]

theorem liveRow?_eq_some {r : StatementRow} (h : t.liveRow? key = some r) :
    r ∈ t.statements ∧ r.live = true ∧ r.key = key := by
  have hspec := List.find?_some h
  simp only [Bool.and_eq_true, decide_eq_true_eq] at hspec
  exact ⟨List.mem_of_find?_eq_some h, hspec⟩

theorem insertStatement?_eq_none_iff : t.insertStatement? (.ofStatement { u with id }) = none ↔
    id ∈ t.statements.map StatementRow.id ∨ u.key ∈ t.members := by
  cases hinsert : t.insertStatement? (.ofStatement { u with id }) with
  | none =>
      refine iff_of_true rfl ?_
      by_contra hfree
      rw [not_or] at hfree
      exact hfree.1 (insertStatement?_eq_none hinsert fun r hr hlive hkey =>
        hfree.2 ⟨r, hr, hlive, hkey⟩)
  | some t' =>
      refine iff_of_false (by simp) ?_
      unfold insertStatement? at hinsert
      split at hinsert
      · cases hinsert
      · rename_i hfree
        rintro (hid | ⟨r, hr, hlive, hkey⟩)
        · obtain ⟨r, hr, rfl⟩ := List.mem_map.mp hid
          exact hfree (List.any_eq_true.mpr ⟨r, hr, by simp⟩)
        · have hslots : (StatementRow.ofStatement { u with id }).sameSlots r = true :=
            StatementRow.sameSlots_iff.mpr hkey.symm
          exact hfree (List.any_eq_true.mpr ⟨r, hr, by simp [hlive, hslots]⟩)

theorem settles_skipUsed (hnew : u.key ∉ t.members) {fuel : Nat}
    (hfree : Counters.skipUsed (t.statements.map StatementRow.id) fuel counter ∉
      t.statements.map StatementRow.id) :
    Settles t u (Counters.nextTried counter) (Counters.nextTried counter)
      (Counters.skipUsed (t.statements.map StatementRow.id) fuel counter)
      (Counters.skipUsed (t.statements.map StatementRow.id) fuel counter) true := by
  have adds : ∀ {id : Int}, id ∉ t.statements.map StatementRow.id →
      Settles t u id id id id true := by
    intro id hid
    refine .added ?_
    rw [Option.isSome_iff_ne_none, ne_eq, insertStatement?_eq_none_iff, not_or]
    exact ⟨hid, hnew⟩
  induction fuel generalizing counter with
  | zero => exact adds hfree
  | succ fuel ih =>
      rw [Counters.skipUsed] at hfree ⊢
      split at hfree
      · rename_i hused
        rw [if_pos hused]
        exact .retried (insertStatement?_eq_none_iff.mpr (.inl hused))
          (liveRow?_eq_none_iff.mpr hnew) (ih hfree)
      · rename_i hunused
        rw [if_neg hunused]
        exact adds hunused

theorem Settles.unique {id₁ counter₁ id₂ counter₂ : Int} {added₁ added₂ : Bool}
    (h : t.Settles u id counter id₁ counter₁ added₁)
    (h' : t.Settles u id counter id₂ counter₂ added₂) :
    id₁ = id₂ ∧ counter₁ = counter₂ ∧ added₁ = added₂ := by
  -- At each attempt the rows of the table leave only one way on.
  induction h with
  | added h =>
      cases h' with
      | added => exact ⟨rfl, rfl, rfl⟩
      | found hfull => simp [hfull] at h
      | retried hfull => simp [hfull] at h
  | found hfull hlive =>
      cases h' with
      | added h => simp [hfull] at h
      | found _ hlive' =>
          obtain rfl := Option.some.inj (hlive.symm.trans hlive')
          exact ⟨rfl, rfl, rfl⟩
      | retried _ hnone => cases hlive.symm.trans hnone
  | retried hfull hnone _ ih =>
      cases h' with
      | added h => simp [hfull] at h
      | found _ hlive => cases hnone.symm.trans hlive
      | retried _ _ hnext => exact ih hnext

theorem Settles.of_withId {first id' counter' : Int} {added : Bool}
    (h : t.Settles { u with id := first } id counter id' counter' added) :
    t.Settles u id counter id' counter' added := by
  induction h with
  | added h => exact .added h
  | found hfull hlive => exact .found hfull hlive
  | retried hfull hnone _ ih => exact .retried hfull hnone ih

theorem Indexed.filter_eq_singleton (h : t.Indexed) {r : StatementRow} (hr : r ∈ t.statements)
    (hlive : r.live = true) :
    (t.statements.filter fun r' => r'.live && r'.key = r.key) = [r] := by
  refine List.perm_singleton.mp ((List.perm_ext_iff_of_nodup (h.ids.of_map.filter _)
    (List.nodup_singleton r)).mpr fun r' => ?_)
  rw [List.mem_filter, List.mem_singleton, Bool.and_eq_true, decide_eq_true_iff]
  constructor
  · rintro ⟨hr', hlive', hkey⟩
    exact h.keys r' hr' r hr hlive' hlive hkey
  · rintro rfl
    exact ⟨hr, hlive, rfl⟩

theorem filter_withStatement {row : StatementRow} (hlive : row.live = true)
    (hnew : row.key ∉ t.members) :
    ((t.withStatement row).statements.filter fun r => r.live && r.key = row.key) = [row] := by
  have hnone : (t.statements.filter fun r => r.live && r.key = row.key) = [] := by
    rw [List.filter_eq_nil_iff]
    intro r hr hmatches
    simp only [Bool.and_eq_true, decide_eq_true_eq] at hmatches
    exact hnew ⟨r, hr, hmatches⟩
  rw [withStatement, List.filter_append, hnone]
  simp [hlive]

end Tables

namespace Action

variable {w w' : Workspace} {t : Statement}

theorem insertRow_settled (hnew : t.key ∉ w.view.members) :
    ∃ id counter, insertRow t w = .ok { t with id } (withRow w counter { t with id }) ∧
      w.view.Settles t t.id w.store.counters.statements id counter true := by
  unfold insertRow
  cases hinsert : w.view.insertStatement? (.ofStatement t) with
  | some tables =>
      obtain ⟨rfl, -⟩ := Tables.insertStatement?_eq_some hinsert
      refine ⟨t.id, w.store.counters.statements, ?_, .added (by rw [hinsert]; rfl)⟩
      rw [bind_of_ok (view_eq_ok_iff.mpr ⟨hinsert, rfl⟩)]
      rfl
  | none =>
      let used := w.view.statements.map StatementRow.id
      let counter := Counters.skipUsed used used.length w.store.counters.statements
      have hsettles := Tables.settles_skipUsed hnew
        (Counters.skipUsed_notMem used w.store.counters.statements)
      refine ⟨counter, counter, ?_,
        .retried hinsert (Tables.liveRow?_eq_none_iff.mpr hnew) hsettles⟩
      rw [bind_of_ok (view_eq_ok_iff.mpr ⟨hinsert, rfl⟩)]
      rfl

theorem checkStorable_of_seated (h : t.Seated) : checkStorable t w = .ok () w := by
  obtain ⟨⟨c, hcontext, hc⟩, hs, hp, ho⟩ := h
  unfold checkStorable
  rw [hcontext]
  dsimp only
  rw [if_neg (by simp only [Bool.or_eq_true, decide_eq_true_eq]; omega)]
  rfl

theorem storeIdentified_of_new {w₁ : Workspace} (hbegin : beginWrite w = .ok () w₁)
    (hnew : t.key ∉ w.view.members) :
    ∃ id counter t', w.view.Settles t t.id w.store.counters.statements id counter true ∧
      t'.id = id ∧ t'.key = t.key ∧
        storeIdentified t w = .ok (t', true) (withAdded w₁ counter t') := by
  have hview := (beginWrite_eq_ok hbegin).2
  rw [← hview] at hnew ⊢
  rw [← store_of_beginWrite hbegin]
  have hnone : liveStatementId t.key w₁ = .ok none w₁ := by
    refine view_eq_ok_iff.mpr ⟨?_, rfl⟩
    rw [← Tables.liveRow?, Tables.liveRow?_eq_none_iff.mpr hnew]
    rfl
  obtain ⟨id, counter, hinsert, hsettles⟩ := insertRow_settled hnew
  refine ⟨id, counter, { t with id, deleted := false, deletionTimed := false },
    hsettles, rfl, rfl, ?_⟩
  unfold storeIdentified
  rw [bind_of_ok hbegin, bind_of_ok hnone]
  dsimp only
  rw [bind_of_ok hinsert]
  rfl

theorem storeIdentified_of_live {w₁ : Workspace}
    (hbegin : beginWrite w = .ok () w₁) {r : StatementRow}
    (hlive : w.view.liveRow? t.key = some r) :
    (∃ t' w', Reads w₁ w' ∧ t'.id = r.id ∧ t'.key = t.key ∧
        storeIdentified t w = .ok (t', false) w') ∨
      ∃ e w', Reads w₁ w' ∧ loadStatement r.id w₁ = .error e w' ∧
      storeIdentified t w = .error e w' := by
  have hsome : liveStatementId t.key w₁ = .ok (some r.id) w₁ := by
    refine view_eq_ok_iff.mpr ⟨?_, rfl⟩
    rw [← Tables.liveRow?, (beginWrite_eq_ok hbegin).2, hlive]
    rfl
  have hreads := loadStatement_reads r.id
  unfold storeIdentified
  rw [bind_of_ok hbegin, bind_of_ok hsome]
  dsimp only
  cases hload : loadStatement r.id w₁ with
  | error e w' => exact .inr ⟨e, w', hreads.error hload, rfl, bind_of_error hload⟩
  | ok stored w' =>
      let marks := (stored.map Statement.inferred).getD t.inferred
      refine .inl ⟨{ t with id := r.id, inferred := marks, deleted := false },
        w', hreads.ok hload, rfl, rfl, ?_⟩
      rw [bind_of_ok hload]
      cases stored <;> rfl

/-- What storing a statement leaves when it succeeds. -/
structure Settled (w w' : Workspace) (t t' : Statement)
    (id counter : Int) (added : Bool) : Prop where
  key : t'.key = t.key
  id : t'.id = id
  counter : w'.store.counters.statements = counter
  /-- Of all live rows one holds the statement, and that one has its id. -/
  live : (w'.view.statements.filter fun r => r.live &&
    r.key = t.key).map StatementRow.id = [t'.id]
  /-- The row of the statement is all that may have been added to the tables. -/
  view : w'.view = { w.view with
    statements := w.view.statements ++ if added then [.ofStatement t'] else [] }

/-- How storing a statement ends that has an id. -/
structure SettledAt (w : Workspace) (t : Statement) (id counter : Int) (added : Bool)
    (result : EStateM.Result StoreError Workspace (Statement × Bool)) : Prop where
  ok : ∀ t' answer w', result = .ok (t', answer) w' → answer = added ∧
    Settled w w' t t' id counter added
  /-- It fails only where the row that it has found cannot be loaded. -/
  error : ∀ e w', result = .error e w' → added = false ∧ w'.view = w.view ∧
    ∃ w₁, w₁.view = w.view ∧ loadStatement id w₁ = .error e w'

theorem storeIdentified_settled (hindexed : w.view.Indexed)
    (hlock : w.conn.writing = true ∨ w.database.locked = false) :
    ∃ id counter added, w.view.Settles t t.id w.store.counters.statements id counter added ∧
      (added = true ↔ t.key ∉ w.view.members) ∧
        SettledAt w t id counter added (storeIdentified t w) := by
  obtain ⟨w₁, hbegin⟩ := beginWrite_of_free hlock.symm
  have hview₁ : w₁.view = w.view := (beginWrite_eq_ok hbegin).2
  cases hlive : w.view.liveRow? t.key with
  | none =>
      have hnew := Tables.liveRow?_eq_none_iff.mp hlive
      obtain ⟨id, counter, t', hsettles, hid, hkey, hok⟩ := storeIdentified_of_new hbegin hnew
      refine ⟨id, counter, true, hsettles, iff_of_true rfl hnew,
        fun u answer w' h => ?_, fun e w' h => ?_⟩
      · rw [hok] at h
        cases h
        have hview' : (withAdded w₁ counter t').view =
            w.view.withStatement (.ofStatement t') := by
          rw [← hview₁]
          rfl
        refine ⟨rfl, hkey, hid, rfl, ?_, hview'⟩
        have hkey' : (StatementRow.ofStatement t').key = t.key := hkey
        rw [hview', ← hkey', Tables.filter_withStatement rfl (hkey' ▸ hnew)]
        rfl
      · rw [hok] at h
        cases h
  | some r =>
      obtain ⟨hr, hrlive, hkey⟩ := Tables.liveRow?_eq_some hlive
      have hmem : t.key ∈ w.view.members := ⟨r, hr, hrlive, hkey⟩
      refine ⟨r.id, _, false, .found (Tables.insertStatement?_eq_none_iff.mpr (.inr hmem)) hlive,
        by simp [hmem], ?_⟩
      rcases storeIdentified_of_live hbegin hlive with
        ⟨t', w₂, hreads, hid, hkey', hok⟩ | ⟨e', w₂, hreads, hload, herror⟩
      · refine ⟨fun u answer w' h => ?_, fun e w' h => ?_⟩ <;> rw [hok] at h <;> cases h
        have hview' : w₂.view = w.view := hreads.view_eq.trans hview₁
        have hcounter : w₂.store.counters.statements = w.store.counters.statements := by
          rw [hreads.silent.statementCounter_eq, store_of_beginWrite hbegin]
        refine ⟨rfl, hkey', hid, hcounter, ?_, ?_⟩
        · rw [hview', ← hkey, hindexed.filter_eq_singleton hr hrlive, hid]
          rfl
        · simp [hview']
      · refine ⟨fun u answer w' h => ?_, fun e w' h => ?_⟩ <;> rw [herror] at h <;> cases h
        exact ⟨rfl, hreads.view_eq.trans hview₁, w₁, hview₁, hload⟩

end Action

/-- The id that storing a statement tries first, which is the next one of the counter for a
statement without an id, and what the counter is then. -/
def Statement.firstTried (t : Statement) (counter : Int) : Int × Int :=
  if t.id < 0 then (counter + 1, counter + 1) else (t.id, counter)

namespace Action

variable {w w' : Workspace} {t : Statement}

theorem identify_of_seated (h : t.Seated) (w : Workspace) :
    identify t w = .ok { t with id := (t.firstTried w.store.counters.statements).1 }
      { w with store := { w.store with
        counters := w.store.counters.set
          (t.firstTried w.store.counters.statements).2 .statements } } := by
  unfold identify Statement.firstTried
  rw [bind_of_ok (checkStorable_of_seated h)]
  split <;> rfl

/-- Storing a statement comes to one end, whatever its id and wherever the counter stands: its row
is added if no live row holds the statement, and else it takes over the id of the live row. It can
only fail where that row cannot be loaded. -/
theorem storeStatement_settles (hindexed : w.view.Indexed) (hseated : t.Seated)
    (hlock : w.conn.writing = true ∨ w.database.locked = false) :
    let first := t.firstTried w.store.counters.statements
    ∃ id counter added, w.view.Settles t first.1 first.2 id counter added ∧
      (∀ id' counter' added', w.view.Settles t first.1 first.2 id' counter' added' →
        id' = id ∧ counter' = counter ∧ added' = added) ∧
        (added = true ↔ t.key ∉ w.view.members) ∧
          SettledAt w t id counter added (storeStatement t w) := by
  intro first
  have hidentify := identify_of_seated hseated w
  change identify t w = .ok { t with id := first.1 } { w with store := { w.store with
    counters := w.store.counters.set first.2 .statements } } at hidentify
  generalize first = first at hidentify ⊢
  obtain ⟨id₁, counter₁⟩ := first
  -- What is stored now is the statement with the first id, and only the counter has moved.
  obtain ⟨id, counter, added, hsettles, hadded, hend⟩ := storeIdentified_settled (w := { w with
    store := { w.store with counters := w.store.counters.set counter₁ .statements } })
      (t := { t with id := id₁ }) hindexed hlock
  refine ⟨id, counter, added, hsettles.of_withId,
    fun _ _ _ h => h.unique hsettles.of_withId, hadded, ?_⟩
  have hstore : storeStatement t w = storeIdentified { t with id := id₁ } { w with
      store := { w.store with counters := w.store.counters.set counter₁ .statements } } :=
    bind_of_ok hidentify
  rw [hstore]
  exact ⟨fun t' answer w' h => (hend.ok t' answer w' h).imp_right fun hsettled =>
    ⟨hsettled.key, hsettled.id, hsettled.counter, hsettled.live, hsettled.view⟩, hend.error⟩

/-- The ids from one to three are in use, one by a row that is deleted, and the counter has not
reached them. A statement that comes with the second of them gets the fourth. -/
theorem storeStatement_settles_taken :
    let a : Node := ⟨7, .uri "urn:a"⟩
    let row (id subject deleted : Int) : StatementRow :=
      ⟨id, subject, 7, 7, 7, none, 0, deleted, .clock, none⟩
    let tables : Tables := { statements := [row 1 7 1, row 2 8 0, row 3 9 0] }
    let w : Workspace :=
      ⟨{ committed := tables }, [], { Store.make {} {} "w" with counters := ⟨0, 0, 0, 0⟩ },
      { transaction := 1 }⟩
    let t : Statement := ⟨2, a, a, a, some a, none, false, false, false, false⟩
    w.view.Indexed ∧ t.Seated ∧ w.database.locked = false ∧
      ∃ t' w', storeStatement t w = .ok (t', true) w' ∧ Settled w w' t t' 4 4 true := by
  intro a row tables w t
  have hindexed : w.view.Indexed := ⟨by decide, by decide⟩
  have hseated : t.Seated := ⟨⟨a, rfl, by decide⟩, by decide, by decide, by decide⟩
  obtain ⟨id, counter, added, -, -, -, hend⟩ := storeStatement_settles hindexed hseated (.inr rfl)
  have hstore : storeStatement t w = .ok ({ t with id := 4 }, true) _ := rfl
  obtain ⟨rfl, hsettled⟩ := hend.ok _ _ _ hstore
  obtain rfl : 4 = id := hsettled.id
  obtain rfl : 4 = counter := hsettled.counter
  exact ⟨hindexed, hseated, rfl, _, _, hstore, hsettled⟩

end Action
end QuadStore
