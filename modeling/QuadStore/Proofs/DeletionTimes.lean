import QuadStore.Proofs.HeldStatements

namespace QuadStore

/-- Whether a row has a time of deletion just when it is marked as deleted. -/
def StatementRow.Timed (r : StatementRow) : Prop :=
  r.deletedAt.isSome = !r.live

/-- Whether a time of deletion is known just when the statement is marked as deleted. -/
def Statement.Timed (t : Statement) : Prop :=
  t.deletionTimed = t.deleted

/-- Whether rows and copies that a workspace holds are timed. -/
abbrev Workspace.Timed (w : Workspace) : Prop :=
  w.Marked StatementRow.Timed Statement.Timed Statement.Timed

/-- Whether all rows at a site, all cached copies and all that await publication are timed. -/
abbrev Site.Timed (s : Site) : Prop :=
  s.Marked StatementRow.Timed Statement.Timed Statement.Timed

/-- Whether rows and copies that are timed go on to be. -/
abbrev KeepsTimed : Workspace → Workspace → Prop :=
  KeepsMarks StatementRow.Timed Statement.Timed Statement.Timed

instance : Marking StatementRow.Timed Statement.Timed Statement.Timed where
  read hr ht := by
    have htimed : Statement.Timed _ := ht.timed.trans (hr.trans ht.deleted.symm)
    exact ⟨htimed, htimed⟩
  delete _ := rfl

namespace Action

variable {w w' : Workspace} {t : Statement}

instance : AllowsAdding KeepsTimed where
  storeIdentified t w := by
    cases h : storeIdentified t w with
    | ok result w' =>
        obtain ⟨t', added⟩ := result
        refine KeepsMarks.storeIdentified rfl (fun hadded => ?_) h
        obtain ⟨hdeleted, htimed⟩ := marks_of_storeIdentified h
        rw [Statement.Timed, hdeleted, htimed, hadded]
        rfl
    | error e w' => exact KeepsMarks.storeIdentified_failing t w e w' h

theorem timed_of_identifyShared {made : Statement} (hw : w.Timed) (hmade : made.Timed)
    (h : identifyShared made w = .ok t w') : t.Timed := by
  rcases identifyShared_cases h with
    ⟨id, -, rfl, -⟩ | ⟨-, ⟨id, stored, -, hload, rfl⟩ | ⟨-, id, -, rfl, -⟩⟩
  · exact hmade
  · cases stored with
    | none => exact hmade
    | some found => exact loadStatement_marks hw hload found rfl
  · exact hmade

theorem timed_of_createStatement {subject predicate object : Node}
    {context : Option Node} (hw : w.Timed)
    (h : createStatement subject predicate object context w = .ok t w') : t.Timed := by
  obtain ⟨_, _, _, _, made, w₁, hkeeps, hmade, hidentify⟩ :=
    createStatement_identifies (R := KeepsTimed) convert_keeps createUri_keeps h
  refine timed_of_identifyShared (hkeeps hw) ?_ hidentify
  rw [make_eq_ok hmade]
  rfl

end Action

/-- The places of the statements that are spoiled after something, from those before. A statement
that is marked as deleted is spoiled when storing it finds a live row, and with it every copy. -/
def Note.spoil (spoiled : Set Nat) : Note → Set Nat
  | .other => spoiled
  | .copied k place => {j | j ∈ spoiled ∨ j = place ∧ k ∈ spoiled}
  | .written k .store t (.ok false) => {j | j ∈ spoiled ∨ j = k ∧ t.deleted = true}
  | .written k _ _ (.ok true) => {j | j ∈ spoiled ∧ j ≠ k}
  | .written _ _ _ _ => spoiled

/-- The places of the statements that have been spoiled. -/
def Note.spoiled (log : List Note) : Set Nat :=
  log.foldl Note.spoil ∅

theorem Note.spoiled_append_singleton (log : List Note) (note : Note) :
    Note.spoiled (log ++ [note]) = note.spoil (Note.spoiled log) := by
  rw [Note.spoiled, List.foldl_append]
  rfl

/-- Whether a time of deletion is known of a statement that is marked as deleted, and of no other
one unless it is spoiled. -/
structure Statement.TimedUnless (t : Statement) (spoiled : Prop) : Prop where
  deleted : t.deleted = true → t.deletionTimed = true
  timed : t.Timed ↔ ¬spoiled

theorem Statement.Timed.timedUnless {t : Statement} (h : t.Timed)
    {spoiled : Prop} (hnot : ¬spoiled) :
    t.TimedUnless spoiled :=
  ⟨fun hdeleted => h.trans hdeleted, iff_of_true h hnot⟩

theorem Statement.TimedUnless.of_alike {t t' : Statement}
    {spoiled : Prop} (h : t.TimedUnless spoiled)
    (halike : Writing.Alike t t') : t'.TimedUnless spoiled := by
  refine ⟨fun hdeleted => ?_, ?_⟩
  · rw [halike.deleted] at hdeleted
    rw [halike.timed]
    exact h.deleted hdeleted
  · rw [Statement.Timed, halike.timed, halike.deleted]
    exact h.timed

/-- Whether a site is timed, and so are the statements that someone holds
but those at some places. -/
structure Holding.TimedBut (b : Holding) (spoiled : Set Nat) : Prop where
  site : b.site.Timed
  held : ∀ k (t : Statement), b.held[k]? = some t → t.TimedUnless (k ∈ spoiled)
  bounded : ∀ k ∈ spoiled, k < b.held.length

namespace Holding.TimedBut

variable {b : Holding} {spoiled : Set Nat}

theorem append (h : b.TimedBut spoiled) {site : Site}
    (hsite : site.Timed) {found : List Statement}
    (hfound : ∀ t ∈ found, t.Timed) : TimedBut ⟨site, b.held ++ found⟩ spoiled := by
  refine ⟨hsite, fun k t hk => ?_, fun k hk => ?_⟩
  · rcases Nat.lt_or_ge k b.held.length with hlt | hge
    · rw [List.getElem?_append_left hlt] at hk
      exact h.held k t hk
    · rw [List.getElem?_append_right hge] at hk
      exact (hfound t (List.mem_of_getElem? hk)).timedUnless fun hspoiled =>
        absurd (h.bounded k hspoiled) (Nat.not_lt_of_ge hge)
  · rw [List.length_append]
    exact Nat.lt_add_right _ (h.bounded k hk)

theorem withSite (h : b.TimedBut spoiled) {site : Site} (hsite : site.Timed) :
    TimedBut { b with site } spoiled :=
  ⟨hsite, h.held, h.bounded⟩

theorem gain (h : b.TimedBut spoiled) {find : SiteAction (Option Statement)}
    (hsite : (finalState (find b.site)).Timed)
    (hfound : ∀ found site, find b.site = .ok found site → ∀ t ∈ found, t.Timed) :
    (b.gain find).TimedBut spoiled := by
  refine h.append hsite fun t ht => ?_
  cases hfind : find b.site with
  | error e site =>
      rw [hfind] at ht
      cases ht
  | ok found site =>
      rw [hfind] at ht
      exact hfound found site hfind t (Option.mem_toList.mp ht)

theorem copy (h : b.TimedBut spoiled) {k : Nat} {t : Statement} (hk : b.held[k]? = some t) :
    TimedBut { b with held := b.held ++ [t] } ((Note.copied k b.held.length).spoil spoiled) := by
  refine ⟨h.site, fun j u hj => ?_, fun j hj => ?_⟩
  · rcases Nat.lt_or_ge j b.held.length with hlt | hge
    · rw [List.getElem?_append_left hlt] at hj
      have hsame : j ∈ (Note.copied k b.held.length).spoil spoiled ↔ j ∈ spoiled :=
        or_iff_left fun hplace => absurd hplace.1 hlt.ne
      rw [hsame]
      exact h.held j u hj
    · rw [List.getElem?_append_right hge, List.getElem?_singleton] at hj
      split at hj
      · rename_i hzero
        obtain rfl := Option.some.inj hj
        obtain rfl : j = b.held.length := Nat.le_antisymm (Nat.sub_eq_zero_iff_le.mp hzero) hge
        have hsame : b.held.length ∈ (Note.copied k b.held.length).spoil spoiled ↔ k ∈ spoiled :=
          (or_iff_right fun hlast => absurd (h.bounded _ hlast) (lt_irrefl _)).trans
            (and_iff_right rfl)
        rw [hsame]
        exact h.held k t hk
      · cases hj
  · rw [List.length_append, List.length_singleton]
    rcases hj with hj | ⟨rfl, -⟩
    · exact Nat.lt_succ_of_lt (h.bounded j hj)
    · exact Nat.lt_succ_self _

end Holding.TimedBut

namespace Note

variable {spoiled : Set Nat} {k j : Nat} {how : Writing} {t t' : Statement}
  {answer : Except StoreError Bool}

theorem mem_spoil_written_of_ne (hj : j ≠ k) :
    j ∈ (written k how t answer).spoil spoiled ↔ j ∈ spoiled := by
  cases how <;> rcases answer with e | (_ | _) <;> simp [spoil, hj]

theorem timedUnless_mark (h : t.TimedUnless (k ∈ spoiled)) :
    (how.mark t answer).TimedUnless (k ∈ (written k how t answer).spoil spoiled) := by
  have hkept : ∀ {u : Statement}, u.Timed →
      u.TimedUnless (k ∈ (written k how t (.ok true)).spoil spoiled) :=
    fun hu => hu.timedUnless (by cases how <;> simp [spoil])
  cases how with
  | store =>
      rcases answer with e | (_ | _)
      · exact h
      · -- The time of deletion stays, and tells now that the statement was deleted, or has been
        -- spoiled before.
        refine ⟨fun hnot => (nomatch hnot), ?_⟩
        obtain ⟨hdeleted, htimed⟩ := h
        show t.deletionTimed = false ↔ ¬(k ∈ spoiled ∨ k = k ∧ t.deleted = true)
        rw [Statement.Timed] at htimed
        cases hmark : t.deleted with
        | false =>
            rw [hmark] at htimed
            simpa using htimed
        | true => simp [hdeleted hmark]
      · exact hkept rfl
  | delete | remove =>
      rcases answer with e | (_ | _)
      · exact h
      · exact h
      · exact hkept rfl

end Note

namespace Holding

variable {b : Holding} {spoiled : Set Nat}

theorem TimedBut.write (h : b.TimedBut spoiled) {name : String}
    {how : Writing} {k : Nat} {t t' : Statement}
    (hk : b.held[k]? = some t) {answer : Except StoreError Bool} {site : Site}
    (hask : SiteAction.ask name (.work (how.op.on t)) b.site = .ok (answer, t') site) :
    TimedBut ⟨site, b.held.set k t'⟩ ((Note.written k how t answer).spoil spoiled) := by
  have hwritten : t'.TimedUnless (k ∈ (Note.written k how t answer).spoil spoiled) := by
    obtain ⟨w, w', -, hon⟩ := h.site.exists_answer hask
    cases hon
    exact (Note.timedUnless_mark (h.held k t hk)).of_alike (how.mark_op t w)
  have hsite : site.Timed :=
    (KeepsSiteMarks.ask name (Request.keeps_work (InPlace.Keeps.on how.keeps_op t))).ok
      hask h.site
  refine ⟨hsite, fun j u hj => ?_, fun j hj => ?_⟩
  · by_cases hjk : j = k
    · subst hjk
      rw [List.getElem?_set_self (List.getElem?_eq_some_iff.mp hk).1] at hj
      rwa [← Option.some.inj hj]
    · rw [List.getElem?_set_ne (Ne.symm hjk)] at hj
      rw [Note.mem_spoil_written_of_ne hjk]
      exact h.held j u hj
  · rw [List.length_set]
    by_cases hjk : j = k
    · exact hjk ▸ (List.getElem?_eq_some_iff.mp hk).1
    · exact h.bounded j ((Note.mem_spoil_written_of_ne hjk).mp hj)

theorem TimedBut.handle (h : b.TimedBut spoiled) (what : Handling) :
    (b.handle what).2.TimedBut ((b.handle what).1.spoil spoiled) := by
  cases what with
  | make subject predicate object context creator =>
      cases hmake : Statement.make subject predicate object context with
      | error fault =>
          simp only [Holding.handle, hmake]
          exact h
      | ok t =>
          simp only [Holding.handle, hmake]
          refine h.append h.site (List.forall_mem_singleton.mpr ?_)
          rw [Action.make_eq_ok hmake]
          rfl
  | copy k =>
      cases hk : b.held[k]? with
      | none =>
          simp only [Holding.handle, hk]
          exact h
      | some t =>
          simp only [Holding.handle, hk]
          exact h.copy hk
  | load name id =>
      refine h.gain (KeepsSiteMarks.ask name
        (Request.keeps_work (AllowsReading.loadStatement id)) _ h.site)
        fun found site hask t ht => ?_
      obtain ⟨w, w', hw, hload⟩ := h.site.exists_answer hask
      exact Action.loadStatement_marks hw hload t ht
  | create name subject predicate object context =>
      have hkeeps : Keeps (KeepsSiteMarks StatementRow.Timed Statement.Timed Statement.Timed)
          (SiteAction.ask name
            (.work (Action.createStatement subject predicate object context))) :=
        KeepsSiteMarks.ask name (Request.keeps_work (Action.createStatement_keeps _ _ _ _))
      refine h.gain ?_ fun found site hfound t ht => ?_
      · rw [map_eq_pure_bind]
        exact hkeeps.bind (fun _ => .pure _) _ h.site
      · rw [map_eq_pure_bind] at hfound
        obtain ⟨u, site', hask, hu⟩ := bind_eq_ok_iff.mp hfound
        obtain ⟨rfl, -⟩ := pure_eq_ok_iff.mp hu
        obtain rfl := Option.some.inj ht
        obtain ⟨w, w', hw, hcreate⟩ := h.site.exists_answer hask
        exact Action.timed_of_createStatement hw hcreate
  | write name how k =>
      cases hk : b.held[k]? with
      | none =>
          simp only [Holding.handle, hk]
          exact h
      | some t =>
          have hkeeps := KeepsSiteMarks.ask name
            (Request.keeps_work (InPlace.Keeps.on (R := KeepsTimed) how.keeps_op t))
          cases hask : SiteAction.ask name (.work (how.op.on t)) b.site with
          | ok result site =>
              simp only [Holding.handle, hk, hask]
              exact h.write hk hask
          | error e site =>
              simp only [Holding.handle, hk, hask]
              exact h.withSite (hkeeps.error hask h.site)
  | other e => exact h.withSite (e.keeps_marks (fun _ ht => ht) _ h.site)

theorem TimedBut.after (h : b.TimedBut ∅) (handlings : List Handling) :
    (b.after handlings).2.TimedBut (Note.spoiled (b.after handlings).1) := by
  -- The induction is on what is done last.
  induction handlings using List.reverseRecOn with
  | nil => exact h
  | append_singleton rest what ih =>
      rw [after_append_singleton, Note.spoiled_append_singleton]
      exact ih.handle what

/-- Whatever is done with statements by someone who holds none at first, at a site that is timed:
after all of it every row there is timed, every held statement has a time of deletion if it is
marked as deleted, and it is timed just when it is not spoiled, that is if since it was last
added or deleted neither it nor the one that it is a copy of has been found stored already while
it was marked as deleted. -/
theorem timed_unless_spoiled {site : Site} (hsite : site.Timed) (handlings : List Handling) :
    let done := (Holding.mk site []).after handlings
    done.2.site.Timed ∧ ∀ (k : Nat) (t : Statement), done.2.held[k]? = some t →
      (t.deleted = true → t.deletionTimed = true) ∧ (t.Timed ↔ k ∉ Note.spoiled done.1) := by
  have hempty : TimedBut ⟨site, []⟩ ∅ :=
    ⟨hsite, fun k t hk => (nomatch hk), fun k hk => False.elim hk⟩
  have hafter := hempty.after handlings
  exact ⟨hafter.site, fun k t hk => ⟨(hafter.held k t hk).deleted, (hafter.held k t hk).timed⟩⟩

/-- A site with one store in which a resource is stored, and a connection
to it, and no statement. -/
def connected : Holding :=
  let tables : Tables := { nodes := [.ofNode 1 (.uri "urn:a")] }
  { site := {
      databases := [(Text.pathParts "kiwi.db", { committed := tables })]
      stores := [Store.make {} tables "w"]
      handles := [("c", ⟨0, .connection { transaction := 1 }⟩)] } }

/-- The workspace of that connection. -/
def connectedWork : Workspace :=
  let tables : Tables := { nodes := [.ofNode 1 (.uri "urn:a")] }
  ⟨{ committed := tables }, [], Store.make {} tables "w", { transaction := 1 }⟩

theorem connects_connected : connected.site.Connects "c" 0 connectedWork := by
  refine ⟨rfl, rfl, ?_, rfl⟩
  show Option.getD (Dict.get? [(Text.pathParts "kiwi.db", connectedWork.database)]
    (Text.pathParts "kiwi.db")) {} = _
  rw [Dict.get?, if_pos rfl]
  rfl

theorem timed_connected : connected.site.Timed := by
  refine ⟨?_, ?_, ?_⟩ <;> rw [connected] <;> refine List.forall_mem_singleton.mpr ?_
  · exact List.forall_mem_nil _
  · exact Caches.All.make _
  · exact Connection.marked_of_new _

/-- A statement is made, stored and deleted. -/
def deleteStored : List Handling :=
  let a : Node := ⟨1, .uri "urn:a"⟩
  [.make a a a (some a) none, .write "c" .store 0, .write "c" .delete 0]

/-- After that it is made and stored again, and the copy that is marked as
deleted is stored as well. -/
def storeDeleted : List Handling :=
  let a : Node := ⟨1, .uri "urn:a"⟩
  deleteStored ++ [.make a a a (some a) none, .write "c" .store 1, .write "c" .store 0]

theorem timed_unless_spoiled_of_deleteStored :
    connected.site.Timed ∧ ∃ t, (connected.after deleteStored).2.held[0]? = some t ∧
      t.deleted = true ∧ t.deletionTimed = true := by
  have hfollow : (deleteStored.foldl Handling.follow (connectedWork, [])).2[0]?.map
      Statement.deleted =
      some true := by decide +kernel
  have hthrough : ∀ what ∈ deleteStored, what.Through "c" := by
    simp [deleteStored, Handling.Through]
  have hheld : _ = (List.foldl Handling.follow (connectedWork, []) _).2 :=
    (follow_after connects_connected hthrough).2
  rw [← hheld] at hfollow
  obtain ⟨t, ht, hdeleted⟩ := Option.map_eq_some_iff.mp hfollow
  obtain ⟨-, htimed⟩ := timed_unless_spoiled timed_connected deleteStored
  exact ⟨timed_connected, t, ht, hdeleted, (htimed 0 t ht).1 hdeleted⟩

/-- The copy that was marked as deleted is stored when there is a live row of its statement: it is
not marked any more, and keeps its time of deletion. -/
theorem time_left_by_storing :
    ∃ t, (connected.after storeDeleted).2.held[0]? = some t ∧ t.deleted = false ∧
    t.deletionTimed = true := by
  have hfollow : (storeDeleted.foldl Handling.follow (connectedWork, [])).2[0]?.map
      (fun t => (t.deleted, t.deletionTimed)) = some (false, true) := by decide +kernel
  have hthrough : ∀ what ∈ storeDeleted, what.Through "c" := by
    simp [storeDeleted, deleteStored, Handling.Through]
  have hheld : _ = (List.foldl Handling.follow (connectedWork, []) _).2 :=
    (follow_after connects_connected hthrough).2
  rw [← hheld] at hfollow
  obtain ⟨t, ht, hmarks⟩ := Option.map_eq_some_iff.mp hfollow
  exact ⟨t, ht, Prod.mk.inj hmarks⟩

end Holding
end QuadStore