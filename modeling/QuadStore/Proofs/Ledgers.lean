import Mathlib.Logic.Function.Basic
import QuadStore.Proofs.OpenStores

/-!
A store as a set of statements. A ledger holds the committed set and what each transaction has
changed since; it is kept from what the transactions are asked and answered alone, and every run
of the store agrees with it.
-/

namespace QuadStore

open Transaction

/-- What a call changes of the statements that its transaction sees. -/
inductive Change
  | added (key : StatementKey)
  | removed (keys : Set StatementKey)

def Change.apply : Change → Set StatementKey → Set StatementKey
  | .added key, members => insert key members
  | .removed keys, members => members \ keys

/-- The committed statements, and what the transactions have changed, by their numbers. -/
structure Ledger where
  committed : Set StatementKey
  changes : Nat → List Change

namespace Ledger

/-- The statements that a transaction sees: the committed ones with its own changes applied, each
once and in their order. -/
def view (l : Ledger) (number : Nat) : Set StatementKey :=
  (l.changes number).foldl (fun members change => change.apply members) l.committed

/-- Before anything has been changed. -/
def start (members : Set StatementKey) : Ledger :=
  ⟨members, fun _ => []⟩

/-- A transaction has made some changes. -/
def note (l : Ledger) (number : Nat) (changes : List Change) : Ledger :=
  { l with changes := Function.update l.changes number (l.changes number ++ changes) }

/-- What a transaction has changed is forgotten. -/
def forget (l : Ledger) (number : Nat) : Ledger :=
  { l with changes := Function.update l.changes number [] }

/-- What a transaction sees becomes the committed set. -/
def commit (l : Ledger) (number : Nat) : Ledger :=
  { l.forget number with committed := l.view number }

/-- Takes down what has happened. -/
def record (l : Ledger) : Event → Ledger
  | .call number _ _ (.add _ _ _ _) (.ok t) => l.note number [.added t.key]
  | .call number _ _ (.addInferred _ _ _ _) (.ok t) => l.note number [.added t.key]
  | .call number before _ (.remove s p o c) (.ok _) =>
      l.note number [.removed (before.members ∩ {k | k.MatchesNodes before s p o c})]
  | .call number _ _ (.commit _) (.ok _) => l.commit number
  | .call number _ _ (.commit _) (.error _) => l.forget number
  | .call number _ _ .rollback _ => l.forget number
  | .call number _ _ .drop _ => l.forget number
  | _ => l

@[simp] theorem note_nil (l : Ledger) (number : Nat) : l.note number [] = l := by
  simp [note]

end Ledger

namespace OpenStore

/-- Whether a store holds the statements of a ledger. A transaction that does not
write has changed nothing. -/
structure Refines (s : OpenStore) (l : Ledger) : Prop where
  committed : s.database.committed.members = l.committed
  views : ∀ i x, s.scope? i = some x → x.work.view.members = l.view i
  idle : ∀ i x, s.scope? i = some x → x.work.conn.writing = false →
    ∀ change ∈ l.changes i, ∀ members, change.apply members = members
  begun : ∀ i, s.scope? i = none → l.changes i = []

namespace Refines

variable {s s' : OpenStore} {l : Ledger} {i : Nat} {x y : Scope}

theorem foldl_idle {changes : List Change}
    (h : ∀ change ∈ changes, ∀ members, change.apply members = members)
    (members : Set StatementKey) :
    changes.foldl (fun members change => change.apply members) members = members := by
  induction changes with
  | nil => rfl
  | cons change rest ih =>
      rw [List.foldl_cons, h change (by simp)]
      exact ih fun change hchange => h change (by simp [hchange])

theorem scope?_put_eq_none (hx : s.scope? i = some x) {j : Nat}
    (h : (s.put i y).scope? j = none) :
    j ≠ i ∧ s.scope? j = none := by
  by_cases hji : j = i
  · subst hji
    rw [scope?_put_self hx] at h
    cases h
  · rw [scope?_put_of_ne y hji, Option.map_eq_none_iff] at h
    exact ⟨hji, h⟩

theorem note (hl : s.Refines l) (hx : s.scope? i = some x) (h : Advances x y)
    {changes : List Change}
    (hmembers : y.work.view.members =
      changes.foldl (fun members change => change.apply members) x.work.view.members)
    (hidle : y.work.conn.writing = false →
      ∀ change ∈ changes, ∀ members, change.apply members = members) :
    (s.put i y).Refines (l.note i changes) := by
  have hcommitted : ∀ {j z}, s.scope? j = some z →
      y.work.database.committed = z.work.database.committed := fun hz =>
    committed_of_scope? hx hz h.works.committed
  refine ⟨?_, ?_, ?_, ?_⟩
  · show y.work.database.committed.members = l.committed
    rw [hcommitted hx, database_of_scope? hx]
    exact hl.committed
  · intro j z hz
    rcases scope?_put_eq_some hx hz with ⟨rfl, rfl⟩ | ⟨hj, z', hz', rfl⟩
    · rw [hmembers, hl.views j x hx]
      simp [Ledger.view, Ledger.note]
    · rw [Scope.view_within_of_eq (hcommitted hz'), hl.views j z' hz']
      simp [Ledger.view, Ledger.note, hj]
  · intro j z hz hwriting
    rcases scope?_put_eq_some hx hz with ⟨rfl, rfl⟩ | ⟨hj, z', hz', rfl⟩
    · have hx' : x.work.conn.writing = false := by
        by_contra hx'
        rw [h.works.writing (by simpa using hx')] at hwriting
        cases hwriting
      simp only [Ledger.note, Function.update_self]
      intro change hchange
      rcases List.mem_append.mp hchange with hold | hnew
      · exact hl.idle j x hx hx' change hold
      · exact hidle hwriting change hnew
    · simp only [Ledger.note, Function.update_of_ne hj]
      exact hl.idle j z' hz' hwriting
  · intro j hj
    obtain ⟨hji, hnone⟩ := scope?_put_eq_none hx hj
    simp only [Ledger.note, Function.update_of_ne hji]
    exact hl.begun j hnone

theorem same (hl : s.Refines l) (hx : s.scope? i = some x) (h : Advances x y)
    (hmembers : y.work.view.members = x.work.view.members) : (s.put i y).Refines l := by
  have hnote : (s.put i y).Refines (l.note i []) := hl.note hx h hmembers (by simp)
  rwa [Ledger.note_nil] at hnote

theorem forget (hl : s.Refines l) (hx : s.scope? i = some x) (hidle : y.work.conn.writing = false)
    (hsame : y.work.database.committed = x.work.database.committed) :
    (s.put i y).Refines (l.forget i) := by
  have hcommitted : ∀ {j z}, s.scope? j = some z →
      y.work.database.committed = z.work.database.committed := fun hz =>
    committed_of_scope? hx hz hsame
  refine ⟨?_, ?_, ?_, ?_⟩
  · show y.work.database.committed.members = l.committed
    rw [hcommitted hx, database_of_scope? hx]
    exact hl.committed
  · intro j z hz
    rcases scope?_put_eq_some hx hz with ⟨rfl, rfl⟩ | ⟨hj, z', hz', rfl⟩
    · rw [Workspace.view_eq_committed hidle, hcommitted hx, database_of_scope? hx, hl.committed]
      simp [Ledger.view, Ledger.forget]
    · rw [Scope.view_within_of_eq (hcommitted hz'), hl.views j z' hz']
      simp [Ledger.view, Ledger.forget, hj]
  · intro j z hz hwriting
    rcases scope?_put_eq_some hx hz with ⟨rfl, rfl⟩ | ⟨hj, z', hz', rfl⟩
    · simp [Ledger.forget]
    · simp only [Ledger.forget, Function.update_of_ne hj]
      exact hl.idle j z' hz' hwriting
  · intro j hj
    obtain ⟨hji, hnone⟩ := scope?_put_eq_none hx hj
    simp only [Ledger.forget, Function.update_of_ne hji]
    exact hl.begun j hnone

theorem abandon (hl : s.Refines l) (hx : s.scope? i = some x) (h : Abandoned x y) :
    (s.put i y).Refines (l.forget i) :=
  hl.forget hx (by simp [Connection.writing, h.pending]) h.committed

theorem commit (hl : s.Refines l) (hs : s.Good) (hx : s.scope? i = some x) (h : Committed x y) :
    (s.put i y).Refines (l.commit i) := by
  have hmembers : y.work.database.committed.members = l.view i := by
    rw [Tables.members_congr h.statements, hl.views i x hx]
  refine ⟨hmembers, ?_, ?_, ?_⟩
  · intro j z hz
    rcases scope?_put_eq_some hx hz with ⟨rfl, rfl⟩ | ⟨hj, z', hz', rfl⟩
    · rw [Workspace.view_eq_committed (by simp [Connection.writing, h.pending]), hmembers]
      simp [Ledger.view, Ledger.commit, Ledger.forget]
    · have hview : (l.commit i).view j = (l.changes j).foldl
          (fun members change => change.apply members) (l.view i) := by
        simp [Ledger.view, Ledger.commit, Ledger.forget, hj]
      rw [hview]
      cases hwriting : z'.work.conn.writing with
      | false =>
          rw [Scope.view_within_of_idle hwriting, hmembers,
            foldl_idle (hl.idle j z' hz' hwriting)]
      | true =>
          -- Then the other one writes and this one had nothing to commit.
          have hx' := hs.others_idle hz' hwriting hx hj.symm
          have hsame : l.view i = l.committed := by
            rw [← hl.views i x hx, Workspace.view_eq_committed hx', database_of_scope? hx,
              hl.committed]
          rw [Scope.view_within_of_writing hwriting, hl.views j z' hz', hsame]
          rfl
  · intro j z hz hwriting
    rcases scope?_put_eq_some hx hz with ⟨rfl, rfl⟩ | ⟨hj, z', hz', rfl⟩
    · simp [Ledger.commit, Ledger.forget]
    · simp only [Ledger.commit, Ledger.forget, Function.update_of_ne hj]
      exact hl.idle j z' hz' hwriting
  · intro j hj
    obtain ⟨hji, hnone⟩ := scope?_put_eq_none hx hj
    simp only [Ledger.commit, Ledger.forget, Function.update_of_ne hji]
    exact hl.begun j hnone

theorem begin (hl : s.Refines l) : s.begin.Refines l := by
  have hview : ∀ {j z}, s.scope? j = some z →
      (z.within s.begin.shared).work.view = z.work.view := fun hz =>
    Scope.view_within_of_eq (congrArg Database.committed (database_of_scope? hz).symm)
  refine ⟨hl.committed, ?_, ?_, ?_⟩
  · intro j z hz
    rcases scope?_begin hz with ⟨z', hz', rfl⟩ | ⟨rfl, rfl⟩
    · rw [hview hz', hl.views j z' hz']
    · have hnone : s.scope? s.transactions.length = none := by simp [scope?]
      rw [Ledger.view, hl.begun _ hnone]
      exact hl.committed
  · intro j z hz hwriting
    rcases scope?_begin hz with ⟨z', hz', rfl⟩ | ⟨rfl, rfl⟩
    · exact hl.idle j z' hz' hwriting
    · rw [hl.begun _ (by simp [scope?])]
      simp
  · intro j hj
    apply hl.begun j
    simp only [scope?, Option.map_eq_none_iff, List.getElem?_eq_none_iff] at hj ⊢
    rw [transactions_begin, List.length_append] at hj
    omega

theorem withStore (hl : s.Refines l) (store : Store) : (s.withStore store).Refines l := by
  refine ⟨hl.committed, ?_, ?_, ?_⟩
  · intro j z hz
    obtain ⟨z', hz', rfl⟩ := of_scope?_withStore hz
    have hsame := congrArg Database.committed (database_of_scope? hz').symm
    rw [Scope.view_within_of_eq (w := (s.withStore store).shared) hsame]
    exact hl.views j z' hz'
  · intro j z hz hwriting
    obtain ⟨z', hz', rfl⟩ := of_scope?_withStore hz
    exact hl.idle j z' hz' hwriting
  · intro j hj
    rw [scope?_withStore, Option.map_eq_none_iff] at hj
    exact hl.begun j hj

theorem adds (hl : s.Refines l) (hx : s.scope? i = some x)
    (hadvances : Advances x y) {t : Statement}
    (h : Adds x y t) : (s.put i y).Refines (l.note i [.added t.key]) := by
  refine hl.note hx hadvances h.members fun hidle => ?_
  cases hidle.symm.trans h.writing

theorem fails (hl : s.Refines l) (hx : s.scope? i = some x) (hadvances : Advances x y)
    (h : Fails x y) : (s.put i y).Refines l :=
  hl.same hx hadvances (Tables.members_congr h.statements)

theorem removes (hl : s.Refines l) (hs : s.Good) (hx : s.scope? i = some x)
    {subject predicate object context : Option Node} {count : Nat}
    (h : Transaction.remove subject predicate object context x = .ok count y) :
    (s.put i y).Refines (l.note i [.removed (x.work.view.members ∩
      {k | k.MatchesNodes x.work.view subject predicate object context})]) := by
  have hadvances := (remove_advances subject predicate object context).ok h
  have hmembers := remove_eq_ok (hs.scopes i x hx) h
  refine hl.note hx hadvances ?_ ?_
  · rw [List.foldl_cons, List.foldl_nil, Change.apply, hmembers, Set.sdiff_self_inter]
  · rintro hidle change hchange members
    obtain rfl := List.mem_singleton.mp hchange
    -- Without the lock nothing has been removed, so nothing was there to be removed.
    have hidle' : x.work.conn.writing = false := by
      by_contra hwriting
      rw [hadvances.works.writing (by simpa using hwriting)] at hidle
      cases hidle
    have hview : y.work.view = x.work.view := calc
      y.work.view = y.work.database.committed := Workspace.view_eq_committed hidle
      _ = x.work.database.committed := hadvances.works.committed
      _ = x.work.view := (Workspace.view_eq_committed hidle').symm
    rw [hview, eq_comm, sdiff_eq_left, Set.disjoint_iff_inter_eq_empty] at hmembers
    rw [Change.apply, hmembers, Set.sdiff_empty]

theorem closed (hl : s.Refines l) (hs : s.Good) (hx : s.scope? i = some x) (h : x.closed = true) :
    (s.put i x).Refines (l.forget i) :=
  hl.forget hx (hs.closed i x hx h) rfl

theorem call (hl : s.Refines l) (hs : s.Good) (c : Call) (hx : s.scope? i = some x) :
    (s.put i (finalState (c.run x))).Refines (l.record (.call i x.work.view
      (finalState (c.run x)).work.view c (answerOf (c.run x)))) := by
  have hwork := (hs.scopes i x hx).work
  cases c with
  | add subject predicate object context =>
      have hadvances := add_advances subject predicate object context
      cases hop : Transaction.add subject predicate object context x with
      | ok t y =>
          rw [Call.run, hop]
          exact hl.adds hx (hadvances.ok hop) (add_eq_ok hwork hop).1
      | error e y =>
          rw [Call.run, hop]
          exact hl.fails hx (hadvances.error hop) (add_error hwork hop)
  | addInferred subject predicate object context =>
      have hadvances := addInferred_advances subject predicate object context
      cases hop : Transaction.addInferred subject predicate object context x with
      | ok t y =>
          rw [Call.run, hop]
          exact hl.adds hx (hadvances.ok hop) (addInferred_eq_ok hwork hop).1
      | error e y =>
          rw [Call.run, hop]
          exact hl.fails hx (hadvances.error hop) (addInferred_error hwork hop)
  | remove subject predicate object context =>
      cases hop : Transaction.remove subject predicate object context x with
      | ok count y =>
          rw [Call.run, hop]
          exact hl.removes hs hx hop
      | error e y =>
          rw [Call.run, hop]
          exact hl.same hx ((remove_advances subject predicate object context).error hop)
            (Tables.members_congr (remove_error (hs.scopes i x hx) hop))
  | statement subject predicate object context =>
      have hquiet := keeps_perform
        (Action.createStatement_quiet subject predicate object context) x
      exact hl.same hx hquiet.advances (Tables.members_congr hquiet.work.statements)
  | commit refusal =>
      rw [Call.run]
      rcases finish_cases refusal x with
        ⟨y, hop, -, hcommitted⟩ | ⟨e, y, hop, -, habandoned⟩ | ⟨hop, hclosed⟩
      · rw [hop]
        exact hl.commit hs hx hcommitted
      · rw [hop]
        exact hl.abandon hx habandoned
      · rw [hop]
        exact hl.closed hs hx hclosed
  | rollback =>
      rw [Call.run]
      rcases rollback_cases x with ⟨y, hop, -, habandoned⟩ | ⟨hop, hclosed⟩
      · rw [hop]
        exact hl.abandon hx habandoned
      · rw [hop]
        exact hl.closed hs hx hclosed
  | drop =>
      rw [Call.run]
      rcases drop_cases x with ⟨y, hop, -, habandoned⟩ | ⟨hop, hclosed⟩
      · rw [hop]
        exact hl.abandon hx habandoned
      · rw [hop]
        exact hl.closed hs hx hclosed
  | _ =>
      exact hl.same hx (Call.advances rfl x)
        (Tables.members_congr (Call.silent rfl rfl x).work.statements)

theorem step {e : Event} (hl : s.Refines l) (hs : s.Good) (h : s.Step e s') :
    s'.Refines (l.record e) := by
  cases h with
  | begin => exact hl.begin
  | clearCaches | evict => exact hl.withStore _
  | call c hx => exact hl.call hs c hx

theorem run {log : List Event} (hl : s.Refines l) (hs : s.Good) (h : s.Run log s') :
    s'.Refines (log.foldl Ledger.record l) := by
  induction h with
  | nil => exact hl
  | snoc hrun hstep ih =>
      rw [List.foldl_append]
      exact ih.step (hs.run hrun) hstep

end Refines
end OpenStore

namespace Event

end Event

namespace OpenStore

variable {config : Config} {tables : Tables} {registryFile : RegistryFile} {labelStart : String}
variable {s s' : OpenStore} {log : List Event}

end OpenStore
end QuadStore
