import QuadStore.Proofs.Endings

namespace QuadStore

/-- Something that a transaction is asked to do. A commit comes with the answer
of the database to it. -/
inductive Call
  | uri (uri : String)
  | blank (label : Option String)
  | literal (value : LiteralValue)
  | string (content : String) (language : Option String)
  | typed (content datatype : String)
  | statement (subject predicate object : Node) (context : Option Node)
  | add (subject predicate object : Node) (context : Option Node)
  | addInferred (subject predicate object : Node) (context : Option Node)
  | remove (subject predicate object context : Option Node)
  | list (subject predicate object context : Option Node) (includeInferred : Bool)
  | contains (subject predicate object context : Option Node)
  | size (context : Option Node)
  | contexts
  | query (q : PatternQuery)
  | fetch (count : Nat) (results : QueryResults)
  | namespaceByLabel (label : String)
  | namespaceByUri (uri : String)
  | setNamespace (label uri : String)
  | removeNamespace (label : String)
  | namespaces
  | commit (refusal : Option DataFault)
  | rollback
  | drop

namespace Call

/-- What a call is answered with when it succeeds. -/
def Answer : Call → Type
  | .uri _ | .blank _ | .literal _ | .string _ _ | .typed _ _ => Node
  | .statement _ _ _ _ | .add _ _ _ _ | .addInferred _ _ _ _ => Statement
  | .remove _ _ _ _ | .size _ => Nat
  | .list _ _ _ _ _ => List Statement
  | .contains _ _ _ _ | .removeNamespace _ => Bool
  | .contexts => List Node
  | .query _ => QueryResults
  | .fetch _ _ => List (Except StoreError BindingSet) × QueryResults
  | .namespaceByLabel _ | .namespaceByUri _ => Option Namespace
  | .setNamespace _ _ => Namespace
  | .namespaces => List Namespace
  | .commit _ | .rollback | .drop => Unit

open Transaction in
/-- How a transaction does what it is asked to do. -/
def run : (c : Call) → Operation c.Answer
  | .uri u => perform (Action.createUri u)
  | .blank label => perform (Action.createBlank label)
  | .literal value => perform (Action.createLiteral value)
  | .string content language => perform (Action.createString content language)
  | .typed content datatype => perform (Action.createTyped content datatype)
  | .statement s p o c => perform (Action.createStatement s p o c)
  | .add s p o c => Transaction.add s p o c
  | .addInferred s p o c => Transaction.addInferred s p o c
  | .remove s p o c => Transaction.remove s p o c
  | .list s p o c inferred => perform (Action.listStatements s p o c inferred)
  | .contains s p o c => Transaction.contains s p o c
  | .size context => perform (Action.countStatements context)
  | .contexts => perform Action.listContexts
  | .query q => Transaction.query q
  | .fetch count results => perform (Action.fetch count results)
  | .namespaceByLabel label => perform (Action.loadNamespaceByLabel label)
  | .namespaceByUri u => perform (Action.loadNamespaceByUri u)
  | .setNamespace label u => Transaction.setNamespace label u
  | .removeNamespace label => Transaction.removeNamespace label
  | .namespaces => perform Action.listNamespaces
  | .commit refusal => finish refusal
  | .rollback => Transaction.rollback
  | .drop => Transaction.drop

/-- Whether a call ends its transaction. -/
def ends : Call → Bool
  | .commit _ | .rollback | .drop => true
  | _ => false

/-- Whether a call makes, stores or deletes statements. -/
def changesStatements : Call → Bool
  | .statement _ _ _ _ | .add _ _ _ _ | .addInferred _ _ _ _ | .remove _ _ _ _ => true
  | _ => false

end Call

/-- What an operation answers. -/
def answerOf {ε σ α : Type} : EStateM.Result ε σ α → Except ε α
  | .ok v _ => .ok v
  | .error e _ => .error e

/-- A store that is open, with the files it works on and the transactions
that were begun in it. -/
structure OpenStore where
  database : Database
  registryFile : RegistryFile
  store : Store
  transactions : List Transaction := []

namespace OpenStore

/-- A store that has just been opened on some tables. -/
def opened (config : Config) (tables : Tables)
    (registryFile : RegistryFile) (labelStart : String) :
    OpenStore where
  database := { committed := tables.prepare }
  registryFile := registryFile
  store := Store.make config tables.prepare labelStart

/-- All that a transaction of the store reads and changes. -/
def scopeOf (s : OpenStore) (t : Transaction) : Transaction.Scope :=
  ⟨⟨s.database, s.registryFile, s.store, t.conn⟩, t.changes, t.closed⟩

/-- All that the transaction with the given number reads and changes. -/
def scope? (s : OpenStore) (number : Nat) : Option Transaction.Scope :=
  (s.transactions[number]?).map s.scopeOf

/-- The store after a transaction has done something. -/
def put (s : OpenStore) (number : Nat) (x : Transaction.Scope) : OpenStore where
  database := x.work.database
  registryFile := x.work.registryFile
  store := x.work.store
  transactions := s.transactions.set number ⟨x.work.conn, x.changes, x.closed⟩

/-- What all transactions of a store share, seen through a connection of its own. -/
def shared (s : OpenStore) : Workspace :=
  ⟨s.database, s.registryFile, s.store, { transaction := 0 }⟩

/-- The store after one more transaction has been begun. -/
def begin (s : OpenStore) : OpenStore :=
  match Action.nextId .transactions s.shared with
  | .ok transaction w =>
      { s with store := w.store, transactions := s.transactions ++ [{ conn := { transaction } }] }
  | .error _ w => { s with store := w.store }

/-- The store after some of its caches have changed. -/
def withStore (s : OpenStore) (store : Store) : OpenStore :=
  { s with store }

def clearCaches (s : OpenStore) : OpenStore :=
  s.withStore s.store.clearCaches

end OpenStore

/-- What happens in an open store. Of a call it is noted which tables its transaction
saw before and after it. -/
inductive Event
  | begin
  | clearCaches
  /-- Some of the caches lose entries of their own accord. -/
  | evict (group : CacheGroup)
  | call (number : Nat) (before after : Tables) (call : Call)
    (answer : Except StoreError call.Answer)

/-- The transaction that has committed. -/
def Event.committed? : Event → Option Nat
  | .call number _ _ (.commit _) (.ok _) => some number
  | _ => none

namespace Event

/-- Whether what is lost are lists of keys that transactions have registered. -/
def losesKeys : Event → Bool
  | .evict group => group == .registered
  | _ => false

/-- Whether no lists of keys are lost. -/
def KeepsKeys (log : List Event) : Prop :=
  ∀ e ∈ log, e.losesKeys = false

instance (log : List Event) : Decidable (KeepsKeys log) :=
  inferInstanceAs (Decidable (∀ e ∈ log, e.losesKeys = false))

theorem keepsKeys_snoc_iff {log : List Event} {e : Event} :
    KeepsKeys (log ++ [e]) ↔ KeepsKeys log ∧ e.losesKeys = false := by
  simp [KeepsKeys, or_imp, forall_and]

end Event

namespace OpenStore

inductive Step (s : OpenStore) : Event → OpenStore → Prop
  | begin : Step s .begin s.begin
  | clearCaches : Step s .clearCaches s.clearCaches
  | evict {group : CacheGroup} {store : Store} (h : s.store.Evicts group store) :
      Step s (.evict group) (s.withStore store)
  | call {number : Nat} {x : Transaction.Scope} (c : Call) (hx : s.scope? number = some x) :
      Step s (.call number x.work.view (finalState (c.run x)).work.view c (answerOf (c.run x)))
        (s.put number (finalState (c.run x)))

/-- One thing after another. -/
inductive Run (s : OpenStore) : List Event → OpenStore → Prop
  | nil : Run s [] s
  | snoc {log : List Event} {e : Event} {s₁ s₂ : OpenStore}
    (h : Run s log s₁) (hstep : Step s₁ e s₂) :
      Run s (log ++ [e]) s₂

/-- The store after a transaction, if it has been begun, has been asked to do something. -/
def after (s : OpenStore) (number : Nat) (c : Call) : OpenStore :=
  match s.scope? number with
  | some x => s.put number (finalState (c.run x))
  | none => s

theorem after_of_some {s : OpenStore} {number : Nat} {x : Transaction.Scope}
    (hx : s.scope? number = some x) (c : Call) :
    s.after number c = s.put number (finalState (c.run x)) := by
  rw [after, hx]

/-- What is noted of it. -/
def noted (s : OpenStore) (number : Nat) (c : Call) : List Event :=
  match s.scope? number with
  | some x => [.call number x.work.view (finalState (c.run x)).work.view c (answerOf (c.run x))]
  | none => []

theorem Run.call {s s' : OpenStore} {log : List Event}
    (h : s.Run log s') (number : Nat) (c : Call) :
    s.Run (log ++ s'.noted number c) (s'.after number c) := by
  unfold noted after
  cases hx : s'.scope? number with
  | some x => exact .snoc h (.call c hx)
  | none => rwa [List.append_nil]

theorem forall_mem_noted {s : OpenStore} {number : Nat} {c : Call} {P : Event → Prop}
    (h : ∀ before after answer, P (.call number before after c answer)) :
    ∀ e ∈ s.noted number c, P e := by
  unfold noted
  split
  · exact List.forall_mem_singleton.mpr (h _ _ _)
  · exact List.forall_mem_nil P

theorem scope?_eq_some {s : OpenStore} {number : Nat} {x : Transaction.Scope}
    (h : s.scope? number = some x) : number < s.transactions.length := by
  obtain ⟨t, ht, -⟩ := Option.map_eq_some_iff.mp h
  exact (List.getElem?_eq_some_iff.mp ht).1

end OpenStore

/-- The scope of a transaction after another one has worked in the store. -/
def Transaction.Scope.within (x : Transaction.Scope) (w : Workspace) : Transaction.Scope :=
  { x with work := { w with conn := x.work.conn } }

namespace OpenStore

theorem scope?_withStore {s : OpenStore} (store : Store) (number : Nat) :
    (s.withStore store).scope? number =
      (s.scope? number).map fun x => x.within (s.withStore store).shared := by
  simp only [scope?, withStore, Option.map_map]
  rfl

theorem scope?_withStore_of_some {s : OpenStore} {number : Nat} {x : Transaction.Scope}
    (h : s.scope? number = some x) (store : Store) :
    (s.withStore store).scope? number = some (x.within (s.withStore store).shared) := by
  rw [scope?_withStore, h, Option.map_some]

/-- Where a transaction is found after caches have changed, it was before. -/
theorem of_scope?_withStore {s : OpenStore} {store : Store} {number : Nat} {x : Transaction.Scope}
    (h : (s.withStore store).scope? number = some x) :
    ∃ x', s.scope? number = some x' ∧ x = x'.within (s.withStore store).shared := by
  rw [scope?_withStore] at h
  obtain ⟨x', hx', rfl⟩ := Option.map_eq_some_iff.mp h
  exact ⟨x', hx', rfl⟩

theorem scope?_put_self {s : OpenStore} {number : Nat} {x y : Transaction.Scope}
    (h : s.scope? number = some x) : (s.put number y).scope? number = some y := by
  have hlt := scope?_eq_some h
  simp [scope?, put, scopeOf, hlt]

theorem scope?_put_of_ne {s : OpenStore} {number other : Nat} (y : Transaction.Scope)
    (h : other ≠ number) :
    (s.put number y).scope? other = (s.scope? other).map fun x => x.within y.work := by
  simp only [scope?, put, List.getElem?_set_ne (Ne.symm h), Option.map_map]
  rfl

theorem scope?_put_other {s : OpenStore} {number other : Nat} {x y : Transaction.Scope}
    (h : s.scope? other = some x) (hne : other ≠ number) :
    (s.put number y).scope? other = some (x.within y.work) := by
  rw [scope?_put_of_ne y hne, h, Option.map_some]

theorem transactions_begin (s : OpenStore) : s.begin.transactions =
    s.transactions ++ [{ conn := { transaction := s.store.counters.transactions + 1 } }] := rfl

theorem scope?_begin {s : OpenStore} {number : Nat} {x : Transaction.Scope}
    (h : s.begin.scope? number = some x) :
    (∃ x', s.scope? number = some x' ∧ x = x'.within s.begin.shared) ∨
      number = s.transactions.length ∧
        x = ⟨{ s.begin.shared with
          conn := { transaction := s.store.counters.transactions + 1 } }, .empty, false⟩ := by
  obtain ⟨t, ht, rfl⟩ := Option.map_eq_some_iff.mp h
  rw [transactions_begin] at ht
  rcases Nat.lt_or_ge number s.transactions.length with hlt | hge
  · rw [List.getElem?_append_left hlt] at ht
    exact .inl ⟨s.scopeOf t, by rw [scope?, ht, Option.map_some], rfl⟩
  · rw [List.getElem?_append_right hge] at ht
    rw [List.getElem?_singleton] at ht
    split at ht
    · obtain rfl := Option.some.inj ht
      exact .inr ⟨by omega, rfl⟩
    · cases ht

theorem scope?_begin_of_some {s : OpenStore} {number : Nat} {x : Transaction.Scope}
    (h : s.scope? number = some x) : s.begin.scope? number = some (x.within s.begin.shared) := by
  have hlt := scope?_eq_some h
  obtain ⟨t, ht, rfl⟩ := Option.map_eq_some_iff.mp h
  rw [scope?, transactions_begin, List.getElem?_append_left hlt, ht]
  rfl

theorem Run.append {s s₁ s₂ : OpenStore} {log log' : List Event} (h : s.Run log s₁)
    (h' : s₁.Run log' s₂) : s.Run (log ++ log') s₂ := by
  induction h' with
  | nil => rwa [List.append_nil]
  | snoc _ hstep ih =>
      rw [← List.append_assoc]
      exact .snoc ih hstep

end OpenStore
end QuadStore
