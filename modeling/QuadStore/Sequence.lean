import QuadStore.Table

namespace QuadStore

/-- What ids are counted for. -/
inductive Sequence
  | nodes
  | statements
  | namespaces
  | transactions
deriving DecidableEq

namespace Sequence

def name : Sequence → String
  | .nodes => "seq.nodes"
  | .statements => "seq.triples"
  | .namespaces => "seq.namespaces"
  | .transactions => "seq.transactions"

/-- The ids that a sequence has given to rows. -/
def ids (t : Tables) : Sequence → List Int
  | .nodes => t.nodes.map NodeRow.id
  | .statements => t.statements.map StatementRow.id
  | .namespaces => t.namespaces.map NamespaceRow.id
  | .transactions => []

end Sequence

/-- The last id taken from each sequence. -/
structure Counters where
  nodes : Int
  statements : Int
  namespaces : Int
  transactions : Int
deriving DecidableEq

namespace Counters

def current (c : Counters) : Sequence → Int
  | .nodes => c.nodes
  | .statements => c.statements
  | .namespaces => c.namespaces
  | .transactions => c.transactions

def set (c : Counters) (value : Int) : Sequence → Counters
  | .nodes => { c with nodes := value }
  | .statements => { c with statements := value }
  | .namespaces => { c with namespaces := value }
  | .transactions => { c with transactions := value }

/-- The counters after an id has been taken, which is the new value. -/
def next (c : Counters) (s : Sequence) : Counters :=
  c.set (c.current s + 1) s

/-- Where a sequence goes on: at its stored value or at the greatest id in its table. -/
def resume (t : Tables) (s : Sequence) : Int :=
  max ((t.sequences.get? s.name).getD 0) (Tables.greatestId (s.ids t))

/-- What a store that is opened counts on from. -/
def load (t : Tables) : Counters :=
  ⟨resume t .nodes, resume t .statements, resume t .namespaces, resume t .transactions⟩

/-- Writes a counter. Stored values never decrease. -/
def persistOne (c : Counters) (t : Tables) (s : Sequence) : Tables :=
  { t with
    sequences := t.sequences.insert s.name
      (match t.sequences.get? s.name with
        | some stored => max stored (c.current s)
        | none => c.current s) }

/-- Writes all counters to the tables. -/
def persist (c : Counters) (t : Tables) : Tables :=
  [Sequence.nodes, .statements, .namespaces, .transactions].foldl c.persistOne t

/-- The id that is tried next where the last one is in use. One that is negative counts as none,
and the one after it is taken. -/
def nextTried (value : Int) : Int :=
  if value + 1 < 0 then value + 2 else value + 1

/-- The first of the ids tried after `value` that is not among the used ones, or the last that
the `fuel` allows for. -/
def skipUsed (used : List Int) : (fuel : Nat) → (value : Int) → Int
  | 0, value => nextTried value
  | fuel + 1, value =>
      if nextTried value ∈ used then skipUsed used fuel (nextTried value) else nextTried value

end Counters
end QuadStore
