import QuadStore.Connection

namespace QuadStore.Action

/-- The node with the given id, from the cache or through `decode` from its row. -/
def resolveWith (decode : NodeRow → Action Node) (id : Int) : Action (Option Node) := do
  match (← get).store.caches.node.get? id with
  | some n => pure (some n)
  | none =>
      match ← view (·.nodeById? id) with
      | none => pure none
      | some row => do
          let n ← decode row
          cacheNode n
          pure (some n)

/-- The datatype of a literal's row. It is read by its id, and must be a URI. -/
def rowDatatype (decode : NodeRow → Action Node) (row : NodeRow) (kind : NodeKind) :
    Action (Option UriResource) :=
  match row.datatype with
  | some id =>
      if kind.isLiteral then do
        match ← resolveWith decode id with
        | some ⟨datatype, .uri uri⟩ => pure (some ⟨datatype, uri⟩)
        | _ => throw (.data (.danglingDatatype row.id id))
      else pure none
  | none => pure none

/-- The node of a row. Rows refer to the rows of their datatypes; the fuel bounds how
long such a chain may be. -/
def decodeRow : Nat → NodeRow → Action Node
  | 0, _ => throw .endless
  | fuel + 1, row => do
      ofData row.checkOffset
      let kind ← ofData row.readKind
      let datatype ← rowDatatype (decodeRow fuel) row kind
      ofData (row.toNode kind datatype)

/-- The node of a row. A chain of datatypes that is longer than the table comes back to itself,
and then following it never ends. -/
def nodeOfRow (row : NodeRow) : Action Node := do
  decodeRow ((← view (·.nodes.length)) + 1) row

/-- The node of a row that was looked for, if there is one. -/
def nodeOfRow? : Option NodeRow → Action (Option Node)
  | some row => do pure (some (← nodeOfRow row))
  | none => pure none

def loadNodeById (id : Int) : Action (Option Node) := do
  nodeOfRow? (← view (·.nodeById? id))

/-- The node with the given id, from the cache or from the tables. -/
def resolveNode (id : Int) : Action (Option Node) :=
  resolveWith nodeOfRow id

def loadUri (uri : String) : Action (Option Node) := do
  nodeOfRow? (← view (·.resource? "uri" uri))

def loadBlank (label : String) : Action (Option Node) := do
  nodeOfRow? (← view (·.resource? "bnode" label))

def loadLiteral (content : String) (language : Option String) (datatype : Option Int) :
    Action (Option Node) := do
  nodeOfRow? (← view (·.literal? content language datatype))

/-- Loads the stored node that is the same term. A literal whose datatype is not
stored is not stored either. -/
def loadNode (n : Node) : Action (Option Node) :=
  match n.term with
  | .uri uri => loadUri uri
  | .blank label => loadBlank label
  | .literal l =>
      match l.datatype with
      | some datatype =>
          if datatype.id < 0 then pure none
          else loadLiteral l.content l.language (some datatype.id)
      | none => loadLiteral l.content l.language none

/-- The id of a node: its own, or that of its row. A node that is not stored has none. -/
def nodeId (n : Node) : Action (Option Int) := do
  if n.isPersisted then pure (some n.id) else pure ((← loadNode n).map Node.id)

/-- Refuses a literal whose datatype has no id yet. -/
def checkDatatype (n : Node) : Action Unit :=
  match n.datatype? with
  | some datatype =>
      if datatype.id < 0 then throw (.data (.unpersistedDatatype datatype.uri n)) else pure ()
  | none => pure ()

/-- Stores a node that has no id yet and gives it one. If the same term is stored already, the
node takes the id of its row. -/
def storeNode (n : Node) : Action Node := do
  if n.isPersisted then pure n
  else
    checkDatatype n
    beginWrite
    let id ← nextId .nodes
    let stored ← do
      match ← view (·.insertNode? (.ofNode id n)) with
      | some tables => do
          setTables tables
          pure (n.withId id)
      | none =>
          match ← loadNode n with
          | some existing => pure (n.withId existing.id)
          | none => throw (.data (.unreadableConflict n))
    modifyConn fun c => { c with freshNodes := c.freshNodes ++ [stored] }
    pure stored

/-- The node with an id that some row refers to, which has to be there. -/
def requireNode (id : Int) : Action Node := do
  match ← resolveNode id with
  | some n => pure n
  | none => throw (.data (.danglingNode id))

end QuadStore.Action
