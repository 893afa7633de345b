import QuadStore.Connection
import QuadStore.Table.Insert

namespace QuadStore

/-- Reads the binding of a row. -/
def NamespaceRow.toNamespace (row : NamespaceRow) : Except DataFault Namespace := do
  row.created.check
  pure ⟨row.id, row.label, row.uri⟩

namespace Action

/-- The binding of a row, which is kept in the caches unless the connection is writing. -/
def loadNamespace (cached : Caches → Option Namespace) (row : Tables → Option NamespaceRow) :
    Action (Option Namespace) := do
  match cached (← get).store.caches with
  | some ns => pure (some ns)
  | none =>
      match ← view row with
      | none => pure none
      | some row => do
          let ns ← ofData row.toNamespace
          if !(← get).conn.writing then modifyCaches (·.addNamespace ns)
          pure (some ns)

/-- The binding of a prefix, from the cache or from its row. -/
def loadNamespaceByLabel (label : String) : Action (Option Namespace) :=
  loadNamespace (fun c => c.namespaceLabel.get? label) (·.namespaceByLabel? label)

def loadNamespaceByUri (uri : String) : Action (Option Namespace) :=
  loadNamespace (fun c => c.namespaceUri.get? uri) (·.namespaceByUri? uri)

/-- Stores a binding under a new id. It is refused when its prefix or its URI is bound. -/
def storeNamespace (ns : Namespace) : Action Namespace := do
  beginWrite
  let id ← nextId .namespaces
  setTables (← ofData ((← get).view.insertNamespace ⟨id, ns.label, ns.uri, .clock⟩))
  let ns := { ns with id }
  modifyConn fun c => { c with freshNamespaces := c.freshNamespaces ++ [ns] }
  pure ns

/-- Deletes the binding of a prefix and forgets the given one at once. Answers
whether there was a row. -/
def deleteNamespace (ns : Namespace) : Action Bool := do
  beginWrite
  let tables ← view id
  let (dropped, kept) := tables.namespaces.partition fun row => row.label == ns.label
  setTables { tables with namespaces := kept }
  modifyConn fun c =>
    { c with
      freshNamespaces := c.freshNamespaces.filter fun other => other.label ≠ ns.label
      removedNamespaces := c.removedNamespaces ++ [ns] }
  modifyCaches (·.eraseNamespace ns)
  pure (!dropped.isEmpty)

/-- All bindings, in the order of their prefixes. -/
def listNamespaces : Action (List Namespace) := do
  let rows ← view fun t => t.namespaces.mergeSort fun a b => !(b.label < a.label)
  rows.mapM fun row => ofData row.toNamespace

end Action
end QuadStore
