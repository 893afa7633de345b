import QuadStore.Connection.Statements
import QuadStore.Node.Typed

namespace QuadStore.Action

/-- The stored node with the key of a node. It is stored if there is none. -/
def loadOrStore (n : Node) : Action Node := do
  match ← loadNode n with
  | some stored => do
      cacheNode stored
      pure stored
  | none => storeNode n

def createUri (uri : String) : Action Node := do
  match (← get).store.caches.uri.get? uri with
  | some n => pure n
  | none => loadOrStore (.uri uri)

/-- Makes up a label. It is used up even when no blank node comes of it. -/
def freshLabel : Action String := do
  let label := (← get).store.freshLabel
  modifyStore fun s => { s with labelCount := s.labelCount + 1 }
  pure label

/-- The stored blank node with the given label, or with a label of its own. -/
def createBlank (label : Option String) : Action Node := do
  let label ←
    match label with
    | some label => pure label
    | none => freshLabel
  match (← get).store.caches.blank.get? label with
  | some n => pure n
  | none => loadOrStore (.blank label)

/-- The stored URI of a datatype. -/
def createDatatype (uri : String) : Action UriResource := do
  match ← createUri uri with
  | ⟨id, .uri uri⟩ => pure ⟨id, uri⟩
  | other => throw (.data (.datatypeNotUri other))

/-- The stored literal with a value of the given datatype. -/
def resolveValue (value : LiteralValue) (datatype : UriResource) : Action Node := do
  let literal : Literal := ⟨value, some datatype⟩
  match (← get).store.caches.literal.get? literal.key with
  | some n => pure n
  | none => loadOrStore ⟨transientId, .literal literal⟩

/-- The stored literal of a text, with its language in lower case. -/
def createString (content : String) (language : Option String) : Action Node := do
  let value : LiteralValue := .string content language
  let datatype ← createDatatype value.defaultDatatype
  resolveValue (.string content (language.map Text.lowerCase)) datatype

/-- The stored literal with a value of the given datatype. What is not a number cannot be kept as
one and is kept as text. -/
def resolveLiteral (value : LiteralValue) (datatype : UriResource) : Action Node :=
  match value with
  | .double x =>
      if x.isNaN then createString x.text none else resolveValue value datatype
  | _ => resolveValue value datatype

/-- The stored literal with a value of the datatype that fits it. -/
def createLiteral (value : LiteralValue) : Action Node :=
  match value with
  | .string content language => createString content language
  | _ => do resolveLiteral value (← createDatatype value.defaultDatatype)

/-- The stored literal with the given text and datatype. A text that cannot be
read is kept as mere text. -/
def createTyped (content datatype : String) : Action Node := do
  match LiteralValue.read datatype content with
  | some value => resolveLiteral value (← createDatatype datatype)
  | none => createString content none

/-- The stored node of the same term. A literal without a datatype gets the one that fits it. -/
def convert (n : Node) : Action Node :=
  if n.isPersisted then pure n
  else
    match n.term with
    | .uri uri => createUri uri
    | .blank label => createBlank (some label)
    | .literal l => do
        let datatype ← createDatatype (l.datatypeUri.getD l.value.defaultDatatype)
        resolveLiteral l.value datatype

/-- The id that is registered for a statement. -/
def registeredId (key : StatementKey) : Action (Option Int) := do
  let w ← get
  pure (w.store.registry.lookup? w.registryFile key)

/-- Changes the registry of the store, which may lie in a file. -/
def modifyRegistry (f : Registry → RegistryFile → Registry × RegistryFile) : Action Unit :=
  modify fun w =>
    let (registry, file) := f w.store.registry w.registryFile
    { w with store := { w.store with registry }, registryFile := file }

/-- Registers the id of a statement for the transaction of the connection. -/
def registerId (key : StatementKey) (id : Int) : Action Unit := do
  let transaction := (← get).conn.transaction
  modifyRegistry fun r file => r.register file key transaction id

/-- Drops the registered id of a statement, for all transactions. -/
def unregister (key : StatementKey) : Action Unit :=
  modifyRegistry fun r file => r.delete file key

/-- Gives a statement its id: the registered one, that of its live row, or a new one. -/
def identifyShared (t : Statement) : Action Statement := do
  match ← registeredId t.key with
  | some id => do
      registerId t.key id
      pure { t with id }
  | none =>
      match ← liveStatementId t.key with
      | some id => do
          let stored ← loadStatement id
          pure { stored.getD t with id }
      | none => do
          let id ← nextId .statements
          registerId t.key id
          pure { t with id, isNew := true }

/-- The statement of the given nodes with its id; without a context it is in the default one. -/
def createStatement (subject predicate object : Node) (context : Option Node) :
    Action Statement := do
  ofStatement (checkSlots subject predicate context)
  let subject ← convert subject
  let predicate ← convert predicate
  let object ← convert object
  let context ←
    match context with
    | some c => convert c
    | none => do createUri (← get).store.config.defaultContext
  identifyShared (← ofStatement (Statement.make subject predicate object (some context)))

/-- Deletes a statement, and drops the id that is registered for it. -/
def removeStatement (t : Statement) : Action (Statement × Bool) := do
  let (t, removed) ← deleteStatement t
  unregister t.key
  pure (t, removed)

/-- Gives up what is registered for the transaction of the connection. -/
def releaseRegistry : Action Unit := do
  let transaction := (← get).conn.transaction
  modifyRegistry fun r file => r.release file transaction

end QuadStore.Action
