import QuadStore.Error
import QuadStore.Table.Cell
import QuadStore.Table.NodeRow

namespace QuadStore

namespace Cell

def asText : Cell → Option String
  | .text value => some value
  | .int value => some (Text.intText value)
  | .real value => some value.text
  | .null => none

/-- What a column of integers makes of a cell. -/
def asInt : Cell → Option Int
  | .int value => some value
  | .text value => Text.readInt64 value.toList
  | _ => none

def asReal : Cell → Option Binary64
  | .real value => value.stored
  | .int value => (Binary64.ofInt value).stored
  | .text value => (Binary64.read value.toList).bind Binary64.stored
  | .null => none

end Cell

namespace Tables

/-- The value of a column that may not be empty. -/
def needed (column : String) (value : Option α) : Except DataFault α :=
  match value with
  | some value => .ok value
  | none => .error (.missingValue column)

/-- The id of a new row; without one the row gets the number after the greatest. -/
def newId (table : String) (ids : List Int) (cell : Cell) : Except DataFault Int :=
  let id := cell.asInt.getD (greatestId ids + 1)
  if id ∈ ids then .error (.notUnique (table ++ ".id")) else .ok id

/-- Adds a row of a node, all columns in the order of the table. -/
def insertNodeCells (t : Tables) : List Cell → Except DataFault Tables
  | [id, kind, lexical, int, double, time, offset, boolean, datatype, language, created] => do
      let kind ← needed "nodes.ntype" kind.asText
      let lexical ← needed "nodes.svalue" lexical.asText
      let created ← needed "nodes.created_at" created.asText
      let id ← newId "nodes" (t.nodes.map NodeRow.id) id
      let row : NodeRow := {
        id, kind, lexical, int := int.asInt, double := double.asReal, time := time.asText,
        offset := offset.asInt, boolean := boolean.asInt, datatype := datatype.asInt,
        language := language.asText, created := .text created }
      match t.insertNode? row with
      | some t => pure t
      | none =>
          throw (.notUnique
            (if row.isResource then "nodes.ntype, nodes.svalue" else "index 'idx_nodes_literal'"))
  | _ => throw (.missingValue "nodes")

def insertStatementCells (t : Tables) : List Cell → Except DataFault Tables
  | [id, subject, predicate, object, context, creator, inferred, deleted, created,
      deletedAt] => do
      let subject ← needed "triples.subject" subject.asInt
      let predicate ← needed "triples.predicate" predicate.asInt
      let object ← needed "triples.object" object.asInt
      let context ← needed "triples.context" context.asInt
      let inferred ← needed "triples.inferred" inferred.asInt
      let deleted ← needed "triples.deleted" deleted.asInt
      let created ← needed "triples.created_at" created.asText
      let id ← newId "triples" (t.statements.map StatementRow.id) id
      let row : StatementRow := {
        id, subject, predicate, object, context, creator := creator.asInt, inferred, deleted,
        created := .text created, deletedAt := deletedAt.asText.map .text }
      match t.insertStatement? row with
      | some t => pure t
      | none =>
          throw (.notUnique "triples.subject, triples.predicate, triples.object, triples.context")
  | _ => throw (.missingValue "triples")

/-- Adds a row of prefixes. Ids, URIs and prefixes are unique, and are checked in this order. -/
def insertNamespace (t : Tables) (row : NamespaceRow) : Except DataFault Tables :=
  if t.namespaces.any fun r => r.id == row.id then .error (.notUnique "namespaces.id")
  else if t.namespaces.any fun r => r.uri == row.uri then .error (.notUnique "namespaces.uri")
  else if t.namespaces.any fun r => r.label == row.label then
    .error (.notUnique "namespaces.prefix")
  else .ok { t with namespaces := t.namespaces ++ [row] }

def insertNamespaceCells (t : Tables) : List Cell → Except DataFault Tables
  | [id, label, uri, created] => do
      let label ← needed "namespaces.prefix" label.asText
      let uri ← needed "namespaces.uri" uri.asText
      let created ← needed "namespaces.created_at" created.asText
      let id ← newId "namespaces" (t.namespaces.map NamespaceRow.id) id
      t.insertNamespace ⟨id, label, uri, .text created⟩
  | _ => throw (.missingValue "namespaces")

/-- Adds an entry to a table whose keys may not be empty or occur twice. -/
def insertKey (column : String) (d : Dict String ν) (key : Option String) (value : ν) :
    Except DataFault (Dict String ν) := do
  let key ← needed column key
  if (d.get? key).isSome then throw (.notUnique column)
  pure (d.insert key value)

/-- Adds a row to the table with a name. -/
def insertCells (t : Tables) (table : String) (cells : List Cell) : Except DataFault Tables :=
  match table, cells with
  | "nodes", cells => t.insertNodeCells cells
  | "triples", cells => t.insertStatementCells cells
  | "namespaces", cells => t.insertNamespaceCells cells
  | "sequences", [name, value] => do
      let value ← needed "sequences.value" value.asInt
      pure { t with sequences := ← insertKey "sequences.name" t.sequences name.asText value }
  | "metadata", [key, value] => do
      let value ← needed "metadata.mvalue" value.asText
      pure { t with metadata := ← insertKey "metadata.mkey" t.metadata key.asText value }
  | _, _ => throw (.missingValue table)

end Tables
end QuadStore
