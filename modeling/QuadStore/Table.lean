import QuadStore.Dict
import QuadStore.Node

/-!
The tables of a database: rows of nodes, statements and namespaces, counters and notes. A table
is the list of its rows in the order in which they came in. Unique columns are kept unique by
the functions that add rows.
-/

namespace QuadStore

/-- When a row was written: by the clock of a store, or at a moment given as text. -/
inductive Stamp
  | clock
  | text (text : String)
deriving DecidableEq

/-- A node as a row. Which columns hold a value depends on its kind. -/
structure NodeRow where
  id : Int
  kind : String
  lexical : String
  int : Option Int
  double : Option Binary64
  time : Option String
  offset : Option Int
  boolean : Option Int
  datatype : Option Int
  language : Option String
  created : Stamp
deriving DecidableEq

/-- A statement as a row of the ids of its nodes. Its marks are numbers; zero says
that it lacks the mark. -/
structure StatementRow where
  id : Int
  subject : Int
  predicate : Int
  object : Int
  context : Int
  creator : Option Int
  inferred : Int
  deleted : Int
  created : Stamp
  deletedAt : Option Stamp
deriving DecidableEq

/-- A binding of a prefix to a URI. -/
structure NamespaceRow where
  id : Int
  label : String
  uri : String
  created : Stamp
deriving DecidableEq

/-- The tables of a database. -/
structure Tables where
  nodes : List NodeRow := []
  statements : List StatementRow := []
  namespaces : List NamespaceRow := []
  /-- The last value that each counter is known to have handed out. -/
  sequences : Dict String Int := []
  metadata : Dict String String := []

namespace NodeRow

/-- Whether a row is one of a URI or a blank node; all others count as literals. -/
def isResource (row : NodeRow) : Bool :=
  row.kind == "uri" || row.kind == "bnode"

/-- Whether two rows may not stand in one table, their ids apart. Resources are told apart by kind
and name, literals by written form, datatype and language. -/
def conflicts (a b : NodeRow) : Bool :=
  if a.isResource then a.kind == b.kind && a.lexical == b.lexical
  else
    !b.isResource && a.lexical == b.lexical && a.datatype.getD (-1) == b.datatype.getD (-1) &&
      a.language.getD "" == b.language.getD ""

end NodeRow

namespace StatementRow

/-- Whether a row has not been deleted. -/
def live (row : StatementRow) : Bool :=
  row.deleted == 0

/-- Whether a row was inferred, and not asserted. -/
def isInferred (row : StatementRow) : Bool :=
  row.inferred != 0

/-- Whether two rows state the same. -/
def sameSlots (a b : StatementRow) : Bool :=
  a.subject == b.subject && a.predicate == b.predicate && a.object == b.object &&
    a.context == b.context

end StatementRow

namespace Tables

/-- Adds a row of a node, unless its id is taken or another row holds the same node. -/
def insertNode? (t : Tables) (row : NodeRow) : Option Tables :=
  if t.nodes.any fun r => r.id == row.id || row.conflicts r then none
  else some { t with nodes := t.nodes ++ [row] }

/-- Adds a live row of a statement, unless its id is taken or a live row
holds the same statement. -/
def insertStatement? (t : Tables) (row : StatementRow) : Option Tables :=
  if t.statements.any fun r => r.id == row.id || (row.live && r.live && row.sameSlots r) then none
  else some { t with statements := t.statements ++ [row] }

/-- Marks a live row as deleted. Rows are never taken away. -/
def deleteStatement? (t : Tables) (id : Int) : Option Tables :=
  if t.statements.any fun r => r.id == id && r.live then
    some { t with
      statements := t.statements.map fun r =>
        if r.id == id && r.live then { r with deleted := 1, deletedAt := some .clock } else r }
  else none

def nodeById? (t : Tables) (id : Int) : Option NodeRow :=
  t.nodes.find? fun r => r.id == id

/-- The row of a URI or a blank node. -/
def resource? (t : Tables) (kind name : String) : Option NodeRow :=
  t.nodes.find? fun r => r.kind == kind && r.lexical == name

/-- The row of a literal. A missing language counts as an empty one, a missing datatype as the id
-1. -/
def literal? (t : Tables) (content : String) (language : Option String) (datatype : Option Int) :
    Option NodeRow :=
  t.nodes.find? fun r =>
    !r.isResource && r.lexical == content && r.datatype.getD (-1) == datatype.getD (-1) &&
      r.language.getD "" == language.getD ""

def statementById? (t : Tables) (id : Int) : Option StatementRow :=
  t.statements.find? fun r => r.id == id

/-- The rows that are not deleted, in the order of their ids. -/
def liveStatements (t : Tables) : List StatementRow :=
  (t.statements.filter StatementRow.live).mergeSort fun a b => a.id ≤ b.id

def namespaceByLabel? (t : Tables) (label : String) : Option NamespaceRow :=
  t.namespaces.find? fun r => r.label == label

def namespaceByUri? (t : Tables) (uri : String) : Option NamespaceRow :=
  t.namespaces.find? fun r => r.uri == uri

/-- The greatest of some ids, or zero if there are none. -/
def greatestId : List Int → Int
  | [] => 0
  | id :: rest => rest.foldl max id

end Tables

/-- A database file: the committed tables, and whether a transaction holds the write lock. -/
structure Database where
  committed : Tables := {}
  locked : Bool := false

end QuadStore
