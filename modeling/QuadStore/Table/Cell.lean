import QuadStore.Table

namespace QuadStore

/-- A value in a column. -/
inductive Cell
  | null
  | int (value : Int)
  | real (value : Binary64)
  | text (value : String)
deriving DecidableEq

namespace Cell

/-- A number that may be missing. -/
def ofInt? : Option Int → Cell
  | some value => .int value
  | none => .null

def ofReal? : Option Binary64 → Cell
  | some value => .real value
  | none => .null

def ofText? : Option String → Cell
  | some value => .text value
  | none => .null

def int? : Cell → Option Int
  | .int value => some value
  | _ => none

/-- Whether an equation holds; with a missing value none does. -/
def equals (a b : Cell) : Bool :=
  a ≠ .null && a = b

/-- Missing values come first, then numbers, then texts by their characters. -/
def rank : Cell → Nat
  | .null => 0
  | .int _ | .real _ => 1
  | .text _ => 2

/-- What a cell with a number is ordered by. -/
def number : Cell → Int
  | .int value => value
  | .real value => value.orderKey
  | _ => 0

/-- The order of cells: first what is missing, then numbers, then texts. -/
def lt (a b : Cell) : Bool :=
  if a.rank ≠ b.rank then a.rank < b.rank
  else
    match a, b with
    | .text x, .text y => x < y
    | _, _ => a.number < b.number

end Cell

/-- A row by the names of its columns. Columns that it does not have are empty. -/
abbrev Row := String → Cell

/-- The columns of the row of a node. -/
def NodeRow.cells (r : NodeRow) : Row
  | "id" => .int r.id
  | "ntype" => .text r.kind
  | "svalue" => .text r.lexical
  | "ivalue" => .ofInt? r.int
  | "dvalue" => .ofReal? r.double
  | "tvalue" => .ofText? r.time
  | "tzoffset" => .ofInt? r.offset
  | "bvalue" => .ofInt? r.boolean
  | "ltype" => .ofInt? r.datatype
  | "lang" => .ofText? r.language
  | _ => .null

/-- The columns of the row of a statement. -/
def StatementRow.cells (r : StatementRow) : Row
  | "id" => .int r.id
  | "subject" => .int r.subject
  | "predicate" => .int r.predicate
  | "object" => .int r.object
  | "context" => .int r.context
  | "creator" => .ofInt? r.creator
  | "inferred" => .int r.inferred
  | "deleted" => .int r.deleted
  | _ => .null

/-- The rows of a table that statements may be made over. -/
def Tables.rows (t : Tables) (table : String) : List Row :=
  if table = "nodes" then t.nodes.map NodeRow.cells
  else if table = "triples" then t.statements.map StatementRow.cells
  else []

end QuadStore
