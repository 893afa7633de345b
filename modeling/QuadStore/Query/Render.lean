import QuadStore.Query.Select
import QuadStore.Text.Decimal

/-!
The text of SELECT statements. A statement is first laid out as pieces of text with
gaps for its numbers; filling the gaps with placeholders gives the text, and the
numbers are passed in their order.
-/

namespace QuadStore

/-- How a database engine writes placeholders and names. -/
structure Dialect where
  /-- The placeholder of the parameter with the given number, counted from one. -/
  placeholder : Nat → String
  quote : String → String

namespace Dialect

/-- Numbered question marks; names stand as they are. -/
def plain : Dialect :=
  ⟨fun n => "?" ++ Text.natText n, fun name => name⟩

/-- Numbered dollar signs; names stand in double quotes, which are doubled inside. -/
def quoted : Dialect :=
  ⟨fun n => "$" ++ Text.natText n, fun name =>
    String.ofList ('"' ::
      (name.toList.flatMap fun c => if c = '"' then ['"', '"'] else [c]) ++ ['"'])⟩

end Dialect

/-- A part of a statement: text, or the place of a number. -/
inductive Piece
  | text (text : String)
  | param (value : Int)
deriving DecidableEq

/-- Lists one after another, with a separator between two. -/
def joinWith (separator : α) : List (List α) → List α
  | [] => []
  | [xs] => xs
  | xs :: rest => xs ++ separator :: joinWith separator rest

namespace Dialect

variable (d : Dialect)

def column (c : Column) : String :=
  d.quote c.table ++ "." ++ c.name

/-- An equation. A number is left as a gap. -/
def condition (c : Condition) : List Piece :=
  match c.right with
  | .column right => [.text (d.column c.left ++ " = " ++ d.column right)]
  | .param value => [.text (d.column c.left ++ " = "), .param value]

/-- Equations one after another. -/
def conditions (separator : String) (cs : List Condition) : List Piece :=
  joinWith (.text separator) (cs.map d.condition)

def projection (p : Projection) : List Piece :=
  [.text (d.column p.column ++ " AS " ++ d.quote p.label)]

def join (j : Join) : List Piece :=
  .text ("\n     INNER JOIN " ++ j.table ++ " AS " ++ d.quote j.label ++ " ON ") ::
    d.conditions " AND " j.on

def source (t : TableRef) : List Piece :=
  .text (t.table ++ " AS " ++ d.quote t.label) :: t.joins.flatMap d.join

def orderTerm (o : OrderTerm) : List Piece :=
  [.text (d.column o.column ++ (if o.ascending then " ASC" else " DESC"))]

/-- A statement, clause by clause. Clauses that have nothing to say are left out. -/
def pieces (q : SelectQuery) : List Piece :=
  .text "SELECT " ::
    ((if q.projections.isEmpty then [.text "1"]
      else joinWith (.text ", ") (q.projections.map d.projection)) ++
    .text "\nFROM " :: joinWith (.text ",\n     ") (q.sources.map d.source) ++
    (if q.conditions.isEmpty then []
      else .text "\nWHERE " :: d.conditions "\n  AND " q.conditions) ++
    (if q.orderBy.isEmpty then []
      else .text "\nORDER BY " :: joinWith (.text ", ") (q.orderBy.map d.orderTerm)) ++
    match q.limit with
    | some n => [.text ("\nLIMIT " ++ Text.natText n)]
    | none => [])

/-- The texts of the pieces, with placeholders from number `next` on. -/
def fill (next : Nat) : List Piece → List String
  | [] => []
  | .text text :: rest => text :: fill next rest
  | .param _ :: rest => d.placeholder next :: fill (next + 1) rest

end Dialect

/-- The numbers of the gaps, in order. -/
def params (pieces : List Piece) : List Int :=
  pieces.filterMap fun
    | .param value => some value
    | .text _ => none

/-- The text of a statement and its parameters in the order of their placeholders. -/
def Dialect.render (d : Dialect) (q : SelectQuery) : String × List Int :=
  (String.join (d.fill 1 (d.pieces q)), params (d.pieces q))

end QuadStore
