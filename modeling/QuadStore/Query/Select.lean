
namespace QuadStore

/-- A column of a table that goes by the name `table` in a statement. -/
structure Column where
  table : String
  name : String
deriving DecidableEq

/-- The right side of an equation. -/
inductive Operand
  | column (column : Column)
  /-- A number that is passed beside the text of the statement. -/
  | param (value : Int)
deriving DecidableEq

/-- An equation. -/
structure Condition where
  left : Column
  right : Operand
deriving DecidableEq

/-- A column with the name that it has in the answer. -/
structure Projection where
  column : Column
  label : String
deriving DecidableEq

/-- A table joined to another one where all the equations hold. -/
structure Join where
  table : String
  label : String
  on : List Condition
deriving DecidableEq

/-- A table with the tables joined to it. -/
structure TableRef where
  table : String
  label : String
  joins : List Join
deriving DecidableEq

/-- A column to order by. -/
structure OrderTerm where
  column : Column
  ascending : Bool
deriving DecidableEq

/-- A SELECT statement, as data. -/
structure SelectQuery where
  projections : List Projection := []
  sources : List TableRef := []
  conditions : List Condition := []
  orderBy : List OrderTerm := []
  limit : Option Nat := none
deriving DecidableEq

end QuadStore
