import QuadStore.Calendar.Timestamp
import QuadStore.Error
import QuadStore.Table

namespace QuadStore

/-- What a column of numbers keeps: zero has no sign there, and what is no number is missing. -/
def Binary64.stored (x : Binary64) : Option Binary64 :=
  if x.isNaN then none else if x.isZero then some (.ofMagnitude false 0) else some x

/-- Checks that a time at which a row was written can be read. -/
def Stamp.check : Stamp → Except DataFault Unit
  | .clock => pure ()
  | .text written =>
      match Moment.readTimestamp written with
      | .ok _ => pure ()
      | .error cause => throw (.malformedTimestamp written cause)

namespace NodeRow

/-- The row of a node under an id. Columns that its kind does not use are empty. -/
def ofNode (id : Int) (n : Node) : NodeRow :=
  let bare : NodeRow := {
    id, kind := n.kind.name, lexical := "", int := none, double := none, time := none,
    offset := none, boolean := none, datatype := none, language := none, created := .clock }
  match n.term with
  | .uri uri => { bare with lexical := uri }
  | .blank label => { bare with lexical := label }
  | .literal l =>
      let bare := { bare with
        lexical := l.content, datatype := l.datatype.map UriResource.id, language := l.language }
      match l.value with
      | .string _ _ => bare
      | .int i => { bare with int := some i, double := (Binary64.ofInt i).stored }
      | .double x => { bare with double := x.stored }
      | .boolean b => { bare with boolean := some (if b then 1 else 0) }
      | .date m => { bare with time := some m.columnText, offset := some m.offset }

/-- Offsets are numbers of 32 bits; the column is the seventh. -/
def checkOffset (r : NodeRow) : Except DataFault Unit :=
  match r.offset with
  | some offset =>
      if -2147483648 ≤ offset ∧ offset ≤ 2147483647 then pure ()
      else throw (.integerOutOfRange offset 6)
  | none => pure ()

/-- The kind of a row, which has to be known. -/
def readKind (r : NodeRow) : Except DataFault NodeKind :=
  match NodeKind.ofName? r.kind with
  | some kind => pure kind
  | none => throw (.unknownKind r.kind)

/-- The value of a column that a row of its kind has to have. -/
def require (r : NodeRow) (column : String) (value : Option α) : Except DataFault α :=
  match value with
  | some value => pure value
  | none => throw (.missingColumn r.id column)

/-- The moment of a row, at its offset. -/
def readMoment (r : NodeRow) : Except DataFault Moment := do
  let time ← r.require "tvalue" r.time
  let offset := r.offset.getD 0
  if 86400 ≤ offset.natAbs then throw (.missingColumn r.id "valid tzoffset")
  match Moment.readTimestamp time with
  | .ok m => r.require "valid tzoffset" (m.withOffset? offset)
  | .error cause => throw (.malformedTimestamp time cause)

/-- The term of a row of the given kind, whose datatype has been looked up. -/
def readTerm (r : NodeRow) (kind : NodeKind) (datatype : Option UriResource) :
    Except DataFault Term := do
  match kind with
  | .uri => pure (.uri r.lexical)
  | .blank => pure (.blank r.lexical)
  | .string =>
      pure (.literal ⟨.string r.lexical (r.language.map Text.lowerCase), datatype⟩)
  | .int => pure (.literal ⟨.int (← r.require "ivalue" r.int), datatype⟩)
  | .double => pure (.literal ⟨.double (← r.require "dvalue" r.double), datatype⟩)
  | .boolean => pure (.literal ⟨.boolean ((← r.require "bvalue" r.boolean) != 0), datatype⟩)
  | .date => pure (.literal ⟨.date (← r.readMoment), datatype⟩)

/-- The node of a row of the given kind, whose datatype has been looked up. -/
def toNode (r : NodeRow) (kind : NodeKind) (datatype : Option UriResource) :
    Except DataFault Node := do
  let term ← r.readTerm kind datatype
  r.created.check
  pure ⟨r.id, term⟩

end NodeRow
end QuadStore
