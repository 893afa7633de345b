import QuadStore.Calendar.Timestamp
import QuadStore.Node

namespace QuadStore

open Text

/-- Reads a truth value of XML Schema. -/
def readBoolean (s : List Char) : Option Bool :=
  if s = "true".toList ∨ s = "1".toList then some true
  else if s = "false".toList ∨ s = "0".toList then some false
  else none

/-- Reads a date or a timestamp, as the datatype asks. -/
def readMoment (datatype : String) (s : List Char) : Option Moment :=
  if datatype = Vocabulary.xsdDate then Moment.readDate s
  else (Moment.readTimestamp (String.ofList s)).toOption

/-- How the text of a literal is read. -/
inductive LiteralForm
  | int
  | double
  | boolean
  | date
  /-- Not at all: the text is the value. -/
  | text
deriving DecidableEq

namespace LiteralForm

/-- The form in which values of a datatype are kept. A datatype that is not known has texts. -/
def ofDatatype (datatype : String) : LiteralForm :=
  if Vocabulary.isIntegerType datatype then .int
  else if Vocabulary.isDoubleType datatype then .double
  else if datatype = Vocabulary.xsdBoolean then .boolean
  else if Vocabulary.isDateType datatype then .date
  else .text

end LiteralForm

/-- Reads the text of a literal, whose blanks on both sides do not count unless the text is the
value. What is not a number is no floating point number either. -/
def LiteralValue.read (datatype content : String) : Option LiteralValue :=
  let s := trim content.toList
  match LiteralForm.ofDatatype datatype with
  | .int => (readInt64 s).map .int
  | .double => ((Binary64.read s).filter fun x => !x.isNaN).map .double
  | .boolean => (readBoolean s).map .boolean
  | .date => (readMoment datatype s).map .date
  | .text => some (.string content none)

/-- The datatype of a value that is given without one. -/
def LiteralValue.defaultDatatype : LiteralValue → String
  | .string _ none => Vocabulary.xsdString
  | .string _ (some _) => Vocabulary.langString
  | .int _ => Vocabulary.xsdInteger
  | .double _ => Vocabulary.xsdDouble
  | .boolean _ => Vocabulary.xsdBoolean
  | .date _ => Vocabulary.xsdDateTime

end QuadStore
