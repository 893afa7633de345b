import QuadStore.Calendar.Moment
import QuadStore.Number.Text
import QuadStore.Text.LowerCase
import QuadStore.Vocabulary

/-!
Nodes, the terms of statements: URIs, blank nodes and literals, each with the id of the row that
holds it. What a node is does not depend on that id; a node that no row holds yet has the id `-1`.
-/

namespace QuadStore

/-- The id of what is not stored yet. -/
def transientId : Int := -1

/-- A URI with the id of its row. -/
structure UriResource where
  id : Int
  uri : String
deriving DecidableEq

/-- The value of a literal. -/
inductive LiteralValue
  | string (content : String) (language : Option String)
  | int (value : Int)
  | double (value : Binary64)
  | boolean (value : Bool)
  | date (value : Moment)
deriving DecidableEq

/-- A literal: a value and the datatype it is declared to have. -/
structure Literal where
  value : LiteralValue
  datatype : Option UriResource
deriving DecidableEq

/-- What a node stands for. -/
inductive Term
  | uri (uri : String)
  | blank (label : String)
  | literal (literal : Literal)
deriving DecidableEq

/-- A term with the id of its row. -/
structure Node where
  id : Int
  term : Term
deriving DecidableEq

/-- The seven kinds of nodes. -/
inductive NodeKind
  | uri
  | blank
  | string
  | int
  | double
  | boolean
  | date
deriving DecidableEq

namespace NodeKind

/-- How a kind is called in the tables. -/
def name : NodeKind → String
  | .uri => "uri"
  | .blank => "bnode"
  | .string => "string"
  | .int => "int"
  | .double => "double"
  | .boolean => "boolean"
  | .date => "date"

def all : List NodeKind :=
  [.uri, .blank, .string, .int, .double, .boolean, .date]

/-- The kind that is called so. -/
def ofName? (name : String) : Option NodeKind :=
  all.find? fun kind => kind.name == name

/-- Whether nodes of a kind are literals. -/
def isLiteral : NodeKind → Bool
  | .uri | .blank => false
  | _ => true

theorem ofName?_name (kind : NodeKind) : ofName? kind.name = some kind := by
  cases kind <;> decide

end NodeKind

namespace LiteralValue

/-- The kind of the literals with such a value. -/
def kind : LiteralValue → NodeKind
  | .string _ _ => .string
  | .int _ => .int
  | .double _ => .double
  | .boolean _ => .boolean
  | .date _ => .date

/-- The written form of a value. A moment under the datatype for dates shows its date alone. -/
def content (datatype : Option String) : LiteralValue → String
  | .string content _ => content
  | .int value => Text.intText value
  | .double value => value.text
  | .boolean value => if value then "true" else "false"
  | .date value => if datatype = some Vocabulary.xsdDate then value.dateText else value.text

/-- The language of a text that has one. -/
def language : LiteralValue → Option String
  | .string _ language => language
  | _ => none

end LiteralValue

namespace Literal

def datatypeUri (literal : Literal) : Option String :=
  literal.datatype.map UriResource.uri

def content (literal : Literal) : String :=
  literal.value.content literal.datatypeUri

def language (literal : Literal) : Option String :=
  literal.value.language

end Literal

namespace Node

/-- A URI that is not stored yet. -/
def uri (uri : String) : Node :=
  ⟨transientId, .uri uri⟩

/-- A blank node that is not stored yet. -/
def blank (label : String) : Node :=
  ⟨transientId, .blank label⟩

/-- A literal that is not stored yet. -/
def literal (value : LiteralValue) (datatype : Option UriResource) : Node :=
  ⟨transientId, .literal ⟨value, datatype⟩⟩

/-- A text that is not stored yet. Languages are written in lower case. -/
def string (content : String) (language : Option String) (datatype : Option UriResource) : Node :=
  literal (.string content (language.map Text.lowerCase)) datatype

/-- Whether a node has been given an id. Nodes that are not stored have a negative one. -/
def isPersisted (n : Node) : Bool :=
  0 ≤ n.id

/-- The kind of a node, by which its row is told. -/
def kind (n : Node) : NodeKind :=
  match n.term with
  | .uri _ => .uri
  | .blank _ => .blank
  | .literal l => l.value.kind

def isUri (n : Node) : Bool :=
  n.kind == .uri

def isBlank (n : Node) : Bool :=
  n.kind == .blank

/-- Whether a node can be the subject of a statement. -/
def isResource (n : Node) : Bool :=
  n.isUri || n.isBlank

def isLiteral (n : Node) : Bool :=
  n.kind.isLiteral

def literal? (n : Node) : Option Literal :=
  match n.term with
  | .literal l => some l
  | _ => none

def uri? (n : Node) : Option String :=
  match n.term with
  | .uri uri => some uri
  | _ => none

def label? (n : Node) : Option String :=
  match n.term with
  | .blank label => some label
  | _ => none

def content? (n : Node) : Option String :=
  n.literal?.map Literal.content

def language? (n : Node) : Option String :=
  n.literal?.bind Literal.language

def datatype? (n : Node) : Option UriResource :=
  n.literal?.bind Literal.datatype

def datatypeUri? (n : Node) : Option String :=
  n.datatype?.map UriResource.uri

/-- The number of a literal, if it is an integer. -/
def int? (n : Node) : Option Int :=
  match n.literal?.map Literal.value with
  | some (.int value) => some value
  | _ => none

/-- The number of a literal. Integers have one too, rounded. -/
def double? (n : Node) : Option Binary64 :=
  match n.literal?.map Literal.value with
  | some (.int value) => some (Binary64.ofInt value)
  | some (.double value) => some value
  | _ => none

def boolean? (n : Node) : Option Bool :=
  match n.literal?.map Literal.value with
  | some (.boolean value) => some value
  | _ => none

def date? (n : Node) : Option Moment :=
  match n.literal?.map Literal.value with
  | some (.date value) => some value
  | _ => none

/-- The same term with another id. -/
def withId (n : Node) (id : Int) : Node :=
  { n with id }

/-- Replaces the datatype of a literal; other nodes have none. -/
def withDatatype (n : Node) (datatype : Option UriResource) : Node :=
  match n.term with
  | .literal l => { n with term := .literal { l with datatype } }
  | _ => n

end Node
end QuadStore
