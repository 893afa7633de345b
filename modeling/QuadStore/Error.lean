import QuadStore.Calendar.Timestamp
import QuadStore.Node.Text
import QuadStore.Text.Quoted

namespace QuadStore

/-- The position of a node in a statement. -/
inductive Slot
  | subject
  | predicate
  | object
  | context
deriving DecidableEq

/-- How a filter compares values. -/
inductive Comparison
  | less
  | lessEqual
  | greater
  | greaterEqual
  | notEqual
deriving DecidableEq

def Comparison.name : Comparison → String
  | .less => "Lt"
  | .lessEqual => "Le"
  | .greater => "Gt"
  | .greaterEqual => "Ge"
  | .notEqual => "Ne"

/-- A failure of the tables. -/
inductive DataFault
  /-- Another transaction holds the write lock. -/
  | locked
  | unknownKind (name : String)
  | danglingDatatype (id datatype : Int)
  | missingColumn (id : Int) (column : String)
  | integerOutOfRange (value : Int) (column : Nat)
  | malformedTimestamp (text : String) (cause : Moment.TimestampError)
  | danglingNode (id : Int)
  | unknownResultNode (id : Int)
  | unpersistedDatatype (uri : String) (literal : Node)
  | unreadableConflict (node : Node)
  | datatypeNotUri (node : Node)
  | notUnique (columns : String)
  /-- A row lacks the value of a column that must have one. -/
  | missingValue (column : String)
  | tooManyTables
  | limitOutOfRange
deriving DecidableEq

/-- A statement that cannot be. -/
inductive StatementFault
  | wrongKind (slot : Slot) (node : Node)
  | noContext (statement : String)
  | unpersistedNodes (statement : String)
deriving DecidableEq

/-- The roles in which a query names a variable outside of its patterns. -/
inductive VariableRole
  | order
  | filter
deriving DecidableEq

/-- A query that cannot be evaluated. -/
inductive QueryFault
  | noPatterns
  | emptyVariable
  | unknownVariable (role : VariableRole) (name : String)
deriving DecidableEq

/-- A filter that patterns cannot express. -/
inductive FilterFault
  | regex (name : String)
  | compare (op : Comparison) (name : String)
deriving DecidableEq

/-- A configuration that no store can be opened with. -/
inductive ConfigFault
  | noDatabasePath
  | noConnections
  | emptyContext
  | registryWithoutCaches
  | registryInStore
  | malformed
deriving DecidableEq

/-- The cause of a failed operation. -/
inductive StoreError
  | data (fault : DataFault)
  | statement (fault : StatementFault)
  | query (fault : QueryFault)
  | filter (fault : FilterFault)
  | config (fault : ConfigFault)
  /-- A named cache holds other types than were asked for. -/
  | cacheTypes (name : String)
  | closed
  /-- A file cannot be read. -/
  | unreadable
  /-- The datatypes of a row lead back to it, so that looking them up never ends.
  Nothing goes on after that. -/
  | endless
deriving DecidableEq

open Text

/-- What is reported of a fault in the tables or of a refusal by the database. -/
def DataFault.message : DataFault → String
  | .locked => "database is locked"
  | .unknownKind name => "unknown node type " ++ quoted name
  | .danglingDatatype id datatype =>
      "node " ++ intText id ++ " has a dangling datatype " ++ intText datatype
  | .missingColumn id column => "node " ++ intText id ++ " has no " ++ column ++ " value"
  | .integerOutOfRange value column =>
      "Integer " ++ intText value ++ " out of range at index " ++ natText column
  | .malformedTimestamp text cause =>
      "malformed timestamp " ++ quoted text ++ ": " ++ cause.message
  | .danglingNode id => "dangling node reference " ++ intText id
  | .unknownResultNode id => "query returned unknown node " ++ intText id
  | .unpersistedDatatype uri literal =>
      "datatype " ++ uri ++ " of literal " ++ literal.text ++ " is not persisted"
  | .unreadableConflict node => "node " ++ node.text ++ " conflicted but cannot be loaded"
  | .datatypeNotUri node => "datatype " ++ node.text ++ " is not a URI"
  | .notUnique columns => "UNIQUE constraint failed: " ++ columns
  | .missingValue column => "NOT NULL constraint failed: " ++ column
  | .tooManyTables => "at most 64 tables in a join"
  | .limitOutOfRange => "datatype mismatch"

def StatementFault.message : StatementFault → String
  | .wrongKind .predicate node => "predicate must be a URI, got " ++ node.text
  | .wrongKind .context node => "context must be a URI or blank node, got " ++ node.text
  | .wrongKind _ node => "subject must be a URI or blank node, got " ++ node.text
  | .noContext statement => "triple " ++ statement ++ " has no context"
  | .unpersistedNodes statement => "triple " ++ statement ++ " references unpersisted nodes"

def VariableRole.name : VariableRole → String
  | .order => "order by"
  | .filter => "filter"

def QueryFault.message : QueryFault → String
  | .noPatterns => "empty pattern set"
  | .emptyVariable => "empty variable name"
  | .unknownVariable role name =>
      role.name ++ " variable ?" ++ name ++ " does not occur in any pattern"

def FilterFault.message : FilterFault → String
  | .regex name => "regex on ?" ++ name
  | .compare op name => op.name ++ " comparison on ?" ++ name

def ConfigFault.message : ConfigFault → String
  | .noDatabasePath => "database_path must not be empty"
  | .noConnections => "pool_size must be at least 1"
  | .emptyContext => "context URIs must not be empty"
  | .registryWithoutCaches => "the cache registry needs an enabled cache backend"
  | .registryInStore => "the registry database must differ from the store database"
  | .malformed => "the document is no configuration"

/-- What is reported of any failure. -/
def StoreError.message : StoreError → String
  | .data fault => "data access error: " ++ fault.message
  | .statement fault => "invalid triple: " ++ fault.message
  | .query fault => "invalid query: " ++ fault.message
  | .filter fault => "unsupported filter: " ++ fault.message
  | .config fault => "config error: " ++ fault.message
  | .cacheTypes name =>
      "cache error: cache " ++ name ++ " exists with different key or value types"
  | .closed => "transaction already closed"
  | .unreadable => "I/O error"
  | .endless => "datatypes lead back to where they came from"

/-- Whether the tables or the database are at fault, not the caller. -/
def StoreError.isDataFault : StoreError → Bool
  | .data _ => true
  | _ => false

end QuadStore
