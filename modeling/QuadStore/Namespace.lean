import QuadStore.Vocabulary
import QuadStore.Node

namespace QuadStore

/-- A prefix bound to a URI, with the id of its row. -/
structure Namespace where
  id : Int
  label : String
  uri : String
deriving DecidableEq

namespace Namespace

/-- A binding that is not stored yet. -/
def make (label uri : String) : Namespace :=
  ⟨transientId, label, uri⟩

def rdf : Namespace := make "rdf" Vocabulary.rdf
def rdfs : Namespace := make "rdfs" Vocabulary.rdfs
def xsd : Namespace := make "xsd" Vocabulary.xsd
def owl : Namespace := make "owl" Vocabulary.owl

/-- The URI that stands for a name with the prefix. -/
def expand (ns : Namespace) (name : String) : String :=
  ns.uri ++ name

/-- Whether a URI begins as the namespace does. -/
def contains (ns : Namespace) (name : String) : Bool :=
  ns.uri.toList.isPrefixOf name.toList

/-- The short form of a name of the namespace. -/
def compact (ns : Namespace) (name : String) : Option String :=
  if ns.contains name then
    some (ns.label ++ ":" ++ String.ofList (name.toList.drop ns.uri.length))
  else none

/-- Whether two bindings bind the same prefix to the same URI. -/
def same (a b : Namespace) : Bool :=
  a.label == b.label && a.uri == b.uri

theorem compact_expand (ns : Namespace) (name : String) :
    ns.compact (ns.expand name) = some (ns.label ++ ":" ++ name) := by
  have drop : (ns.uri.toList ++ name.toList).drop ns.uri.length = name.toList := by
    rw [← String.length_toList, List.drop_left]
  simp [compact, contains, expand, drop]

end Namespace
end QuadStore
