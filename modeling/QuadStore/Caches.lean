import QuadStore.Cache
import QuadStore.Namespace
import QuadStore.Statement

namespace QuadStore

/-- The caches of a store. Nodes are in two of them, by id and by what they are; bindings are by
URI and by prefix. -/
structure Caches where
  node : Cache Int Node
  statement : Cache Int Statement
  uri : Cache String Node
  blank : Cache String Node
  literal : Cache LiteralKey Node
  namespaceUri : Cache String Namespace
  namespaceLabel : Cache String Namespace

namespace Caches

/-- All caches are empty at first. -/
def make (c : CacheConfig) : Caches where
  node := .make c.backend c.node
  statement := .make c.backend c.statement
  uri := .make c.backend c.uri
  blank := .make c.backend c.blank
  literal := .make c.backend c.literal
  namespaceUri := .make c.backend c.namespaceUri
  namespaceLabel := .make c.backend c.namespaceLabel

/-- Keeps a stored node under its id and under its natural key. -/
def addNode (c : Caches) (n : Node) : Caches :=
  if !n.isPersisted then c
  else
    let c := { c with node := c.node.put n.id n }
    match n.term with
    | .uri uri => { c with uri := c.uri.put uri n }
    | .blank label => { c with blank := c.blank.put label n }
    | .literal l => { c with literal := c.literal.put l.key n }

/-- Puts a statement into the cache, if it has an id. -/
def addStatement (c : Caches) (t : Statement) : Caches :=
  if t.isPersisted then { c with statement := c.statement.put t.id t } else c

/-- Puts a binding into both of its caches. -/
def addNamespace (c : Caches) (ns : Namespace) : Caches :=
  { c with
    namespaceLabel := c.namespaceLabel.put ns.label ns
    namespaceUri := c.namespaceUri.put ns.uri ns }

def eraseStatement (c : Caches) (id : Int) : Caches :=
  { c with statement := c.statement.erase id }

def eraseNamespace (c : Caches) (ns : Namespace) : Caches :=
  { c with
    namespaceLabel := c.namespaceLabel.erase ns.label
    namespaceUri := c.namespaceUri.erase ns.uri }

def clear (c : Caches) : Caches where
  node := c.node.clear
  statement := c.statement.clear
  uri := c.uri.clear
  blank := c.blank.clear
  literal := c.literal.clear
  namespaceUri := c.namespaceUri.clear
  namespaceLabel := c.namespaceLabel.clear

/-- What the caches may become of their own accord. -/
structure Evicts (c c' : Caches) : Prop where
  node : c.node.Evicts c'.node
  statement : c.statement.Evicts c'.statement
  uri : c.uri.Evicts c'.uri
  blank : c.blank.Evicts c'.blank
  literal : c.literal.Evicts c'.literal
  namespaceUri : c.namespaceUri.Evicts c'.namespaceUri
  namespaceLabel : c.namespaceLabel.Evicts c'.namespaceLabel

def names : List String :=
  ["node-cache", "triple-cache", "uri-cache", "bnode-cache", "literal-cache",
    "namespace-uri-cache", "namespace-prefix-cache"]

/-- How many entries each of the caches of a store has. -/
def sizes (c : Caches) : List Nat :=
  [c.node.size, c.statement.size, c.uri.size, c.blank.size, c.literal.size, c.namespaceUri.size,
    c.namespaceLabel.size]

end Caches
end QuadStore
