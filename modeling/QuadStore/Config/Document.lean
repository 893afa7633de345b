import QuadStore.Config
import QuadStore.Number.Power
import QuadStore.Toml.Document

namespace QuadStore

open Toml (Value)

namespace Toml.Value

/-- Whether a value can hold the fields of a record: fields by name, or all of them in order. -/
def isRecord : Value → Bool
  | .array _ | .table _ => true
  | _ => false

/-- The value of a key of a record, given with its place among the keys. -/
def field? (value : Value) (place : Nat) (key : String) : Option Value :=
  match value with
  | .array items => items[place]?
  | .table entries => lookup entries key
  | _ => none

def text? : Value → Option String
  | .string text => some text
  | _ => none

def boolean? : Value → Option Bool
  | .boolean value => some value
  | _ => none

/-- A natural number below a bound, if the value is one. -/
def natBelow? (bound : Nat) : Value → Option Nat
  | .integer value => if 0 ≤ value ∧ value < bound then some value.toNat else none
  | _ => none

/-- Whether a record has no fields at all. -/
def isEmpty : Value → Bool
  | .array [] | .table [] => true
  | _ => false

/-- The name of a choice, given as a text or as the only key of a table without content. -/
def choice? : Value → Option String
  | .string text => some text
  | .table [(key, value)] => if value.isEmpty then some key else none
  | _ => none

/-- Decodes a key of a record, which keeps its default when it is absent. -/
def field (value : Value) (place : Nat) (key : String) (default : α) (decode : Value → Option α) :
    Option α :=
  match value.field? place key with
  | some inner => decode inner
  | none => some default

end Toml.Value

def RegistryStrategy.ofName? (name : String) : Option RegistryStrategy :=
  [RegistryStrategy.internal, .cache, .database].find? fun s => s.name == name

def CacheBackend.ofName? (name : String) : Option CacheBackend :=
  [CacheBackend.internal, .disabled].find? fun b => b.name == name

/-- A policy has to give both of its numbers. -/
def CachePolicy.ofValue? (value : Value) : Option CachePolicy := do
  let maxEntries ← value.field? 0 "max_entries"
  let idleSeconds ← value.field? 1 "idle_seconds"
  pure ⟨← maxEntries.natBelow? (twoPow 64), ← idleSeconds.natBelow? (twoPow 64)⟩

/-- Reads the policies of the caches. What is left out has its default. -/
def CacheConfig.ofValue? (value : Value) : Option CacheConfig := do
  if !value.isRecord then none
  let standard : CacheConfig := {}
  let policy (place : Nat) (key : String) (default : CachePolicy) :=
    value.field place key default CachePolicy.ofValue?
  pure {
    backend := ← value.field 0 "backend" standard.backend (·.choice?.bind CacheBackend.ofName?)
    node := ← policy 1 "node" standard.node
    statement := ← policy 2 "triple" standard.statement
    uri := ← policy 3 "uri" standard.uri
    blank := ← policy 4 "bnode" standard.blank
    literal := ← policy 5 "literal" standard.literal
    namespaceUri := ← policy 6 "namespace_uri" standard.namespaceUri
    namespaceLabel := ← policy 7 "namespace_prefix" standard.namespaceLabel
    named := ← policy 8 "default_named" standard.named
    registry := ← policy 9 "registry" standard.registry }

/-- Reads the part of a configuration that governs queries. -/
def Config.reorderOfValue? (value : Value) : Option Bool :=
  if value.isRecord then value.field 0 "reorder_patterns" false Value.boolean? else none

/-- Reads a configuration. What is left out has its default, and fields that are not known are
passed over. -/
def Config.ofValue? (value : Value) : Option Config := do
  let standard : Config := {}
  pure {
    databasePath := ← value.field 0 "database_path" standard.databasePath Value.text?
    registryDatabasePath :=
      ← value.field 1 "registry_database_path" none fun inner => inner.text?.map some
    poolSize := ← value.field 2 "pool_size" standard.poolSize (·.natBelow? (twoPow 32))
    busyTimeout := ← value.field 3 "busy_timeout_ms"
      standard.busyTimeout (·.natBelow? (twoPow 64))
    defaultContext := ← value.field 4 "default_context" standard.defaultContext Value.text?
    inferredContext := ← value.field 5 "inferred_context" standard.inferredContext Value.text?
    registry :=
      ← value.field 6 "registry" standard.registry (·.choice?.bind RegistryStrategy.ofName?)
    cache := ← value.field 7 "cache" standard.cache CacheConfig.ofValue?
    reorderPatterns := ← value.field 8 "query" standard.reorderPatterns Config.reorderOfValue? }

/-- Reads a configuration document and checks what it says. -/
def Config.ofDocument (text : String) : Except ConfigFault Config := do
  match (Toml.read text).bind fun entries => Config.ofValue? (.table entries) with
  | some config => do
      config.validate
      pure config
  | none => throw .malformed

end QuadStore
