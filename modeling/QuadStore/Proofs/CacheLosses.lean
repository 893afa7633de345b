import QuadStore.Store

namespace QuadStore

/-- Whether nothing is found in a cache but what is found in another one. -/
structure Cache.PartOf {κ ν : Type} [DecidableEq κ] (c c' : Cache κ ν) : Prop where
  keeps : c.keeps = c'.keeps
  found : ∀ key value, c.get? key = some value → c'.get? key = some value

namespace Cache.PartOf

variable {κ ν : Type} [DecidableEq κ] {c c' : Cache κ ν}

theorem refl (c : Cache κ ν) : c.PartOf c :=
  ⟨rfl, fun _ _ h => h⟩

theorem clear (c : Cache κ ν) : c.clear.PartOf c :=
  ⟨rfl, nofun⟩

theorem of_evicts (h : c.Evicts c') : c'.PartOf c :=
  ⟨h.keeps_eq, fun _ _ => h.get?_of_some⟩

theorem get?_eq_none (h : c.PartOf c') {key : κ} (hnone : c'.get? key = none) :
    c.get? key = none := by
  cases hvalue : c.get? key with
  | none => rfl
  | some value => cases hnone.symm.trans (h.found key value hvalue)

end Cache.PartOf

structure Caches.PartOf (c c' : Caches) : Prop where
  node : c.node.PartOf c'.node
  statement : c.statement.PartOf c'.statement
  uri : c.uri.PartOf c'.uri
  blank : c.blank.PartOf c'.blank
  literal : c.literal.PartOf c'.literal
  namespaceUri : c.namespaceUri.PartOf c'.namespaceUri
  namespaceLabel : c.namespaceLabel.PartOf c'.namespaceLabel

namespace Caches.PartOf

open Cache.PartOf

theorem refl (c : Caches) : c.PartOf c :=
  ⟨.refl _, .refl _, .refl _, .refl _, .refl _, .refl _, .refl _⟩

theorem clear (c : Caches) : c.clear.PartOf c :=
  ⟨.clear _, .clear _, .clear _, .clear _, .clear _, .clear _, .clear _⟩

theorem of_evicts {c c' : Caches} (h : c.Evicts c') : c'.PartOf c where
  node := .of_evicts h.node
  statement := .of_evicts h.statement
  uri := .of_evicts h.uri
  blank := .of_evicts h.blank
  literal := .of_evicts h.literal
  namespaceUri := .of_evicts h.namespaceUri
  namespaceLabel := .of_evicts h.namespaceLabel

end Caches.PartOf

/-- What a registry may be when the caches that hold it have lost something. -/
inductive Registry.Loses : Registry → Registry → Prop
  | nothing (r : Registry) : Loses r r
  | cached {r r' : CachedRegistry} {known : Bool} (hentries : r'.entries.PartOf r.entries)
      (hregistered : r'.registered.PartOf r.registered) :
    Loses (.cached r known) (.cached r' known)

theorem Registry.Loses.clearCaches (r : Registry) : r.Loses r.clearCaches := by
  cases r with
  | cached registry known =>
      cases known with
      | true => exact .cached (.clear _) (.clear _)
      | false => exact .nothing _
  | _ => exact .nothing _

/-- What a store may be when its caches have lost something. -/
inductive Store.Loses (s : Store) : Store → Prop
  | intro {caches : Caches} {registry : Registry} (hcaches : caches.PartOf s.caches)
      (hregistry : s.registry.Loses registry) : s.Loses { s with caches, registry }

theorem Store.Loses.config {s s' : Store} (h : s.Loses s') : s'.config = s.config := by
  cases h
  rfl

theorem Store.Loses.counters {s s' : Store} (h : s.Loses s') : s'.counters = s.counters := by
  cases h
  rfl

theorem Store.Loses.events {s s' : Store} (h : s.Loses s') : s'.events = s.events := by
  cases h
  rfl

theorem Store.Loses.clearCaches (s : Store) : s.Loses s.clearCaches :=
  .intro (.clear _) (.clearCaches _)

theorem Store.Evicts.loses {s s' : Store} {group : CacheGroup} (h : s.Evicts group s') :
    s.Loses s' := by
  cases h with
  | rows h => exact .intro (.of_evicts h) (.nothing _)
  | entries hr h => exact .intro (.refl _) (hr ▸ .cached (.of_evicts h) (.refl _))
  | registered hr h => exact .intro (.refl _) (hr ▸ .cached (.refl _) (.of_evicts h))

end QuadStore
