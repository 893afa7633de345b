import QuadStore.Proofs.LastingIds

/-!
Several stores that are open on the same files. Each counts its transactions on its own, from
what was committed when it was opened, and the rows of the registry file are owned by bare
transaction ids. Main statement: a transaction that ends takes the rows under its id out of
the registry file, and leaves those of a transaction of another store just when the two have
been counted differently.
-/

namespace QuadStore

open Transaction

/-- One of the stores that are open on some files, and the transactions that were begun in it. -/
structure Tenant where
  store : Store
  transactions : List Transaction := []

/-- A database file and a registry file with the stores that are open on them. -/
structure SharedFiles where
  database : Database
  registryFile : RegistryFile
  tenants : List Tenant := []

namespace SharedFiles

/-- One of the stores by itself, with the files. -/
def tenant? (f : SharedFiles) (k : Nat) : Option OpenStore :=
  (f.tenants[k]?).map fun t => ⟨f.database, f.registryFile, t.store, t.transactions⟩

/-- The files after something has happened to one of the stores. -/
def put (f : SharedFiles) (k : Nat) (s : OpenStore) : SharedFiles :=
  ⟨s.database, s.registryFile, f.tenants.set k ⟨s.store, s.transactions⟩⟩

/-- The files after one more store has been opened on them. -/
def opened (f : SharedFiles) (config : Config) (labelStart : String) : SharedFiles where
  database := { f.database with committed := f.database.committed.prepare }
  registryFile := f.registryFile
  tenants := f.tenants ++ [⟨.make config f.database.committed.prepare labelStart, []⟩]

/-- One more store is opened on the files, while no transaction holds the write lock, or something
happens to one of the stores. -/
inductive Step (f : SharedFiles) : SharedFiles → Prop
  | opening (config : Config) (labelStart : String) (hfree : f.database.locked = false) :
      Step f (f.opened config labelStart)
  | work {k : Nat} {s s' : OpenStore} {m : Happening}
    (hs : f.tenant? k = some s) (h : s.Happens m s') :
      Step f (f.put k s')

/-- One thing after another. -/
inductive Run (f : SharedFiles) : SharedFiles → Prop
  | nil : Run f f
  | snoc {f₁ f₂ : SharedFiles} (h : Run f f₁) (hstep : Step f₁ f₂) : Run f f₂

/-- The files after a transaction has been begun in one of the stores, if that is open. -/
def begin (f : SharedFiles) (k : Nat) : SharedFiles :=
  match f.tenant? k with
  | some s => f.put k s.begin
  | none => f

/-- The files after a transaction of one of the stores, if it has been begun, has been asked to do
something. -/
def after (f : SharedFiles) (k number : Nat) (c : Call) : SharedFiles :=
  match f.tenant? k with
  | some s => f.put k (s.after number c)
  | none => f

variable {f f' f₁ f₂ : SharedFiles} {k : Nat} {s : OpenStore}

theorem tenant?_eq_some_iff : f.tenant? k = some s ↔
    f.tenants[k]? = some ⟨s.store, s.transactions⟩ ∧ s.database = f.database ∧
      s.registryFile = f.registryFile := by
  constructor
  · intro h
    obtain ⟨t, ht, rfl⟩ := Option.map_eq_some_iff.mp h
    exact ⟨ht, rfl, rfl⟩
  · rintro ⟨ht, hdatabase, hfile⟩
    rw [tenant?, ht, Option.map_some, ← hdatabase, ← hfile]

theorem put_self (hs : f.tenant? k = some s) : f.put k s = f := by
  obtain ⟨ht, hdatabase, hfile⟩ := tenant?_eq_some_iff.mp hs
  obtain ⟨hlt, ht⟩ := List.getElem?_eq_some_iff.mp ht
  rw [put, ← ht, List.set_getElem_self, hdatabase, hfile]

theorem Run.append (h : f.Run f₁) (h' : f₁.Run f₂) : f.Run f₂ := by
  induction h' with
  | nil => exact h
  | snoc _ hstep ih => exact .snoc ih hstep

theorem Run.begin (h : f.Run f') (k : Nat) : f.Run (f'.begin k) := by
  unfold SharedFiles.begin
  cases hs : f'.tenant? k with
  | some s => exact .snoc h (.work hs (.step .begin))
  | none => exact h

theorem Run.call (h : f.Run f') (k number : Nat) (c : Call) : f.Run (f'.after k number c) := by
  unfold after
  cases hs : f'.tenant? k with
  | none => exact h
  | some s =>
      dsimp only
      unfold OpenStore.after
      cases hx : s.scope? number with
      | some x => exact .snoc h (.work hs (.step (.call c hx)))
      | none =>
          dsimp only
          rwa [put_self hs]

theorem Run.tenant {P : Store → List Transaction → Prop}
    (hP : ∀ {s s' : OpenStore} {m : Happening}, s.Happens m s' → P s.store s.transactions →
      P s'.store s'.transactions) (h : f.Run f') {t : Tenant} (ht : f.tenants[k]? = some t)
    (hold : P t.store t.transactions) :
    ∃ t', f'.tenants[k]? = some t' ∧ P t'.store t'.transactions := by
  induction h with
  | nil => exact ⟨t, ht, hold⟩
  | snoc _ hstep ih =>
      obtain ⟨t₁, ht₁, h₁⟩ := ih
      cases hstep with
      | opening config labelStart =>
          refine ⟨t₁, ?_, h₁⟩
          rw [opened, List.getElem?_append_left (List.getElem?_eq_some_iff.mp ht₁).1, ht₁]
      | @work j s s' m hs hm =>
          obtain ⟨ht, -, -⟩ := tenant?_eq_some_iff.mp hs
          by_cases hk : k = j
          · subst hk
            obtain rfl := Option.some.inj (ht₁.symm.trans ht)
            exact ⟨_, List.getElem?_set_self (List.getElem?_eq_some_iff.mp ht).1, hP hm h₁⟩
          · exact ⟨t₁, by rw [put, List.getElem?_set_ne (Ne.symm hk), ht₁], h₁⟩

theorem getElem?_opened (f : SharedFiles) (config : Config) (labelStart : String) :
    (f.opened config labelStart).tenants[f.tenants.length]? =
      some ⟨.make config f.database.committed.prepare labelStart, []⟩ := by
  simp [opened]

theorem Run.tenant_opened {P : Store → List Transaction → Prop}
    (hP : ∀ {s s' : OpenStore} {m : Happening}, s.Happens m s' → P s.store s.transactions →
      P s'.store s'.transactions) {config : Config} {labelStart : String}
    (h : (f.opened config labelStart).Run f')
    (hopened : P (.make config f.database.committed.prepare labelStart) [])
    (hs : f'.tenant? f.tenants.length = some s) : P s.store s.transactions := by
  obtain ⟨t, ht, ht'⟩ := h.tenant hP (f.getElem?_opened config labelStart) hopened
  obtain ⟨hs, -, -⟩ := tenant?_eq_some_iff.mp hs
  obtain rfl := Option.some.inj (ht.symm.trans hs)
  exact ht'

end SharedFiles

/-- Whether transactions have been counted on from a first id. -/
structure CountedFrom (first : Int) (store : Store) (transactions : List Transaction) : Prop where
  counter : store.counters.transactions = first + transactions.length
  ids : ∀ (i : Nat) (t : Transaction), transactions[i]? = some t →
    t.conn.transaction = first + i + 1

namespace OpenStore

variable {s s' : OpenStore} {m : Happening} {i : Nat} {x y : Scope} {first : Int}

theorem countedFrom_put (hs : CountedFrom first s.store s.transactions) (hx : s.scope? i = some x)
    (hcounter : y.work.store.counters.transactions = x.work.store.counters.transactions)
    (hid : y.work.conn.transaction = x.work.conn.transaction) :
    CountedFrom first (s.put i y).store (s.put i y).transactions := by
  rw [store_of_scope? hx] at hcounter
  obtain ⟨t, ht, rfl⟩ := Option.map_eq_some_iff.mp hx
  refine ⟨?_, fun j u hu => ?_⟩
  · show y.work.store.counters.transactions = first + ((s.transactions.set i _).length : Int)
    rw [hcounter, List.length_set]
    exact hs.counter
  · by_cases hij : i = j
    · subst hij
      have hset : (s.put i y).transactions[i]? = some ⟨y.work.conn, y.changes, y.closed⟩ :=
        List.getElem?_set_self (List.getElem?_eq_some_iff.mp ht).1
      obtain rfl := Option.some.inj (hset.symm.trans hu)
      exact hid.trans (hs.ids i t ht)
    · have hset : (s.put i y).transactions[j]? = s.transactions[j]? := List.getElem?_set_ne hij
      exact hs.ids j u (hset.symm.trans hu)

theorem Happens.countedFrom (h : s.Happens m s') (hs : CountedFrom first s.store s.transactions) :
    CountedFrom first s'.store s'.transactions := by
  cases h with
  | step hstep =>
      cases hstep with
      | begin =>
          have hcounter := hs.counter
          have hnext : s.begin.store.counters.transactions =
            s.store.counters.transactions + 1 := rfl
          rw [transactions_begin]
          refine ⟨?_, fun i t ht => ?_⟩
          · rw [hnext, List.length_append, List.length_singleton]
            push_cast
            omega
          · rcases Nat.lt_or_ge i s.transactions.length with hlt | hge
            · rw [List.getElem?_append_left hlt] at ht
              exact hs.ids i t ht
            · rw [List.getElem?_append_right hge, List.getElem?_singleton] at ht
              split at ht
              · obtain rfl := Option.some.inj ht
                obtain rfl : i = s.transactions.length := by omega
                show s.store.counters.transactions + 1 = _
                rw [hcounter]
              · cases ht
      | clearCaches => exact ⟨hs.counter, hs.ids⟩
      | evict hevicts => exact ⟨hevicts.loses.counters ▸ hs.counter, hs.ids⟩
      | call c hx =>
          rename_i i x
          rcases c.run_cases x with
            ⟨hadvances, -⟩ | ⟨refusal, y, rfl, hop, -, hended⟩ | ⟨-, -, habandoned⟩
          · exact countedFrom_put hs hx hadvances.works.transactionCounter
              hadvances.works.transaction
          · rw [Call.run, hop]
            exact countedFrom_put hs hx (congrArg _ hended.counters) hended.transaction
          · exact countedFrom_put hs hx (congrArg _ habandoned.counters) habandoned.transaction
  | lost hx => exact countedFrom_put hs hx (by rw [Scope.work_lost]) (by rw [Scope.work_lost])
  | shutdown =>
      rcases s.shutdown_cases with ⟨-, heq⟩ | heq <;> rw [heq]
      · exact ⟨hs.counter, hs.ids⟩
      · exact hs

theorem registryFile_of_scope? (hx : s.scope? i = some x) :
    x.work.registryFile = s.registryFile := by
  obtain ⟨t, -, rfl⟩ := Option.map_eq_some_iff.mp hx
  rfl

theorem id_of_scope? (hs : CountedFrom first s.store s.transactions) (hx : s.scope? i = some x) :
    x.work.conn.transaction = first + i + 1 := by
  obtain ⟨t, ht, rfl⟩ := Option.map_eq_some_iff.mp hx
  exact hs.ids i t ht

end OpenStore

theorem Call.ended {c : Call} {x : Scope} (hends : c.ends = true) (hopen : x.closed = false) :
    Ended x (finalState (c.run x)) := by
  rcases Call.finished_or_abandoned hends hopen with heq | heq <;> rw [heq]
  · exact (Scope.finished_spec hopen).toEnded
  · exact (Scope.abandoned_spec x).toEnded

theorem Transaction.Ended.mem_registryFile_iff {x y : Scope} (h : Ended x y)
    (hregistry : x.work.store.registry = .file) {row : RegistryRow} :
    row ∈ y.work.registryFile ↔
      row ∈ x.work.registryFile ∧ row.transaction ≠ x.work.conn.transaction := by
  have hreleased := h.registry
  rw [hregistry] at hreleased
  rw [(Prod.mk.inj hreleased).2]
  exact RegistryFile.mem_release_iff

namespace SharedFiles

variable {f f₁ f₂ f₃ : SharedFiles}

theorem Run.countedFrom {config : Config} {labelStart : String}
    (hregistry : config.registry = .database)
    (h : (f.opened config labelStart).Run f₁) {s : OpenStore}
    (hs : f₁.tenant? f.tenants.length = some s) :
    CountedFrom (Counters.resume f.database.committed .transactions) s.store s.transactions ∧
      s.store.registry = .file := by
  refine h.tenant_opened (P := fun store transactions =>
      CountedFrom (Counters.resume f.database.committed .transactions) store transactions ∧
        store.registry = .file)
    (fun hm hs => ⟨hm.countedFrom hs.1, hm.registry hs.2⟩) ⟨⟨?_, by simp⟩, ?_⟩ hs
  · rw [List.length_nil, Int.natCast_zero, add_zero]
    exact OpenStore.current_opened config f.database.committed
      f.registryFile labelStart .transactions
  · show Registry.make config = .file
    rw [Registry.make, hregistry]

/-- Two stores with their registry in one file are opened on the same files, one after the other.
Whenever an open transaction of either of them ends, by a commit, successful or not, a rollback or
a drop, a row of the registry file that a transaction of the other one owns stays there if and
only if the two transactions have different ids; and these are counted by each store on its own,
from what was committed when it was opened. -/
theorem rows_of_others_kept_iff {config config' : Config} {labelStart labelStart' : String}
    (hregistry : config.registry = .database) (hregistry' : config'.registry = .database)
    (hrun : (f.opened config labelStart).Run f₁) (hfree : f₁.database.locked = false)
    (hrun' : (f₁.opened config' labelStart').Run f₂) {s s' : OpenStore}
    (hs : f₂.tenant? f.tenants.length = some s) (hs' : f₂.tenant? f₁.tenants.length = some s')
    {i j : Nat} {x y : Scope} (hx : s.scope? i = some x) (hy : s'.scope? j = some y) {c : Call}
    (hends : c.ends = true) {row : RegistryRow} (hrow : row ∈ f₂.registryFile) :
    (x.closed = false → row.transaction = y.work.conn.transaction →
      (row ∈ (finalState (c.run x)).work.registryFile ↔
        Counters.resume f.database.committed .transactions + i ≠
          Counters.resume f₁.database.committed .transactions + j)) ∧
    (y.closed = false → row.transaction = x.work.conn.transaction →
      (row ∈ (finalState (c.run y)).work.registryFile ↔
        Counters.resume f.database.committed .transactions + i ≠
          Counters.resume f₁.database.committed .transactions + j)) := by
  obtain ⟨hcounted, hfile⟩ :=
    ((hrun.snoc (.opening config' labelStart' hfree)).append hrun').countedFrom hregistry hs
  obtain ⟨hcounted', hfile'⟩ := hrun'.countedFrom hregistry' hs'
  have hidx := OpenStore.id_of_scope? hcounted hx
  have hidy := OpenStore.id_of_scope? hcounted' hy
  have stays_iff : ∀ {k l : Nat} {s : OpenStore} {z u : Scope}, f₂.tenant? l = some s →
      s.scope? k = some z → s.store.registry = .file → z.closed = false →
      row.transaction = u.work.conn.transaction →
        (row ∈ (finalState (c.run z)).work.registryFile ↔
          u.work.conn.transaction ≠ z.work.conn.transaction) := by
    intro k l s z u hs hz hfile hopen howner
    have hrowz : row ∈ z.work.registryFile := by
      rw [OpenStore.registryFile_of_scope? hz, (tenant?_eq_some_iff.mp hs).2.2]
      exact hrow
    rw [(Call.ended hends hopen).mem_registryFile_iff
      (by rw [OpenStore.store_of_scope? hz, hfile]),
      howner]
    exact and_iff_right hrowz
  constructor
  · intro hopen howner
    rw [stays_iff hs hx hfile hopen howner, hidx, hidy]
    omega
  · intro hopen howner
    rw [stays_iff hs' hy hfile' hopen howner, hidx, hidy]
    omega

/-- A second store is opened after a commit. What its transaction has registered stays when the
third transaction of the first store is rolled back. -/
theorem row_of_other_kept :
    let config : Config := { registry := .database }
    let a : Node := .uri "urn:a"
    let row : RegistryRow := ⟨⟨1, 1, 1, 2⟩, 2, 1⟩
    let early := (⟨{}, [], []⟩ : SharedFiles).opened config "v" |>.begin 0
      |>.after 0 0 (.uri "urn:a") |>.after 0 0 (.commit none)
    let later := early.opened config "w" |>.begin 1 |>.after 1 0 (.statement a a a none)
      |>.begin 0 |>.begin 0
    later.registryFile = [row] ∧ ∃ s x, later.tenant? 0 = some s ∧ s.scope? 2 = some x ∧
      row ∈ (finalState (Call.rollback.run x)).work.registryFile := by
  intro config a row early later
  have hearly := Run.nil (f := (⟨{}, [], []⟩ : SharedFiles).opened config "v") |>.begin 0
    |>.call 0 0 (.uri "urn:a") |>.call 0 0 (.commit none)
  have hlater := Run.nil (f := early.opened config "w") |>.begin 1
    |>.call 1 0 (.statement a a a none) |>.begin 0 |>.begin 0
  have hrow : later.registryFile = [row] := by decide +kernel
  obtain ⟨s, hs⟩ := Option.isSome_iff_exists.mp (by decide +kernel : (later.tenant? 0).isSome)
  obtain ⟨s', hs'⟩ := Option.isSome_iff_exists.mp (by decide +kernel : (later.tenant? 1).isSome)
  have hscopes : (later.tenant? 0).all (fun s => (s.scope? 2).any fun x => !x.closed) ∧
      (later.tenant? 1).all (fun s => (s.scope? 0).any fun x =>
        x.work.conn.transaction == 2) := by
    decide +kernel
  rw [hs, hs', Option.all_some, Option.all_some, Option.any_eq_true,
    Option.any_eq_true] at hscopes
  obtain ⟨⟨x, hx, hopen⟩, y, hy, howner⟩ := hscopes
  refine ⟨hrow, s, x, hs, hx, ?_⟩
  refine ((rows_of_others_kept_iff rfl rfl hearly (by decide +kernel) hlater hs hs' hx hy rfl
    (by rw [hrow]; exact List.mem_cons_self)).1 (by simpa using hopen)
    (by simpa using (beq_iff_eq.mp howner).symm)).mpr ?_
  decide +kernel

/-- Two stores count their first transactions alike: what the transaction of one of them has
registered is taken out when that of the other is rolled back. -/
theorem row_of_other_removed :
    let config : Config := { registry := .database }
    let a : Node := .uri "urn:a"
    let shared := (⟨{}, [], []⟩ : SharedFiles).opened config "v" |>.opened config "w" |>.begin 0
      |>.begin 1 |>.after 0 0 (.statement a a a none)
    (⟨{}, [], []⟩ : SharedFiles).Run shared ∧ shared.registryFile = [⟨⟨1, 1, 1, 2⟩, 1, 1⟩] ∧
      ((shared.tenant? 0).bind (·.scope? 0)).map (·.closed) = some false ∧
      (shared.after 1 0 .rollback).registryFile = [] := by
  intro config a shared
  have hrun := Run.nil (f := ⟨{}, [], []⟩) |>.snoc (.opening config "v" (by decide))
    |>.snoc (.opening config "w" (by decide +kernel)) |>.begin 0 |>.begin 1
    |>.call 0 0 (.statement a a a none)
  exact ⟨hrun, by decide +kernel, by decide +kernel, by decide +kernel⟩

end SharedFiles
end QuadStore
