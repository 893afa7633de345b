import QuadStore.Proofs.LegibleStores
import QuadStore.Proofs.RecordedStores
import QuadStore.Proofs.StoredLiterals

namespace QuadStore

open Transaction

namespace Call

/-- The literal that a call asks for. -/
def literal? : Call → Option (LiteralValue × String)
  | .literal value => some (value.lowered, value.defaultDatatype)
  | .string content language =>
      some (.string content (language.map Text.lowerCase),
        (LiteralValue.string content language).defaultDatatype)
  | .typed content datatype => some (LiteralValue.ofText content datatype)
  | _ => none

/-- The literal that has been stored when a call is answered, because it was asked for or is the
object of an added statement, and the id that it got. -/
def got? : (c : Call) → c.Answer → Option ((LiteralValue × String) × Int)
  | .literal value, n => some ((value.lowered, value.defaultDatatype), n.id)
  | .string content language, n =>
      some ((.string content (language.map Text.lowerCase),
        (LiteralValue.string content language).defaultDatatype), n.id)
  | .typed content datatype, n => some (LiteralValue.ofText content datatype, n.id)
  | .add _ _ object _, t | .addInferred _ _ object _, t =>
      object.literal?.map fun l => (l.asked, t.object.id)
  | _, _ => none

end Call

namespace Event

/-- The transaction that has stored a literal, the literal, and the id that it got. -/
def literal? : Event → Option (Nat × (LiteralValue × String) × Int)
  | .call i _ _ c (.ok v) => (c.got? v).map fun got => (i, got)
  | _ => none

/-- Whether the values of new literals last, and literals with ids that are put into statements
are numbers that are in their rows. -/
def Lasts : Event → Prop
  | .call _ before _ c _ => (∀ value ∈ c.values, value.Lasts) ∧ ∀ n ∈ c.stored, ∀ l ∈ n.literal?,
      n.isPersisted = true → before.Identifies n ∧ l.value.isNaN = false
  | .begin | .clearCaches | .evict _ => True

theorem Lasts.values {e : Event} (h : e.Lasts) : ∀ value ∈ e.values, value.Lasts := by
  cases e with
  | begin | clearCaches | evict => rintro value ⟨⟩
  | call number before after c answer => exact h.1

end Event

namespace Action

theorem request_stored {literal : LiteralValue × String} {m : Node}
    {w w' : Workspace} (hgood : w.Good)
    (h : request literal w = .ok m w') : m.id ∈ w'.view.nodeIds := by
  obtain ⟨datatype, w₁, hdatatype, h⟩ := bind_eq_ok_iff.mp h
  exact resolveLiteral_stored (((createDatatype_silent _).ok hdatatype).good hgood) h

end Action

namespace Call

variable {c : Call} {x y : Scope} {v : c.Answer} {literal : LiteralValue × String} {id : Int}

theorem request_of_perform {m : Node} (hrun : perform (Action.request literal) x = .ok m y) :
    ∃ w, Action.request literal x.work = .ok m w ∧ y = { x with work := w } :=
  work_eq_ok_iff.mp (whileOpen_eq_ok_iff.mp hrun).2

theorem failure?_eq_none_of_request (hliteral : c.literal? = some literal) {m : Node}
    (h : perform (Action.request literal) x = .ok m y) : c.failure? x = none := by
  cases c with
  | literal value =>
      obtain rfl := Option.some.inj hliteral
      rw [← Action.createLiteral_eq_request] at h
      exact failure?_eq_none h
  | string content language =>
      obtain rfl := Option.some.inj hliteral
      rw [← Action.createString_eq_request] at h
      exact failure?_eq_none h
  | typed content datatype =>
      obtain rfl := Option.some.inj hliteral
      rw [← Action.createTyped_eq_request] at h
      exact failure?_eq_none h
  | _ => cases hliteral

theorem lowered_of_literal? (hliteral : c.literal? = some literal) : literal.1.Lowered := by
  cases c with
  | literal value =>
      obtain rfl := Option.some.inj hliteral
      cases value with
      | string content language => exact LiteralValue.lowered_string content language
      | int | double | boolean | date => rfl
  | string content language =>
      obtain rfl := Option.some.inj hliteral
      exact LiteralValue.lowered_string content language
  | typed content datatype =>
      obtain rfl := Option.some.inj hliteral
      unfold LiteralValue.ofText
      cases hread : LiteralValue.read datatype content with
      | none => rfl
      | some value => exact Action.lowered_of_read hread
  | _ => cases hliteral

theorem got_mem_nodeIds (hgot : c.got? v = some (literal, id)) (hrun : c.run x = .ok v y)
    (hgood : x.work.Good) (hlegible : y.work.view.Legible) : id ∈ y.work.view.nodeIds := by
  have requested : ∀ {literal : LiteralValue × String} {n : Node},
      perform (Action.request literal) x = .ok n y → n.id ∈ y.work.view.nodeIds := by
    intro literal n hrun
    obtain ⟨w, hrequest, rfl⟩ := request_of_perform hrun
    exact Action.request_stored hgood hrequest
  have added : ∀ {t : Statement} {object : Node}, Adds x y t →
      (object.literal?.map fun l => (l.asked, t.object.id)) = some (literal, id) →
        id ∈ y.work.view.nodeIds := by
    intro t object hadds hgot
    obtain ⟨l, -, hl⟩ := Option.map_eq_some_iff.mp hgot
    obtain rfl : t.object.id = id := congrArg Prod.snd hl
    obtain ⟨r, hr, -, hkey, -⟩ := hadds.live
    obtain ⟨d, hd, hid⟩ := (hlegible r hr).object
    exact List.mem_map.mpr ⟨d, hd, hid.trans (congrArg StatementKey.object hkey)⟩
  cases c with
  | literal value =>
      obtain ⟨-, rfl⟩ := Prod.mk.inj (Option.some.inj hgot)
      rw [run, Action.createLiteral_eq_request] at hrun
      exact requested hrun
  | string content language =>
      obtain ⟨-, rfl⟩ := Prod.mk.inj (Option.some.inj hgot)
      rw [run, Action.createString_eq_request] at hrun
      exact requested hrun
  | typed content datatype =>
      obtain ⟨-, rfl⟩ := Prod.mk.inj (Option.some.inj hgot)
      rw [run, Action.createTyped_eq_request] at hrun
      exact requested hrun
  | add s p o c => exact added (Transaction.add_eq_ok hgood hrun).1 hgot
  | addInferred s p o c => exact added (Transaction.addInferred_eq_ok hgood hrun).1 hgot
  | _ => cases hgot

theorem got_stores (hgot : c.got? v = some (literal, id)) (hrun : c.run x = .ok v y)
    (hgood : x.work.Good) (h : x.work.Recorded LiteralValue.Lasts)
    (hvalues : ∀ value ∈ c.values, value.Lasts)
    (hknown : ∀ n ∈ c.stored, ∀ l ∈ n.literal?, n.isPersisted = true →
      x.work.view.Identifies n ∧ l.value.isNaN = false) : y.work.view.Stores literal := by
  have requested : ∀ {n : Node}, perform (Action.request literal) x = .ok n y → literal.1.Lasts →
      y.work.view.Stores literal := by
    intro n hrun hvalue
    obtain ⟨w, hrequest, rfl⟩ := request_of_perform hrun
    exact ((Action.request_ends hgood h hvalue).of_ok hrequest).2
  cases c with
  | literal value =>
      obtain ⟨rfl, -⟩ := Prod.mk.inj (Option.some.inj hgot)
      rw [run, Action.createLiteral_eq_request] at hrun
      exact requested hrun (hvalues _ (List.mem_singleton_self _))
  | string content language =>
      obtain ⟨rfl, -⟩ := Prod.mk.inj (Option.some.inj hgot)
      rw [run, Action.createString_eq_request] at hrun
      exact requested hrun (hvalues _ (List.mem_singleton_self _))
  | typed content datatype =>
      obtain ⟨rfl, -⟩ := Prod.mk.inj (Option.some.inj hgot)
      rw [run, Action.createTyped_eq_request] at hrun
      exact requested hrun (hvalues _ (List.mem_singleton_self _))
  | add s p o c =>
      obtain ⟨l, hl, hasked⟩ := Option.map_eq_some_iff.mp hgot
      obtain rfl : l.asked = literal := congrArg Prod.fst hasked
      exact add_stores hgood h (List.forall_mem_filterMap.mp hvalues) (Node.term_of_literal? hl)
        (hknown o (by simp [stored]) l hl) hrun
  | addInferred s p o c =>
      obtain ⟨l, hl, hasked⟩ := Option.map_eq_some_iff.mp hgot
      obtain rfl : l.asked = literal := congrArg Prod.fst hasked
      exact addInferred_stores hgood h (List.forall_mem_filterMap.mp hvalues)
        (Node.term_of_literal? hl) (hknown o (by simp [stored]) l hl) hrun
  | _ => cases hgot

end Call

/-- Whether a transaction can read a stored literal back: it can list statements, and load the
node with the id of the literal. -/
structure Transaction.Scope.ReadsBack (x : Scope) (id : Int) : Prop where
  listed : ∀ subject predicate object context includeInferred,
    (Call.list subject predicate object context includeInferred).failure? x = none
  loaded : ∃ n y, perform (Action.loadNodeById id) x = .ok (some n) y ∧ n.id = id

namespace OpenStore

variable {s s' : OpenStore} {log : List Event} {e : Event} {i : Nat} {x : Scope}
variable {literal literal' : LiteralValue × String} {id : Int}

theorem Legible.asks (h : s.Legible) (hx : s.scope? i = some x) (hopen : x.closed = false)
    (hstores : x.work.view.Stores literal) {c : Call} (hliteral : c.literal? = some literal')
    (hkey : literal'.1.key literal'.2 = literal.1.key literal.2)
    (hnumber : literal'.1.isNaN = literal.1.isNaN) : c.failure? x = none := by
  obtain ⟨hsees, hnodes, hsound⟩ := h.sees hx
  obtain ⟨n, y, hop, -⟩ := perform_delivers (Action.request_delivers hnodes hsound
    (Call.lowered_of_literal? hliteral) (hstores.of_key hkey hnumber)) hopen hsees
  exact Call.failure?_eq_none_of_request hliteral hop

/-- Once a transaction has stored a literal, it can be read back, by all when the
transaction has committed, if the moments that are asked for have years of four digits, and
nodes with ids are in their rows when they are put into statements. If values last, too,
then it can be asked for again. -/
theorem stored_literals_read_back (config : Config) {tables : Tables} (hsound : tables.Sound)
    (htables : tables.AllLegible) (registryFile : RegistryFile) (labelStart : String)
    {log log' : List Event} {s s₁ s₂ : OpenStore}
    (hrun : (opened config tables registryFile labelStart).Run log s) (hstep : s.Step e s₁)
    (hliteral : e.literal? = some (i, literal, id)) (hlater : s₁.Run log' s₂)
    (hlegible : ∀ e' ∈ log ++ e :: log', e'.Legible) {j : Nat} (hx : s₂.scope? j = some x)
    (hopen : x.closed = false) (hj : j = i ∨ Event.HasCommitted log' i) :
    x.ReadsBack id ∧ (tables.Recorded LiteralValue.Lasts → (∀ e' ∈ log ++ [e], e'.Lasts) →
      ∀ (c : Call) literal', c.literal? = some literal' →
        literal'.1.key literal'.2 = literal.1.key literal.2 → literal'.1.isNaN = literal.1.isNaN →
          c.failure? x = none) := by
  rw [List.forall_mem_append, List.forall_mem_cons] at hlegible
  obtain ⟨hlog, he, hlog'⟩ := hlegible
  have hs := (legible_opened config hsound htables registryFile labelStart).run hrun hlog
  have hs₁ := hs.step hstep he
  have hs₂ := hs₁.run hlater hlog'
  cases e with
  | begin | clearCaches | evict => cases hliteral
  | call number before after c answer =>
      cases answer with
      | error fault => cases hliteral
      | ok v =>
          obtain ⟨got, hgot, hsame⟩ := Option.map_eq_some_iff.mp hliteral
          obtain ⟨rfl, rfl⟩ := Prod.mk.inj hsame
          obtain ⟨x₀, y, hx₀, rfl, hop, rfl⟩ := hstep.call_eq_ok
          have hy := scope?_put_self hx₀ (y := y)
          have hgood := (hs.good.scopes _ x₀ hx₀).work
          have hid := Call.got_mem_nodeIds hgot hop hgood (hs₁.tables.scopes _ y hy).statements
          have hlisted := hs₁.good.seen_later (P := fun t => id ∈ t.nodeIds)
            (fun _ _ hnodes => Tables.mem_nodeIds_mono hnodes) hy hid hlater hx hopen hj
          refine ⟨⟨hs₂.lists hx hopen, hs₂.loads hx hopen hlisted⟩, ?_⟩
          intro hrecorded hlasts c' literal' hliteral' hkey hnumber
          rw [List.forall_mem_append, List.forall_mem_singleton] at hlasts
          have hrecorded := (recorded_opened config hrecorded registryFile labelStart).run
            (good_opened config hsound registryFile labelStart) hrun fun e' he' =>
              (hlasts.1 e' he').values
          have hstores := Call.got_stores hgot hop hgood
            (hrecorded.scopes _ x₀ hx₀) hlasts.2.1 hlasts.2.2
          have hstored := hs₁.good.seen_later (P := fun t => t.Stores literal)
            (fun _ _ hnodes h => h.mono hnodes) hy hstores hlater hx hopen hj
          exact hs₂.asks hx hopen hstored hliteral' hkey hnumber

/-- A date that a transaction stores is read back, and asked for again, by the next one, although
nothing is cached any more. -/
theorem date_read_back_uncached :
    let date : Call := .typed "2024-02-29" Vocabulary.xsdDate
    let s := (opened {} {} [] "w").begin.after 0 date
      |>.after 0 (.commit none) |>.clearCaches |>.begin
    ∃ x, s.scope? 1 = some x ∧ x.ReadsBack 2 ∧ date.failure? x = none := by
  intro date s
  let s₀ := (opened {} {} [] "w").begin
  let x := (s₀.scope? 0).get (by decide +kernel)
  let y := (s.scope? 1).get (by decide +kernel)
  let e : Event := .call 0 x.work.view (finalState (date.run x)).work.view
    date (answerOf (date.run x))
  have hrun := Run.nil (s := opened {} {} [] "w") |>.snoc .begin
  have hx : s₀.scope? 0 = some x := (Option.some_get _).symm
  have hstep : s₀.Step e (s₀.after 0 date) := after_of_some hx date ▸ Step.call date hx
  have hlater := Run.nil (s := s₀.after 0 date) |>.call 0 (.commit none)
    |>.snoc .clearCaches |>.snoc .begin
  have hgot : e.literal? = some (0, LiteralValue.ofText "2024-02-29" Vocabulary.xsdDate, 2) := by
    decide +kernel
  have hlegible : ∀ e' ∈ ([] ++ [Event.begin]) ++ e :: ([] ++
      (s₀.after 0 date).noted 0 (.commit none) ++
      [Event.clearCaches] ++ [Event.begin]), e'.Legible := by
    have hdate : ∀ value ∈ date.values, value.InYears := by decide +kernel
    have hcommit : ∀ e' ∈ (s₀.after 0 date).noted 0 (.commit none), e'.Legible :=
      forall_mem_noted fun _ _ _ => ⟨by rintro value ⟨⟩, by rintro n ⟨⟩⟩
    rw [List.forall_mem_append, List.forall_mem_cons]
    simp only [List.nil_append, List.forall_mem_append, List.forall_mem_singleton]
    exact ⟨trivial, ⟨hdate, by rintro n ⟨⟩⟩, ⟨hcommit, trivial⟩, trivial⟩
  have hlasts : ∀ e' ∈ ([] ++ [Event.begin]) ++ [e], e'.Lasts := by
    have hdate : ∀ value ∈ date.values, value.Lasts := by decide +kernel
    simp only [List.nil_append, List.forall_mem_append, List.forall_mem_singleton]
    exact ⟨trivial, hdate, by rintro n ⟨⟩⟩
  obtain ⟨hback, hagain⟩ := stored_literals_read_back {} Tables.sound_empty
    ⟨Tables.legibleNodes_empty, Tables.legible_empty⟩ [] "w" hrun hstep hgot hlater hlegible
    (x := y) (j := 1) (Option.some_get _).symm (by decide +kernel)
      (.inr ⟨_, .head _, by decide +kernel⟩)
  exact ⟨y, (Option.some_get _).symm, hback,
    hagain Tables.recorded_empty hlasts date _ rfl rfl rfl⟩

/-- A date whose year has more digits is stored, but it cannot be asked for a second time. -/
theorem long_year_not_read_back :
    let date : Call := .typed "+12345-01-01" Vocabulary.xsdDate
    let s := (opened {} {} [] "w").begin
    (s.scope? 0).map date.failure? = some none ∧
      ((s.after 0 date).scope? 0).map date.failure? = some (some (.data (.malformedTimestamp
        "+12345-01-01T00:00:00.000000000Z" .invalid))) := by
  decide +kernel

end OpenStore
end QuadStore
